import Intake.Claim
import Intake.Json.Printer
import Intake.Proofs.Query
import Intake.Proofs.Reading
import Intake.Proofs.Store
import Intake.Proofs.Wire
import Mathlib.Data.List.Pairwise
/-!
# Uploads — a claim that is made over a wire that loses answers

A service of objects reads an upload off a request and carries it out as its precondition says, or does not carry it out
at all.  The answer to an upload that was carried out may be lost on the way, or be one of those after which the client
tries again; the client then sends the same upload once more, and finds what the first one left.  So of a claim over the
wire: it succeeds exactly if an upload took and its answer came through, and a claim that is refused may have been refused
by its own first attempt (`takeObject_over_wire`).
-/
namespace Intake

/-! ## The other end -/

/-- An upload, as the service reads it off a request. -/
structure Upload where
  key : String
  body : Octets
  precondition : Precondition

/-- The precondition that travels with a request. -/
def Precondition.ofGeneration : Option String → Precondition
  | none => .always
  | some "0" => .absent
  | some v => .version v

/-- **The upload that a request asks for.** -/
def Upload.read? (request : HttpRequest) : Option Upload :=
  match request.method, request.url.value? "name" with
  | .post, some key =>
    some ⟨key, (request.content.map (·.2)).getD [], .ofGeneration (request.url.value? "ifGenerationMatch")⟩
  | _, _ => none

/-- An upload that was carried out: the store that it met, and what it was answered. -/
structure Carried where
  upload : Upload
  found : Store
  reply : Option HttpResponse

namespace Carried

/-- The precondition held, so the object was written. -/
def Took (c : Carried) : Prop := Store.refuses? c.upload.precondition (c.found.get? c.upload.key) = none

instance (c : Carried) : Decidable c.Took := inferInstanceAs (Decidable (_ = none))

/-- The client does not learn what came of it: no answer, or one after which it tries again. -/
def Lost (c : Carried) : Prop := ∀ response, c.reply = some response → isTransientStatus response.status = true

/-- A response says what came of an upload. -/
inductive Tells (c : Carried) (response : HttpResponse) : Prop
  | written {info : ObjectInfo} (htook : c.Took) (hsuccess : response.isSuccess = true)
    (hread : (Json.readAll response.body).toOption.bind ObjectService.objectInfo? = some info)
    (hversion : info.version = decimal c.found.nextGeneration)
  | refused (hleft : ¬ c.Took) (hstatus : response.status = 412)

end Carried

/-- The objects of a service, and the uploads it has carried out. -/
structure Depot where
  store : Store
  uploads : List Carried := []

namespace Depot

/-- **What a service does with an upload**: nothing, and the answer does not say that it did; or what the precondition
says, and the answer is lost or says so. -/
inductive Handles (upload : Upload) (found : Store) (uploads : List Carried) : Option HttpResponse → Depot → Prop
  | missed {reply : Option HttpResponse}
    (hreply : ∀ response, reply = some response → response.isSuccess = false ∧ response.status ≠ 412) :
    Handles upload found uploads reply ⟨found, uploads⟩
  | carried {reply : Option HttpResponse} (now : Timestamp)
    (hreply : Carried.Lost ⟨upload, found, reply⟩ ∨
      ∃ response, reply = some response ∧ Carried.Tells ⟨upload, found, reply⟩ response) :
    Handles upload found uploads reply
      ⟨(found.put upload.key upload.body upload.precondition now).2, uploads ++ [⟨upload, found, reply⟩]⟩

/-- **The answers of a service that keeps its preconditions**, while others work on its objects before every call.
Reading changes nothing, and nothing is said of what is read. -/
def Serves (others : Store → Store → Prop) : (c : WireCall) → Depot → c.Reply → Depot → Prop
  | .send request, s, reply, s' => ∃ found, others s.store found ∧
    match Upload.read? request with
    | some upload => Handles upload found s.uploads reply s'
    | none => request.method = .get → s' = ⟨found, s.uploads⟩
  | .signIn, s, _, s' | .token _, s, _, s' | .sleep _, s, _, s' => others s.store s'.store ∧ s'.uploads = s.uploads

/-- A service that is asked for one upload, and for what is there. -/
def asked (others : Store → Store → Prop) (upload : Upload) : Surroundings Wire Depot where
  admits
    | .send request, _ => Upload.read? request = some upload ∨ Upload.read? request = none ∧ request.method = .get
    | _, _ => True
  answers := Serves others

variable {others : Store → Store → Prop} {upload : Upload} {s s' : Depot}

/-- **One call changes little**: others work on the objects, and perhaps the upload is carried out once more. -/
theorem Serves.cases {c : WireCall} {reply : c.Reply} (hadmits : (asked others upload).admits c s)
    (h : Serves others c s reply s') :
    ∃ found, others s.store found ∧ (s' = ⟨found, s.uploads⟩ ∨ ∃ now reply,
      s' = ⟨(found.put upload.key upload.body upload.precondition now).2, s.uploads ++ [⟨upload, found, reply⟩]⟩) := by
  cases c with
  | signIn => exact ⟨_, h.1, .inl (h.2 ▸ rfl)⟩
  | token scope => exact ⟨_, h.1, .inl (h.2 ▸ rfl)⟩
  | sleep span => exact ⟨_, h.1, .inl (h.2 ▸ rfl)⟩
  | send request =>
    obtain ⟨found, hothers, h⟩ := h
    refine ⟨found, hothers, ?_⟩
    rcases hadmits with hread | ⟨hread, hget⟩
    · rw [hread] at h
      cases h with
      | missed hreply => exact .inl rfl
      | carried now hreply => exact .inr ⟨now, _, rfl⟩
    · rw [hread] at h
      exact .inl (h hget)

/-! ## What lasts -/

section Creating

variable {key : String} {body : Octets} {found : Store} {reply : Option HttpResponse}

theorem took_absent_iff : Carried.Took ⟨⟨key, body, .absent⟩, found, reply⟩ ↔ found.get? key = none := by
  cases h : found.get? key <;> simp [Carried.Took, Store.refuses?, h]

theorem get?_put_absent_ne_none (now : Timestamp) : (found.put key body .absent now).2.get? key ≠ none := by
  cases h : found.get? key with
  | none => simp [Store.put, Store.refuses?, h, Store.get?_write_self]
  | some object => simp [Store.put, Store.refuses?, h]

/-- An object that nobody else creates is there only if an upload took, and an upload is refused only then. -/
structure Made (key : String) (s : Depot) : Prop where
  there : s.store.get? key ≠ none → ∃ c ∈ s.uploads, c.Took
  refused : ∀ c ∈ s.uploads, ¬ c.Took → ∃ c' ∈ s.uploads, c'.Took

/-- An object that nobody else removes is there once an upload took, and no second upload takes. -/
structure Single (key : String) (s : Depot) : Prop where
  there : ∀ c ∈ s.uploads, c.Took → s.store.get? key ≠ none
  once : s.uploads.Pairwise fun c c' => ¬ (c.Took ∧ c'.Took)

theorem Single.eq_of_took {s : Depot} (h : Single key s) {c c' : Carried} (hc : c ∈ s.uploads) (hc' : c' ∈ s.uploads)
    (htook : c.Took) (htook' : c'.Took) : c = c' := by
  have : Std.Symm fun c c' : Carried => ¬ (c.Took ∧ c'.Took) := ⟨fun _ _ hn hboth => hn hboth.symm⟩
  by_contra hne
  exact h.once.forall hc hc' hne ⟨htook, htook'⟩

theorem Made.lasts (hothers : ∀ t t', others t t' → t.get? key = none → t'.get? key = none) {c : WireCall}
    {reply : c.Reply} (hadmits : (asked others ⟨key, body, .absent⟩).admits c s) (h : Serves others c s reply s')
    (hs : Made key s) : Made key s' := by
  obtain ⟨found, hstep, rfl | ⟨now, reply, rfl⟩⟩ := h.cases hadmits
  · exact ⟨fun hthere => hs.there fun hnone => hthere (hothers _ _ hstep hnone), hs.refused⟩
  · have htook : ∃ c ∈ s.uploads ++ [⟨⟨key, body, .absent⟩, found, reply⟩], c.Took := by
      by_cases hnone : found.get? key = none
      · exact ⟨_, List.mem_append_right _ (.head _), took_absent_iff.2 hnone⟩
      · obtain ⟨c, hc, htook⟩ := hs.there fun hnone' => hnone (hothers _ _ hstep hnone')
        exact ⟨c, List.mem_append_left _ hc, htook⟩
    exact ⟨fun _ => htook, fun _ _ _ => htook⟩

theorem Single.lasts (hothers : ∀ t t', others t t' → t'.get? key = none → t.get? key = none) {c : WireCall}
    {reply : c.Reply} (hadmits : (asked others ⟨key, body, .absent⟩).admits c s) (h : Serves others c s reply s')
    (hs : Single key s) : Single key s' := by
  obtain ⟨found, hstep, rfl | ⟨now, reply, rfl⟩⟩ := h.cases hadmits
  · exact ⟨fun c hc htook hnone => hs.there c hc htook (hothers _ _ hstep hnone), hs.once⟩
  · refine ⟨fun _ _ _ => get?_put_absent_ne_none now, List.pairwise_append.2 ⟨hs.once, List.pairwise_singleton _ _, ?_⟩⟩
    rintro c hc c' hc' ⟨htook, htook'⟩
    obtain rfl := List.mem_singleton.1 hc'
    exact hs.there c hc htook (hothers _ _ hstep (took_absent_iff.1 htook'))

end Creating

/-! ## Attempts -/

/-- Of no upload it is known that it took. -/
def Quiet (s : Depot) : Prop := ∀ c ∈ s.uploads, c.Took → c.Lost

theorem Quiet.of_uploads (hs : s.Quiet) (h : s'.uploads = s.uploads) : s'.Quiet := by
  intro c hc
  exact hs c (h ▸ hc)

theorem Quiet.append {uploads : List Carried} {t : Store} {c : Carried} (h : Quiet ⟨t, uploads⟩)
    (hc : c.Took → c.Lost) (t' : Store) : Quiet ⟨t', uploads ++ [c]⟩ := by
  intro c' hc'
  rcases List.mem_append.1 hc' with hc' | hc'
  · exact h c' hc'
  · obtain rfl := List.mem_singleton.1 hc'
    exact hc

/-- **What the answer to an upload says**: that it took, that it was refused, or nothing that can be relied on. -/
inductive Learns (s : Depot) : Option HttpResponse → Prop
  | written {response : HttpResponse} {info : ObjectInfo} (hsuccess : response.isSuccess = true)
    (hread : (Json.readAll response.body).toOption.bind ObjectService.objectInfo? = some info)
    (htook : ∃ c ∈ s.uploads, c.Took ∧ ¬ c.Lost) : Learns s (some response)
  | refused {response : HttpResponse} (hstatus : response.status = 412) (hquiet : s.Quiet)
    (hleft : ∃ c ∈ s.uploads, ¬ c.Took ∧ ¬ c.Lost) : Learns s (some response)
  | nothing {reply : Option HttpResponse}
    (hreply : ∀ response, reply = some response → response.isSuccess = false ∧ response.status ≠ 412)
    (hquiet : s.Quiet) : Learns s reply

theorem Handles.learns {found t : Store} {uploads : List Carried} {reply : Option HttpResponse}
    (h : Handles upload found uploads reply s') (hs : Quiet ⟨t, uploads⟩) : Learns s' reply := by
  cases h with
  | missed hreply => exact .nothing hreply hs
  | carried now hreply =>
    by_cases hlost : Carried.Lost ⟨upload, found, reply⟩
    · -- a status after which the client tries again neither confirms nor refuses
      refine .nothing (fun response hresponse => ?_) (hs.append (fun _ => hlost) _)
      have htransient := hlost response hresponse
      refine ⟨Bool.eq_false_iff.2 fun hsuccess => ?_, fun hstatus => ?_⟩
      · rw [not_isTransientStatus_of_isSuccess hsuccess] at htransient
        cases htransient
      · rw [hstatus] at htransient
        cases htransient
    · obtain ⟨response, rfl, htells⟩ := hreply.resolve_left hlost
      cases htells with
      | written htook hsuccess hread hversion =>
        exact .written hsuccess hread ⟨_, List.mem_append_right _ (.head _), htook, hlost⟩
      | refused hleft hstatus =>
        exact .refused hstatus (hs.append (fun htook => absurd htook hleft) _)
          ⟨_, List.mem_append_right _ (.head _), hleft, hlost⟩

/-- What an attempt to upload leaves: it knows that it took, or that it was refused, or nothing. -/
def Attempted : Except StoreFault PutResult → Depot → Prop
  | .ok (.written _), s => ∃ c ∈ s.uploads, c.Took ∧ ¬ c.Lost
  | .ok (.conflict _), s => s.Quiet ∧ ∃ c ∈ s.uploads, ¬ c.Took ∧ ¬ c.Lost
  | .error _, s => s.Quiet

end Depot

/-- The request for an upload that creates an object is read as it was meant. -/
theorem Upload.read?_request (url : Url) (key : String) (body : Octets) (token : String) :
    Upload.read? (RemoteBucket.request .post (url.withPairs ([("uploadType", "media"), ("name", key)] ++
      RemoteBucket.preconditionPairs .absent)) (some body) token) = some ⟨key, body, .absent⟩ := by
  simp [Upload.read?, RemoteBucket.request, Url.value?_withoutUser, Url.value?_withPairs, RemoteBucket.preconditionPairs,
    Precondition.ofGeneration]

namespace RemoteBucket

open Program WireProgram Depot

variable {others : Store → Store → Prop} {upload : Upload} {s s' : Depot} {b : RemoteBucket} {key : String} {body : Octets}

theorem uploads_of_sending_get {url : Url} {r : Except StoreFault HttpResponse}
    (h : Sending (asked others upload) ObjectService.scope (request .get url none) s r s') : s'.uploads = s.uploads := by
  have hsent : ∀ {token reply mid s'}, (asked others upload).answers (.send (request .get url none token)) mid reply s' →
      s'.uploads = mid.uploads := fun h => by
    obtain ⟨found, -, h⟩ := h
    exact h rfl ▸ rfl
  cases h with
  | unsent htoken => exact htoken.2
  | lost htoken hsend => exact (hsent hsend).trans htoken.2
  | response htoken hsend => exact (hsent hsend).trans htoken.2

theorem keeps_headOnce : Keeps (asked others upload) (fun _ s' => s'.uploads = s.uploads) (b.headOnce key).run s := by
  refine keeps_liftM_bind (fun _ => rfl) fun url => ?_
  have hsend : Keeps (asked others upload) _ (send .get url none).run s :=
    (sends_send ..).keeps trivial fun _ _ => Or.inr ⟨rfl, rfl⟩
  refine keeps_bind_run hsend (fun _ _ => uploads_of_sending_get) fun response s' hsent => ?_
  have hsame := uploads_of_sending_get hsent
  split
  · exact hsame
  · split
    · unfold decode
      split <;> exact hsame
    · exact hsame

theorem keeps_currentVersion : Keeps (asked others upload) (fun _ s' => s'.uploads = s.uploads)
    (b.currentVersion key).run s :=
  keeps_bind_run keeps_headOnce (fun _ _ h => h) fun _ _ h => h

theorem learns_of_sending {request : String → HttpRequest} (hrequest : ∀ token, Upload.read? (request token) = some upload)
    (hs : s.Quiet) {r : Except StoreFault HttpResponse}
    (h : Sending (asked others upload) ObjectService.scope request s r s') : s'.Learns r.toOption := by
  have hsent : ∀ {token reply mid s'}, mid.uploads = s.uploads →
      (asked others upload).answers (.send (request token)) mid reply s' → s'.Learns reply := by
    intro token reply mid s' hsame h
    obtain ⟨found, -, h⟩ := h
    rw [hrequest, hsame] at h
    exact Handles.learns h hs
  cases h with
  | unsent htoken => exact .nothing (fun _ h => by cases h) (hs.of_uploads htoken.2)
  | lost htoken hsend => exact hsent htoken.2 hsend
  | response htoken hsend => exact hsent htoken.2 hsend

/-- **One attempt to create an object.** -/
theorem keeps_putOnce (hs : s.Quiet) :
    Keeps (asked others ⟨key, body, .absent⟩) Attempted (b.putOnce key body .absent).run s := by
  refine keeps_liftM_bind (fun _ => hs) fun url => ?_
  have hrequest := Upload.read?_request url key body
  have hsend : Keeps (asked others ⟨key, body, .absent⟩) _ (send .post (url.withPairs ([("uploadType", "media"),
      ("name", key)] ++ preconditionPairs .absent)) (some body)).run s :=
    (sends_send ..).keeps trivial fun token _ => Or.inl (hrequest token)
  refine keeps_bind_run hsend (fun fault s' hsent => ?_) fun response s' hsent => ?_
  · cases learns_of_sending hrequest hs hsent with
    | nothing _ hquiet => exact hquiet
  · cases learns_of_sending hrequest hs hsent with
    | written hsuccess hread htook =>
      have hstatus : response.status ≠ 412 := by
        simp only [HttpResponse.isSuccess, Bool.and_eq_true, decide_eq_true_eq] at hsuccess
        omega
      simp only [if_neg hstatus, if_pos hsuccess, decode, hread]
      exact htook
    | refused hstatus hquiet hleft =>
      simp only [if_pos hstatus]
      exact keeps_bind_run keeps_currentVersion (fun _ _ hsame => hquiet.of_uploads hsame)
        fun _ _ hsame => ⟨hquiet.of_uploads hsame, hsame ▸ hleft⟩
    | nothing hreply hquiet =>
      obtain ⟨hsuccess, hstatus⟩ := hreply response rfl
      simp only [if_neg hstatus, hsuccess]
      exact hquiet

/-- **Creating an object**, in as many attempts as the policy allows. -/
theorem keeps_put (hs : s.Quiet) :
    Keeps (asked others ⟨key, body, .absent⟩) Attempted (b.put key body .absent).run s := by
  -- an attempt that failed knows of no upload that took, and that is all the next one needs
  refine RetryPolicy.keeps_runFrom (fun _ s (hs : s.Quiet) => keeps_putOnce hs) ?_ _ _ hs
  intro fault span s _ hquiet
  exact ⟨trivial, fun _ s' hslept => hquiet.of_uploads hslept.2⟩

theorem finishes_decode {α : Type} {what : String} {read : Json → Option α} {response : HttpResponse} :
    Finishes (decode what read response).run := by
  unfold decode
  split <;> trivial

theorem finishes_currentVersion : Finishes (b.currentVersion key).run := by
  have hhead : Finishes (b.headOnce key).run := by
    refine finishes_liftM_bind fun url => finishes_bind_run (sends_send ..).finishes fun response => ?_
    split
    · trivial
    · split
      · exact finishes_bind_run finishes_decode fun _ => trivial
      · trivial
  exact finishes_bind_run hhead fun _ => trivial

theorem finishes_putOnce {precondition : Precondition} : Finishes (b.putOnce key body precondition).run := by
  refine finishes_liftM_bind fun url => finishes_bind_run (sends_send ..).finishes fun response => ?_
  split
  · exact finishes_bind_run finishes_currentVersion fun _ => trivial
  · split
    · exact finishes_bind_run finishes_decode fun _ => trivial
    · trivial

theorem finishes_put {precondition : Precondition} : Finishes (b.put key body precondition).run := by
  refine RetryPolicy.finishes_runFrom (fun _ => finishes_putOnce) ?_ _ _
  intro span reply
  trivial

/-- **The calls of an engine that works on a bucket over the wire.**  What is no call on its objects is answered by
somebody else. -/
def reply (b : RemoteBucket) (other : (c : CloudCall) → WireProgram c.Reply) : (c : CloudCall) → WireProgram c.Reply
  | .get key => (b.get key).run
  | .head key => (b.head key).run
  | .put key body precondition => (b.put key body precondition).run
  | .delete key precondition => (b.delete key precondition).run
  | .list start delimiter => (b.list start delimiter).run
  | c => other c

end RemoteBucket

/-! ## Losing the answer -/

namespace Flaky

/-- What the service says of an object. -/
def resource (key : String) (object : StoredObject) : Octets :=
  Utf8.encode (Json.render (.ofFields [("name", .string key), ("generation", .string (decimal object.generation)),
    ("timeCreated", .string "2024-01-02T03:04:05Z")]))

/-- The answer to an upload: one that took is to be tried again later. -/
def reply : PutResult → Option HttpResponse
  | .written _ => some ⟨503, []⟩
  | .conflict _ => some ⟨412, []⟩

/-- What comes of a request for an upload, or of one for what is known of an object. -/
def send (key : String) (s : Depot) : Option Upload → Option HttpResponse × Depot
  | some upload =>
    let ended := s.store.put upload.key upload.body upload.precondition (.ofNanos 0)
    (reply ended.1, ⟨ended.2, s.uploads ++ [⟨upload, s.store, reply ended.1⟩]⟩)
  | none => (some (((s.store.get? key).map fun object => ⟨200, resource key object⟩).getD ⟨404, []⟩), s)

/-- **A service that carries out every upload**, and never confirms one that took. -/
def answer (key : String) : (c : WireCall) → Depot → c.Reply × Depot
  | .signIn, s => (.ok (), s)
  | .token scope, s => (.ok scope, s)
  | .send request, s => send key s (Upload.read? request)
  | .sleep _, s => ((), s)

def marker : ObjectInfo := ⟨"d/t/_SUCCESS", 0, "1", .ofUnix 1704164645 0, .ofUnix 1704164645 0⟩

def bucket : RemoteBucket := ⟨{ patience := 1 }, "b"⟩

theorem handles_send (key : String) (s : Depot) (upload : Upload) :
    Depot.Handles upload s.store s.uploads (send key s (some upload)).1 (send key s (some upload)).2 := by
  refine .carried (.ofNanos 0) ?_
  show Carried.Lost ⟨upload, s.store, reply (s.store.put _ _ _ _).1⟩ ∨ ∃ response,
    reply (s.store.put _ _ _ _).1 = some response ∧
      Carried.Tells ⟨upload, s.store, reply (s.store.put _ _ _ _).1⟩ response
  by_cases htook : Store.refuses? upload.precondition (s.store.get? upload.key) = none
  · rw [Store.put, htook]
    exact .inl fun response hresponse => by cases hresponse; rfl
  · obtain ⟨current, hcurrent⟩ := Option.ne_none_iff_exists'.1 htook
    rw [Store.put, hcurrent]
    exact .inr ⟨_, rfl, .refused htook rfl⟩

theorem serves_answer (key : String) : ∀ c s, Depot.Serves Eq c s (answer key c s).1 (answer key c s).2
  | .signIn, _ | .token _, _ | .sleep _, _ => ⟨rfl, rfl⟩
  | .send request, s => by
    refine ⟨s.store, rfl, ?_⟩
    have hsend : answer key (.send request) s = send key s (Upload.read? request) := rfl
    rw [hsend]
    cases Upload.read? request with
    | none => exact fun _ => rfl
    | some upload => exact handles_send key s upload

end Flaky

namespace Claim

open Program Depot

theorem through_takeObject (b : RemoteBucket) (other : (c : CloudCall) → WireProgram c.Reply) (marker : ObjectInfo) :
    (takeObject marker).run.through (b.reply other) =
      (b.put (key marker.key marker.created) [] .absent).run.bind fun r =>
        .done (ending (key marker.key marker.created) r) := by
  rw [run_takeObject]
  rfl

/-- **What is true of a claim that was made over the wire**, by what its uploads came to.  If nobody else creates the claim,
it is refused only because an upload of its own took whose answer was lost; if nobody else removes it, it never succeeds
once such an answer was lost. -/
structure Traced (claim : String) (others : Store → Store → Prop) (start : Store) (uploads : List Carried)
    (result : Except Failure String) : Prop where
  own : ∀ c ∈ uploads, c.upload = ⟨claim, [], .absent⟩
  named : ∀ k, result = .ok k ∨ result = .error (.duplicate k) → k = claim
  succeeds : (∃ k, result = .ok k) ↔ ∃ c ∈ uploads, c.Took ∧ ¬ c.Lost
  refused : ∀ k, result = .error (.duplicate k) → ∃ c ∈ uploads, ¬ c.Took ∧ ¬ c.Lost
  alone : (∀ t t', others t t' → t.get? claim = none → t'.get? claim = none) → start.get? claim = none →
    ∀ k, result = .error (.duplicate k) → ∃ c ∈ uploads, c.Took ∧ c.Lost
  missed : (∀ t t', others t t' → t'.get? claim = none → t.get? claim = none) →
    (∃ c ∈ uploads, c.Took ∧ c.Lost) → ∀ k, result ≠ .ok k

/-- What lasts while a claim is made, whatever others do, and more if they leave the claim alone. -/
structure Standing (claim : String) (others : Store → Store → Prop) (start : Store) (s : Depot) : Prop where
  own : ∀ c ∈ s.uploads, c.upload = ⟨claim, [], .absent⟩
  made : (∀ t t', others t t' → t.get? claim = none → t'.get? claim = none) → start.get? claim = none → Made claim s
  single : (∀ t t', others t t' → t'.get? claim = none → t.get? claim = none) → Single claim s

variable {claim : String} {others : Store → Store → Prop} {start : Store} {s s' : Depot}

theorem Standing.of_nil (h : s.uploads = []) : Standing claim others s.store s where
  own := by simp [h]
  made _ hnone := ⟨fun hthere => absurd hnone hthere, by simp [h]⟩
  single _ := ⟨by simp [h], by simp [h]⟩

theorem Standing.lasts {c : WireCall} {reply : c.Reply} (hadmits : (asked others ⟨claim, [], .absent⟩).admits c s)
    (h : Serves others c s reply s') (hs : Standing claim others start s) : Standing claim others start s' where
  own := by
    obtain ⟨found, -, rfl | ⟨now, reply, rfl⟩⟩ := h.cases hadmits
    · exact hs.own
    · intro c hc
      rcases List.mem_append.1 hc with hc | hc
      · exact hs.own c hc
      · rw [List.mem_singleton.1 hc]
  made hothers hnone := (hs.made hothers hnone).lasts hothers hadmits h
  single hothers := (hs.single hothers).lasts hothers hadmits h

theorem Standing.traced {r : Except StoreFault PutResult} (hs : Standing claim others start s) (hr : Attempted r s) :
    Traced claim others start s.uploads (ending claim r) := by
  have hunknown : s.Quiet → ¬ ∃ c ∈ s.uploads, c.Took ∧ ¬ c.Lost := fun hquiet ⟨c, hc, htook, hlost⟩ =>
    hlost (hquiet c hc htook)
  match r, hr with
  | .ok (.written version), ⟨c, hc, htook, htold⟩ =>
    refine ⟨hs.own, by simp [ending], ⟨fun _ => ⟨c, hc, htook, htold⟩, fun _ => ⟨_, rfl⟩⟩, nofun, nofun, ?_⟩
    rintro hothers ⟨c', hc', htook', hlost⟩
    exact absurd ((hs.single hothers).eq_of_took hc' hc htook' htook ▸ hlost) htold
  | .ok (.conflict current), ⟨hquiet, c, hc, hleft, htold⟩ =>
    refine ⟨hs.own, by simp [ending], ⟨nofun, fun h => absurd h (hunknown hquiet)⟩, fun _ _ => ⟨c, hc, hleft, htold⟩,
      ?_, nofun⟩
    intro hothers hnone _ _
    -- what stood in the way is an upload of this claim, which nobody heard of
    obtain ⟨c', hc', htook⟩ := (hs.made hothers hnone).refused c hc hleft
    exact ⟨c', hc', htook, hquiet c' hc' htook⟩
  | .error fault, hquiet =>
    exact ⟨hs.own, by simp [ending], ⟨nofun, fun h => absurd h (hunknown hquiet)⟩, nofun, nofun, nofun⟩

/-- **A claim over the wire succeeds exactly if an upload took and its answer came through.** -/
theorem takeObject_over_wire {σ : Type} {view : σ → Depot} {peer : (c : WireCall) → σ → c.Reply × σ}
    {others : Store → Store → Prop} (hpeer : ∀ c s, Serves others c (view s) (peer c s).1 (view (peer c s).2))
    (b : RemoteBucket) (other : (c : CloudCall) → WireProgram c.Reply) (marker : ObjectInfo) {s : σ}
    (hstart : (view s).uploads = []) :
    ∃ result s', ((takeObject marker).run.through (b.reply other)).run peer s = (some result, s') ∧
      Traced (key marker.key marker.created) others (view s).store (view s').uploads result := by
  generalize hclaim : key marker.key marker.created = claim
  have hquiet : (view s).Quiet := by simp [Quiet, hstart]
  have hlasts : ∀ {c t reply t'}, (asked others ⟨claim, [], .absent⟩).admits c t → Serves others c t reply t' →
      Standing claim others (view s).store t → Standing claim others (view s).store t' := Standing.lasts
  have hput := (b.keeps_put hquiet).carry hlasts (.of_nil hstart)
  have hclaimed : Keeps (asked others ⟨claim, [], .absent⟩)
      (fun result t => Traced claim others (view s).store t.uploads result)
      ((b.put claim [] .absent).run.bind fun r => .done (ending claim r)) (view s) :=
    hput.bind fun _ _ h => h.2.traced h.1
  have hplays : Plays (asked others ⟨claim, [], .absent⟩) view peer := hpeer
  rw [through_takeObject, hclaim]
  exact hclaimed.run hplays (b.finishes_put.bind fun _ => trivial)

theorem takeObject_over_wire_flaky :
    let claim := key Flaky.marker.key Flaky.marker.created
    (∀ c s, Serves Eq c s (Flaky.answer claim c s).1 (Flaky.answer claim c s).2) ∧ (Depot.mk .empty []).uploads = [] ∧
    ∃ result s', ((takeObject Flaky.marker).run.through (Flaky.bucket.reply fun _ => .halt .cutOff)).run (Flaky.answer claim)
      (Depot.mk .empty []) = (some result, s') ∧ Traced claim Eq .empty s'.uploads result :=
  ⟨Flaky.serves_answer _, rfl,
    @takeObject_over_wire Depot id _ Eq (Flaky.serves_answer _) Flaky.bucket _ Flaky.marker (Depot.mk .empty []) rfl⟩

/-- **A claim can be refused by its own first attempt**, with nobody else at the store. -/
theorem duplicate_of_own_upload :
    let claim := key Flaky.marker.key Flaky.marker.created
    let ended := ((takeObject Flaky.marker).run.through (Flaky.bucket.reply fun _ => .halt .cutOff)).run (Flaky.answer claim)
      (Depot.mk .empty [])
    (∀ c s, Serves Eq c s (Flaky.answer claim c s).1 (Flaky.answer claim c s).2) ∧
      ended.1 = some (.error (.duplicate claim)) ∧ ∃ c ∈ ended.2.uploads, c.upload.key = claim ∧ c.Took :=
  ⟨Flaky.serves_answer _, by decide +kernel⟩

end Claim
end Intake
