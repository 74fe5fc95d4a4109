import Intake.Proofs.Trial
import Intake.Proofs.Wire
import Intake.Remote.Jobs
/-!
# Resubmission — a job that is handed in over a wire that loses answers

A service of jobs takes every job once, and refuses it from then on.  The answer to a job that it has taken may be lost on
the way, or be one of those after which the client tries again; the client then hands in the same job once more, and is
refused.  So of a job that is handed in over the wire: the call succeeds exactly if the job was taken and the answer came
through, and it fails for good once it is refused, even if the job in the way is its own (`JobService.submit_over_wire`).
-/
namespace Intake

/-! ## The other end -/

namespace JobService

/-- A request to the service of jobs as it goes over the wire. -/
def request (method : HttpMethod) (url : Url) (body : Option Json) (token : String) : HttpRequest :=
  ⟨method, url.withoutUser, token, body.map fun value => ("application/json", Utf8.encode value.render)⟩

def HandsIn (service : JobService) (job : Job) (request : HttpRequest) : Prop :=
  request.method = .post ∧ service.jobsUrl.toOption.map Url.withoutUser = some request.url ∧
    request.content = some ("application/json", Utf8.encode (service.resource job).render)

instance decidableHandsIn (service : JobService) (job : Job) (request : HttpRequest) :
    Decidable (service.HandsIn job request) :=
  inferInstanceAs (Decidable (_ ∧ _))

end JobService

/-- A job that was handed in and dealt with: whether it was new to the service, and what was answered. -/
structure Filing where
  new : Bool
  reply : Option HttpResponse
  deriving DecidableEq, Repr

namespace Filing

/-- The client does not learn what came of it: no answer, or one after which it tries again. -/
def Lost (f : Filing) : Prop := ∀ response, f.reply = some response → isTransientStatus response.status = true

/-- A response says what came of a job that was handed in. -/
inductive Tells (id : String) (f : Filing) (response : HttpResponse) : Prop
  | taken {status : JobStatus} (hnew : f.new = true) (hsuccess : response.isSuccess = true)
    (hread : (Json.readAll response.body).toOption.bind JobService.status? = some status) (hid : status.jobId = id)
  | known (hold : f.new = false) (hstatus : response.status = 409)

end Filing

/-- What a service knows of a job: whether it was taken, by whomever it was handed in, and how it dealt with a client. -/
structure Desk where
  knows : Bool
  filings : List Filing := []
  deriving DecidableEq, Repr

namespace Desk

/-- **What a service does with a job that is handed in**: nothing, and the answer does not say that it did; or it takes
the job if it is new, and the answer is lost or says so. -/
inductive Handles (id : String) (knows : Bool) (filings : List Filing) : Option HttpResponse → Desk → Prop
  | missed {reply : Option HttpResponse}
    (hreply : ∀ response, reply = some response → response.isSuccess = false ∧ response.status ≠ 409) :
    Handles id knows filings reply ⟨knows, filings⟩
  | dealt {reply : Option HttpResponse}
    (hreply : Filing.Lost ⟨!knows, reply⟩ ∨ ∃ response, reply = some response ∧ Filing.Tells id ⟨!knows, reply⟩ response) :
    Handles id knows filings reply ⟨true, filings ++ [⟨!knows, reply⟩]⟩

/-- Others may hand in a job of the same id, if there are any; no job is forgotten. -/
def Joins (others knows found : Bool) : Prop := found = knows ∨ others = true ∧ found = true

/-- **The answers of a service that takes every job once.**  Nothing is said of requests for anything else. -/
def Serves (service : JobService) (job : Job) (others : Bool) : (c : WireCall) → Desk → c.Reply → Desk → Prop
  | .send request, s, reply, s' => service.HandsIn job request →
    ∃ found, Joins others s.knows found ∧ Handles job.id found s.filings reply s'
  | .signIn, s, _, s' | .token _, s, _, s' | .sleep _, s, _, s' => Joins others s.knows s'.knows ∧ s'.filings = s.filings

def asked (service : JobService) (job : Job) (others : Bool) : Surroundings Wire Desk where
  admits
    | .send request, _ => service.HandsIn job request
    | _, _ => True
  answers := Serves service job others

variable {service : JobService} {job : Job} {others : Bool} {s s' : Desk}

/-- **One call changes little**: others hand in the job, and perhaps the client does once more. -/
theorem Serves.cases {c : WireCall} {reply : c.Reply} (hadmits : (asked service job others).admits c s)
    (h : Serves service job others c s reply s') :
    ∃ found, Joins others s.knows found ∧
      (s' = ⟨found, s.filings⟩ ∨ ∃ reply, s' = ⟨true, s.filings ++ [⟨!found, reply⟩]⟩) := by
  cases c with
  | signIn => exact ⟨_, h.1, .inl (h.2 ▸ rfl)⟩
  | token scope => exact ⟨_, h.1, .inl (h.2 ▸ rfl)⟩
  | sleep span => exact ⟨_, h.1, .inl (h.2 ▸ rfl)⟩
  | send request =>
    obtain ⟨found, hjoins, hhandles⟩ := h hadmits
    refine ⟨found, hjoins, ?_⟩
    cases hhandles with
    | missed hreply => exact .inl rfl
    | dealt hreply => exact .inr ⟨_, rfl⟩

/-! ## What lasts -/

/-- What lasts while a job is handed in: only the first filing of a job can be new, and if nobody else hands it in and it
was not known before, that one is. -/
structure Standing (others start : Bool) (s : Desk) : Prop where
  taken : s.filings ≠ [] → s.knows = true
  once : s.filings.Pairwise fun _ g => g.new = false
  alone : others = false → start = false →
    (s.knows = true → s.filings ≠ []) ∧ ∀ f ∈ s.filings.head?, f.new = true

variable {start : Bool}

theorem Standing.of_nil (h : s.filings = []) : Standing others s.knows s where
  taken hne := absurd h hne
  once := by simp [h]
  alone _ hstart := ⟨fun hknows => absurd (hstart.symm.trans hknows) Bool.false_ne_true, by simp [h]⟩

theorem Joins.of_knows {knows found : Bool} (h : Joins others knows found) (hknows : knows = true) : found = true := by
  rcases h with h | h
  · exact h.trans hknows
  · exact h.2

theorem Joins.eq_of_alone {knows found : Bool} (h : Joins others knows found) (hothers : others = false) :
    found = knows := by
  rcases h with h | h
  · exact h
  · exact absurd (hothers.symm.trans h.1) Bool.false_ne_true

theorem Standing.lasts {c : WireCall} {reply : c.Reply} (hadmits : (asked service job others).admits c s)
    (h : Serves service job others c s reply s') (hs : Standing others start s) : Standing others start s' := by
  obtain ⟨found, hjoins, rfl | ⟨reply, rfl⟩⟩ := h.cases hadmits
  · refine ⟨fun hne => hjoins.of_knows (hs.taken hne), hs.once, fun hothers hstart => ?_⟩
    obtain ⟨hfiled, hfirst⟩ := hs.alone hothers hstart
    exact ⟨fun hknows => hfiled (hjoins.eq_of_alone hothers ▸ hknows), hfirst⟩
  · refine ⟨fun _ => rfl, List.pairwise_append.2 ⟨hs.once, List.pairwise_singleton _ _, ?_⟩, fun hothers hstart => ?_⟩
    · intro f hf g hg
      rw [List.mem_singleton.1 hg, hjoins.of_knows (hs.taken (List.ne_nil_of_mem hf))]
      rfl
    · obtain ⟨hfiled, hfirst⟩ := hs.alone hothers hstart
      refine ⟨fun _ => by simp, ?_⟩
      cases hfilings : s.filings with
      | nil =>
        have hknows : s.knows = false := Bool.eq_false_iff.2 fun hknows => hfiled hknows hfilings
        rw [hjoins.eq_of_alone hothers, hknows]
        simp
      | cons f filings => simpa [hfilings] using hfirst

theorem Standing.exists_new (hs : Standing others start s) (hothers : others = false) (hstart : start = false)
    {f : Filing} (hf : f ∈ s.filings) : ∃ g ∈ s.filings, g.new = true := by
  obtain ⟨g, filings, hfilings⟩ := List.exists_cons_of_ne_nil (List.ne_nil_of_mem hf)
  exact ⟨g, hfilings ▸ .head _, (hs.alone hothers hstart).2 g (by rw [hfilings]; rfl)⟩

/-! ## Attempts -/

def Quiet (s : Desk) : Prop := ∀ f ∈ s.filings, f.Lost

theorem Quiet.of_filings (hs : s.Quiet) (h : s'.filings = s.filings) : s'.Quiet := by
  intro f hf
  exact hs f (h ▸ hf)

/-- A filing is the last one, and the first that something was learned of. -/
def Closes (s : Desk) (f : Filing) : Prop := ¬ f.Lost ∧ ∃ earlier, s.filings = earlier ++ [f] ∧ ∀ g ∈ earlier, g.Lost

theorem Closes.mem {f : Filing} (h : s.Closes f) : f ∈ s.filings := by
  obtain ⟨-, earlier, hfilings, -⟩ := h
  rw [hfilings]
  exact List.mem_append_right _ (.head _)

theorem Closes.eq_of_not_lost {f g : Filing} (h : s.Closes f) (hg : g ∈ s.filings) (hheard : ¬ g.Lost) : g = f := by
  obtain ⟨-, earlier, hfilings, hearlier⟩ := h
  rw [hfilings] at hg
  rcases List.mem_append.1 hg with hg | hg
  · exact absurd (hearlier g hg) hheard
  · exact List.mem_singleton.1 hg

theorem Closes.eq_of_new {f g : Filing} (h : s.Closes f) (hs : Standing others start s) (hnew : f.new = true)
    (hg : g ∈ s.filings) : g = f := by
  obtain ⟨-, earlier, hfilings, -⟩ := h
  have honce := hs.once
  rw [hfilings] at hg honce
  rcases List.mem_append.1 hg with hg | hg
  · have hold := (List.pairwise_append.1 honce).2.2 g hg f (.head _)
    rw [hnew] at hold
    cases hold
  · exact List.mem_singleton.1 hg

/-- **What the answer to a job that was handed in says**: that it was taken, that it was known, or nothing that can be
relied on. -/
inductive Learns (id : String) (s : Desk) : Option HttpResponse → Prop
  | taken {response : HttpResponse} {status : JobStatus} (hsuccess : response.isSuccess = true)
    (hread : (Json.readAll response.body).toOption.bind JobService.status? = some status) (hid : status.jobId = id)
    (hcloses : s.Closes ⟨true, some response⟩) : Learns id s (some response)
  | known {response : HttpResponse} (hstatus : response.status = 409) (hcloses : s.Closes ⟨false, some response⟩) :
    Learns id s (some response)
  | nothing {reply : Option HttpResponse}
    (hreply : ∀ response, reply = some response → response.isSuccess = false) (hquiet : s.Quiet) : Learns id s reply

theorem Handles.learns {id : String} {knows found : Bool} {filings : List Filing} {reply : Option HttpResponse}
    (h : Handles id found filings reply s') (hs : Quiet ⟨knows, filings⟩) : Learns id s' reply := by
  cases h with
  | missed hreply => exact .nothing (fun response hresponse => (hreply response hresponse).1) hs
  | dealt hreply =>
    by_cases hlost : Filing.Lost ⟨!found, reply⟩
    · -- a status after which the client tries again does not say that the job was taken
      refine .nothing (fun response hresponse => Bool.eq_false_iff.2 fun hsuccess => ?_) fun f hf => ?_
      · have htransient := hlost response hresponse
        rw [not_isTransientStatus_of_isSuccess hsuccess] at htransient
        cases htransient
      · rcases List.mem_append.1 hf with hf | hf
        · exact hs f hf
        · rwa [List.mem_singleton.1 hf]
    · obtain ⟨response, rfl, htells⟩ := hreply.resolve_left hlost
      cases htells with
      | taken hnew hsuccess hread hid =>
        rw [show (!found) = true from hnew] at hlost ⊢
        exact .taken hsuccess hread hid ⟨hlost, filings, rfl, hs⟩
      | known hold hstatus =>
        rw [show (!found) = false from hold] at hlost ⊢
        exact .known hstatus ⟨hlost, filings, rfl, hs⟩

/-- What an attempt to hand in a job leaves: it knows that the job was taken, or that it was known, or nothing. -/
inductive Attempted (id : String) (s : Desk) : Except WarehouseFault JobStatus → Prop
  | taken {status : JobStatus} {response : HttpResponse} (hid : status.jobId = id)
    (hcloses : s.Closes ⟨true, some response⟩) : Attempted id s (.ok status)
  | known {response : HttpResponse} (hstatus : response.status = 409) (hcloses : s.Closes ⟨false, some response⟩) :
    Attempted id s (.error (JobService.refused response "jobs.insert"))
  | unheard {fault : WarehouseFault} (hquiet : s.Quiet) : Attempted id s (.error fault)

end Desk

namespace JobService

open Program WireProgram Desk

def sendFault : ExchangeFault → WarehouseFault
  | .noToken reason => .api (ExchangeFault.noToken reason).message true
  | fault => .api ("BigQuery request failed: " ++ fault.message) fault.isTransient

theorem sends_send (method : HttpMethod) (url : Url) (body : Option Json) :
    Sends scope method url (body.map fun value => ("application/json", Utf8.encode value.render)) sendFault
      (send method url body) := by
  rw [Sends, send, ExceptT.run_bind_lift]
  congr
  funext r
  cases r with
  | ok response => rfl
  | error fault => cases fault <;> rfl

variable {service : JobService} {job : Job} {others : Bool} {s s' : Desk}

theorem handsIn_request {url : Url} (hurl : service.jobsUrl = .ok url) (token : String) :
    service.HandsIn job (request .post url (some (service.resource job)) token) :=
  ⟨rfl, by rw [hurl]; rfl, rfl⟩

theorem learns_of_sending {request : String → HttpRequest} (hrequest : ∀ token, service.HandsIn job (request token))
    (hs : s.Quiet) {r : Except WarehouseFault HttpResponse}
    (h : Sending (asked service job others) scope request s r s') : s'.Learns job.id r.toOption := by
  have hsent : ∀ {token reply mid s'}, mid.filings = s.filings →
      (asked service job others).answers (.send (request token)) mid reply s' → s'.Learns job.id reply := by
    intro token reply mid s' hsame h
    obtain ⟨found, -, h⟩ := h (hrequest token)
    rw [hsame] at h
    exact Handles.learns h hs
  cases h with
  | unsent htoken => exact .nothing (fun _ h => by cases h) (hs.of_filings htoken.2)
  | lost htoken hsend => exact hsent htoken.2 hsend
  | response htoken hsend => exact hsent htoken.2 hsend

theorem submitOnce_eq {url : Url} (hurl : service.jobsUrl = .ok url) (resource : Json) : service.submitOnce resource =
    send .post url (some resource) >>= fun response =>
      if response.isSuccess then decode status? response else throw (refused response "jobs.insert") := by
  rw [submitOnce, hurl]
  rfl

/-- **One attempt to hand in a job.** -/
theorem keeps_submitOnce (hs : s.Quiet) : Keeps (asked service job others) (fun r s => Attempted job.id s r)
    (service.submitOnce (service.resource job)).run s := by
  cases hurl : service.jobsUrl with
  | error fault =>
    rw [submitOnce, hurl]
    exact .unheard hs
  | ok url =>
    have hrequest : ∀ token, service.HandsIn job (request .post url (some (service.resource job)) token) :=
      handsIn_request hurl
    have hsend : Keeps (asked service job others) _ (send .post url (some (service.resource job))).run s :=
      (sends_send ..).keeps trivial fun token _ => hrequest token
    rw [submitOnce_eq hurl]
    refine keeps_bind_run hsend (fun fault s' hsent => ?_) fun response s' hsent => ?_
    · cases learns_of_sending hrequest hs hsent with
      | nothing _ hquiet => exact .unheard hquiet
    · cases learns_of_sending hrequest hs hsent with
      | taken hsuccess hread hid hcloses =>
        simp only [if_pos hsuccess, decode, hread]
        exact .taken hid hcloses
      | known hstatus hcloses =>
        have hrefused : response.isSuccess = false := by simp [HttpResponse.isSuccess, hstatus]
        simp only [hrefused]
        exact .known hstatus hcloses
      | nothing hreply hquiet =>
        simp only [hreply response rfl]
        exact .unheard hquiet

theorem isTransient_refused {response : HttpResponse} {call : String} (hstatus : response.status = 409) :
    (refused response call).isTransient = false := by
  rw [refused, WarehouseFault.isTransient, hstatus]
  rfl

/-- **Handing in a job**, in as many attempts as the policy allows. -/
theorem keeps_submit (hs : s.Quiet) :
    Keeps (asked service job others) (fun r s => Attempted job.id s r) (service.submit job).run s := by
  refine RetryPolicy.keeps_runFrom (fun _ s (hs : s.Quiet) => keeps_submitOnce hs) ?_ _ _ hs
  intro fault span s htransient hattempted
  -- a refusal is final, so a call that is made again has learned nothing
  have hquiet : s.Quiet := by
    cases hattempted with
    | unheard hquiet => exact hquiet
    | known hstatus _ =>
      rw [isTransient_refused hstatus] at htransient
      cases htransient
  exact ⟨trivial, fun _ s' hslept => hquiet.of_filings hslept.2⟩

theorem finishes_submit : Finishes (service.submit job).run := by
  have honce : Finishes (service.submitOnce (service.resource job)).run := by
    refine finishes_liftM_bind fun url => finishes_bind_run (sends_send ..).finishes fun response => ?_
    split
    · unfold decode
      split <;> trivial
    · trivial
  refine RetryPolicy.finishes_runFrom (fun _ => honce) ?_ _ _
  intro span reply
  trivial

/-! ## What was filed -/

/-- **What is true of a job that was handed in over the wire**, by what became of its filings.  The call succeeds exactly if
the job was taken and the answer came through.  Once the job was taken and the answer lost the call never succeeds; once it
is told that the job is known it fails for good.  If nobody else hands in the job, that happens only because it was taken
from this call before. -/
structure Filed (job : Job) (others start : Bool) (filings : List Filing) (result : Except WarehouseFault JobStatus) :
    Prop where
  named : ∀ status, result = .ok status → status.jobId = job.id
  succeeds : (∃ status, result = .ok status) ↔ ∃ f ∈ filings, f.new = true ∧ ¬ f.Lost
  missed : (∃ f ∈ filings, f.new = true ∧ f.Lost) → ∀ status, result ≠ .ok status
  refused : ∀ f ∈ filings, f.new = false → ¬ f.Lost → ∃ response, f.reply = some response ∧ response.status = 409 ∧
    result = .error (refused response "jobs.insert") ∧ (JobService.refused response "jobs.insert").isTransient = false
  alone : others = false → start = false → (∃ f ∈ filings, f.new = false) → ∃ f ∈ filings, f.new = true ∧ f.Lost

variable {start : Bool} {r : Except WarehouseFault JobStatus}

theorem filed_of_taken {status : JobStatus} {f : Filing} (hs : Standing others start s) (hid : status.jobId = job.id)
    (hnew : f.new = true) (hcloses : s.Closes f) : Filed job others start s.filings (.ok status) where
  named _ h := by
    cases h
    exact hid
  succeeds := ⟨fun _ => ⟨f, hcloses.mem, hnew, hcloses.1⟩, fun _ => ⟨status, rfl⟩⟩
  missed := by
    rintro ⟨g, hg, -, hlost⟩
    exact absurd (hcloses.eq_of_new hs hnew hg ▸ hlost) hcloses.1
  refused g hg hold := by
    rw [hcloses.eq_of_new hs hnew hg, hnew] at hold
    cases hold
  alone := by
    rintro - - ⟨g, hg, hold⟩
    rw [hcloses.eq_of_new hs hnew hg, hnew] at hold
    cases hold

theorem filed_of_fault {fault : WarehouseFault} (hs : Standing others start s)
    (hlost : ∀ f ∈ s.filings, f.new = true → f.Lost)
    (hrefused : ∀ f ∈ s.filings, ¬ f.Lost → ∃ response, f.reply = some response ∧ response.status = 409 ∧
      fault = refused response "jobs.insert") : Filed job others start s.filings (.error fault) where
  named _ h := by cases h
  succeeds := by
    constructor
    · rintro ⟨status, h⟩
      cases h
    · rintro ⟨f, hf, hnew, hheard⟩
      exact absurd (hlost f hf hnew) hheard
  missed _ _ h := by cases h
  refused f hf _ hheard := by
    obtain ⟨response, hreply, hstatus, rfl⟩ := hrefused f hf hheard
    exact ⟨response, hreply, hstatus, rfl, isTransient_refused hstatus⟩
  alone := by
    rintro hothers hstart ⟨f, hf, -⟩
    obtain ⟨first, hfirst, hnew⟩ := hs.exists_new hothers hstart hf
    exact ⟨first, hfirst, hnew, hlost first hfirst hnew⟩

theorem filed_of_attempted (hs : Standing others start s) (hr : Attempted job.id s r) :
    Filed job others start s.filings r := by
  cases hr with
  | taken hid hcloses => exact filed_of_taken hs hid rfl hcloses
  | known hstatus hcloses =>
    refine filed_of_fault hs (fun f hf hnew => ?_) fun f hf hheard => ?_
    · by_contra hheard
      rw [hcloses.eq_of_not_lost hf hheard] at hnew
      cases hnew
    · rw [hcloses.eq_of_not_lost hf hheard]
      exact ⟨_, rfl, hstatus, rfl⟩
  | unheard hquiet =>
    exact filed_of_fault hs (fun f hf _ => hquiet f hf) fun f hf hheard => absurd (hquiet f hf) hheard

end JobService

/-! ## Losing the answer -/

namespace Late

def reply (s : Desk) : HttpResponse := if s.knows then ⟨409, Utf8.encode "Already Exists"⟩ else ⟨503, []⟩

def file (s : Desk) : Desk := ⟨true, s.filings ++ [⟨!s.knows, some (reply s)⟩]⟩

/-- **A service that takes every job once**, and never confirms one that it has taken. -/
def answer (service : JobService) (job : Job) : (c : WireCall) → Desk → c.Reply × Desk
  | .signIn, s => (.ok (), s)
  | .token scope, s => (.ok scope, s)
  | .send request, s => if service.HandsIn job request then (some (reply s), file s) else (some ⟨404, []⟩, s)
  | .sleep _, s => ((), s)

theorem handles_file (id : String) (s : Desk) : Desk.Handles id s.knows s.filings (some (reply s)) (file s) := by
  obtain ⟨knows, filings⟩ := s
  cases knows with
  | false => exact .dealt (.inl fun response h => by cases h; rfl)
  | true => exact .dealt (.inr ⟨_, rfl, .known rfl rfl⟩)

theorem answer_send {service : JobService} {job : Job} {request : HttpRequest} (h : service.HandsIn job request)
    (s : Desk) : answer service job (.send request) s = (some (reply s), file s) :=
  if_pos h

theorem serves_answer (service : JobService) (job : Job) (c : WireCall) (s : Desk) :
    Desk.Serves service job false c s (answer service job c s).1 (answer service job c s).2 := by
  cases c with
  | signIn => exact ⟨.inl rfl, rfl⟩
  | token scope => exact ⟨.inl rfl, rfl⟩
  | sleep span => exact ⟨.inl rfl, rfl⟩
  | send request =>
    intro hhands
    rw [answer_send hhands]
    exact ⟨s.knows, .inl rfl, handles_file job.id s⟩

def service : JobService := { project := "p", patience := 1 }

def site : Url :=
  ⟨"https", some "bigquery.googleapis.com", .segments ["bigquery", "v2", "projects", "p", "jobs"], none, none⟩

theorem jobsUrl_service : service.jobsUrl = .ok site := by decide +kernel

section Run

open Program

theorem run_submitOnce (job : Job) (s : Desk) :
    (service.submitOnce (service.resource job)).run.run (answer service job) s =
      (some (.error (JobService.refused (reply s) "jobs.insert")), file s) := by
  have hsent : (JobService.send .post site (some (service.resource job))).run.run (answer service job) s =
      (some (.ok (reply s)), file s) :=
    (JobService.sends_send ..).run_response rfl (.inr rfl) (answer_send (JobService.handsIn_request jobsUrl_service _) s)
  rw [JobService.submitOnce_eq jobsUrl_service]
  refine (run_bind_ok hsent).trans ?_
  obtain ⟨knows, filings⟩ := s
  cases knows <;> rfl

def refusal : WarehouseFault := .api "BigQuery jobs.insert failed: 409 Conflict - Already Exists" false

theorem refused_reply {s : Desk} (h : s.knows = true) : JobService.refused (reply s) "jobs.insert" = refusal := by
  rw [reply, if_pos h]
  decide +kernel

/-- **No job can be handed in**, though every one is taken. -/
theorem run_submit (job : Job) (s : Desk) : (service.submit job).run.run (answer service job) s =
    (some (.error refusal), if s.knows then file s else file (file s)) := by
  have hattempt := run_submitOnce job
  have hsubmit : (service.submit job).run = service.retry.runFrom (fun span => WireProgram.ask (.sleep span))
      WarehouseFault.isTransient (fun _ => (service.submitOnce (service.resource job)).run) (2 + 1) 0 := rfl
  rw [hsubmit]
  cases hknows : s.knows with
  | true =>
    rw [← refused_reply hknows]
    exact RetryPolicy.run_runFrom_error (hattempt s) (.inr (by rw [refused_reply hknows]; rfl))
  | false =>
    have hagain : (JobService.refused (reply s) "jobs.insert").isTransient = true := by
      rw [reply, hknows]
      rfl
    have hfiled : (file s).knows = true := rfl
    rw [← refused_reply hfiled]
    refine Eq.trans (RetryPolicy.run_runFrom_again (hattempt s) hagain rfl) ?_
    exact RetryPolicy.run_runFrom_error (hattempt (file s)) (.inr (by rw [refused_reply hfiled]; rfl))

end Run

def job : Job := ⟨"j1", ⟨none, "d", "t", none⟩, ["gs://lake/d/t/b/z.csv"], [], .load .null⟩

/-- The sandbox, with its jobs handed in to the service. -/
def sandbox : (c : CloudCall) → World × Desk → c.Reply × (World × Desk)
  | .submit job, (w, desk) =>
    let (result, desk) := (service.submit job).run.run (answer service job) desk
    (result.getD (.error (.response "cut off")), (w, desk))
  | c, (w, desk) =>
    let (reply, w) := w.answer c
    (reply, (w, desk))

/-- The same without the wire. -/
def sandboxShort : (c : CloudCall) → World × Desk → c.Reply × (World × Desk)
  | .submit _, (w, desk) => (.error refusal, (w, if desk.knows then file desk else file (file desk)))
  | c, (w, desk) =>
    let (reply, w) := w.answer c
    (reply, (w, desk))

theorem sandbox_eq : sandbox = sandboxShort := by
  funext c s
  obtain ⟨w, desk⟩ := s
  cases c with
  | submit job =>
    simp only [sandbox, sandboxShort, run_submit]
    rfl
  | _ => rfl

/-- A batch of the trial table is applied, with a handle on the lock of the table. -/
def applied (answer : (c : CloudCall) → World × Desk → c.Reply × (World × Desk)) :
    Option (Except Failure Applied × Option TableLock) × (World × Desk) :=
  ((Submission.apply Trial.context "d/t/b/_SUCCESS" "gcf-ingest-1" 0).run.run
    (some (TableLock.ofTable "d/t" "gcf-ingest-"))).run answer (Trial.table [], ⟨false, []⟩)

end Late

namespace JobService

open Program Desk

/-- **A job that is handed in over the wire**: the call succeeds exactly if the job was taken and the answer came
through. -/
theorem submit_over_wire {σ : Type} {view : σ → Desk} {peer : (c : WireCall) → σ → c.Reply × σ} {others : Bool}
    (service : JobService) (job : Job)
    (hpeer : ∀ c s, Serves service job others c (view s) (peer c s).1 (view (peer c s).2)) {s : σ}
    (hstart : (view s).filings = []) :
    ∃ result s', (service.submit job).run.run peer s = (some result, s') ∧
      Filed job others (view s).knows (view s').filings result := by
  have hquiet : (view s).Quiet := by simp [Quiet, hstart]
  have hlasts : ∀ {c t reply t'}, (asked service job others).admits c t → Serves service job others c t reply t' →
      Standing others (view s).knows t → Standing others (view s).knows t' := Standing.lasts
  have hsubmit : Keeps (asked service job others) _ (service.submit job).run (view s) :=
    (keeps_submit hquiet).carry hlasts (.of_nil hstart)
  have hplays : Plays (asked service job others) view peer := hpeer
  obtain ⟨result, s', hrun, hattempted, hstanding⟩ := hsubmit.run hplays finishes_submit
  exact ⟨result, s', hrun, filed_of_attempted hstanding hattempted⟩

theorem submit_over_wire_late :
    (∀ c s, Serves Late.service Late.job false c s (Late.answer Late.service Late.job c s).1
      (Late.answer Late.service Late.job c s).2) ∧ (Desk.mk false []).filings = [] ∧
    ∃ result s', (Late.service.submit Late.job).run.run (Late.answer Late.service Late.job) (Desk.mk false []) =
      (some result, s') ∧ Filed Late.job false false s'.filings result :=
  ⟨Late.serves_answer _ _, rfl,
    @submit_over_wire Desk id _ false Late.service Late.job (Late.serves_answer _ _) (Desk.mk false []) rfl⟩

/-- **A table is frozen by its own job**: the service takes the job at the first attempt and refuses it at the second, with
nobody else there and another retry left, and the refusal is left in the lock. -/
theorem frozen_by_own_job :
    (∀ job c s, Serves Late.service job false c s (Late.answer Late.service job c s).1
      (Late.answer Late.service job c s).2) ∧
      (Late.applied Late.sandbox).1.map (·.1.isOk) = some false ∧
      (Late.applied Late.sandbox).2.2.filings.map (·.new) = [true, false] ∧
      (Late.applied Late.sandbox).2.1.bucket.store.lockBody "gcf-ingest-" "d/t" =
        some (.manual "warehouse API error: BigQuery jobs.insert failed: 409 Conflict - Already Exists") := by
  rw [Late.sandbox_eq]
  exact ⟨fun job => Late.serves_answer _ job, by decide +kernel⟩

end JobService
end Intake
