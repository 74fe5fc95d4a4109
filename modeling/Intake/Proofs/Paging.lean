import Intake.Json.Printer
import Intake.Proofs.Listing
import Intake.Proofs.Query
import Intake.Proofs.Wire
/-!
# Paging — a listing that comes in pages, over a wire that fails

A service lists the objects of a store in pages: every object and every folder is on one of them, in any order, and each
page but the last names the next one.  Before it delivers a page it may fail the client in many ways.  A client whose
policy outlasts the failures before each page ends up with the listing of the store itself, and otherwise with a fault and
no listing (`RemoteBucket.list_over_pages`).
-/
namespace Intake

/-! ## The other end -/

def ObjectService.delivered? (response : HttpResponse) : Option ObjectPage :=
  if response.isSuccess then (Json.readAll response.body).toOption.bind page? else none

/-- **A failed attempt to fetch a page**: there is no token, no response, or one that delivers no page. -/
inductive Misfire where
  | noToken (reason : String)
  | lost
  | answered (response : HttpResponse) (h : ObjectService.delivered? response = none)

def Misfire.passes : Misfire → Bool
  | .noToken _ | .lost => true
  | .answered response _ => isTransientStatus response.status

/-- A page, and the failed attempts to fetch it. -/
structure Fetch where
  misfires : List Misfire
  response : HttpResponse
  page : ObjectPage
  delivers : ObjectService.delivered? response = some page

/-- So many retries outlast the failed attempts: all of them pass, and they are no more than the retries. -/
def Fetch.Weathered (retries : Nat) (fetch : Fetch) : Prop :=
  (∀ misfire ∈ fetch.misfires, misfire.passes = true) ∧ fetch.misfires.length ≤ retries

instance Fetch.decidableWeathered (retries : Nat) (fetch : Fetch) : Decidable (fetch.Weathered retries) :=
  inferInstanceAs (Decidable (_ ∧ _))

theorem Fetch.weathered_of_nil {retries : Nat} {fetch : Fetch} (h : fetch.misfires = []) : fetch.Weathered retries := by
  simp [Weathered, h]

theorem Fetch.Weathered.of_cons {retries : Nat} {fetch : Fetch} {misfire : Misfire} {misfires : List Misfire}
    (hfetch : fetch.misfires = misfire :: misfires) (h : fetch.Weathered retries) :
    retries ≠ 0 ∧ misfire.passes = true := by
  rw [Weathered, hfetch] at h
  exact ⟨Nat.ne_zero_of_lt h.2, h.1 misfire (.head _)⟩

theorem Fetch.weathered_cons_iff {retries : Nat} {fetch : Fetch} {misfire : Misfire} {misfires : List Misfire}
    (h : fetch.misfires = misfire :: misfires) (hpasses : misfire.passes = true) :
    fetch.Weathered (retries + 1) ↔ Weathered retries { fetch with misfires := misfires } := by
  simp [Weathered, h, hpasses]

/-- A service in the middle of a listing: the token of the next page, and the pages still to come. -/
structure Pager where
  token : Option String
  fetches : List Fetch

namespace Pager

def Asks (site : Url) (start : String) (delimiter token : Option String) (request : HttpRequest) : Prop :=
  request.method = .get ∧ request.url.authority = site.withoutUser.authority ∧ request.url.path = site.path ∧
    request.url.value? "prefix" = some start ∧ request.url.value? "delimiter" = delimiter ∧
    request.url.value? "pageToken" = token

instance decidableAsks (site : Url) (start : String) (delimiter token : Option String) (request : HttpRequest) :
    Decidable (Asks site start delimiter token request) :=
  inferInstanceAs (Decidable (_ ∧ _))

def grant (scope : String) : Pager → Except String String × Pager
  | ⟨token, ⟨.noToken reason :: misfires, response, page, h⟩ :: fetches⟩ =>
    (.error reason, ⟨token, ⟨misfires, response, page, h⟩ :: fetches⟩)
  | s => (.ok scope, s)

def deliver : Pager → Option HttpResponse × Pager
  | ⟨_, ⟨[], response, page, _⟩ :: fetches⟩ => (some response, ⟨page.next, fetches⟩)
  | ⟨token, ⟨.answered answer _ :: misfires, response, page, h⟩ :: fetches⟩ =>
    (some answer, ⟨token, ⟨misfires, response, page, h⟩ :: fetches⟩)
  | ⟨token, ⟨_ :: misfires, response, page, h⟩ :: fetches⟩ => (none, ⟨token, ⟨misfires, response, page, h⟩ :: fetches⟩)
  | ⟨token, []⟩ => (some ⟨404, []⟩, ⟨token, []⟩)

/-- **The answers of a service that lists in pages.**  A request for anything but the page that comes next is a mistake. -/
def answer (site : Url) (start : String) (delimiter : Option String) : (c : WireCall) → Pager → c.Reply × Pager
  | .signIn, s => (.ok (), s)
  | .token scope, s => s.grant scope
  | .send request, s => if Asks site start delimiter s.token request then s.deliver else (some ⟨400, []⟩, s)
  | .sleep _, s => ((), s)

end Pager

/-- The objects of a bucket have a plain address on the web. -/
structure RemoteBucket.Located (b : RemoteBucket) (url : Url) : Prop where
  eq : b.objectsUrl false = .ok url
  web : url.scheme = "http" ∨ url.scheme = "https"
  plain : url.pairs = []

/-- Each page names the next one, and the last one none. -/
def Chained : List ObjectPage → Prop
  | [] => False
  | [page] => page.next.getD "" = ""
  | page :: more => page.next.getD "" ≠ "" ∧ Chained more

theorem exists_next {next : Option String} (h : next.getD "" ≠ "") : ∃ token, next = some token ∧ token ≠ "" := by
  cases next with
  | none => exact absurd rfl h
  | some token => exact ⟨token, rfl, h⟩

/-- **The pages of the listing of a store**: every object and every folder is on one of them. -/
structure Splits (store : Store) (start : String) (delimiter : Option String) (pages : List ObjectPage) : Prop where
  chained : Chained pages
  keys_nodup : ((pages.flatMap (·.objects)).map (·.key)).Nodup
  mem_keys : ∀ key, key ∈ (pages.flatMap (·.objects)).map (·.key) ↔ key ∈ store.keys ∧ Store.Listed start delimiter key
  folders_nodup : (pages.flatMap (·.folders)).Nodup
  mem_folders : ∀ folder, folder ∈ pages.flatMap (·.folders) ↔ ∃ key ∈ store.keys, Store.RolledUp start delimiter key folder

theorem Splits.of_perm {store : Store} {start : String} {delimiter : Option String} {pages : List ObjectPage}
    (hchained : Chained pages)
    (hkeys : ((pages.flatMap (·.objects)).map (·.key)).Perm ((store.list start delimiter).objects.map (·.key)))
    (hfolders : (pages.flatMap (·.folders)).Perm (store.list start delimiter).folders) :
    Splits store start delimiter pages where
  chained := hchained
  keys_nodup := hkeys.nodup_iff.2 (Store.nodup_of_increasing (store.list_keys_pairwise ..))
  mem_keys _ := hkeys.mem_iff.trans Store.mem_list_keys
  folders_nodup := hfolders.nodup_iff.2 (Store.nodup_of_increasing (store.list_folders_pairwise ..))
  mem_folders _ := hfolders.mem_iff.trans Store.mem_list_folders

/-! ## Three pages, one of them empty -/

namespace ThreePages

def store : Store :=
  ["d/b", "d/a", "d/sub/x", "d/sub/y", "e"].foldl (fun store key => store.write key [] (.ofNanos 0)) .empty

def info (key : String) : ObjectInfo := ⟨key, 0, "1", .ofUnix 1704164645 0, .ofUnix 1704164645 0⟩

def item (key : String) : Json :=
  .ofFields [("name", .string key), ("generation", .string "1"), ("timeCreated", .string "2024-01-02T03:04:05Z")]

def response (keys folders : List String) (next : String) : HttpResponse :=
  ⟨200, Utf8.encode (Json.render (.ofFields [("items", .array (keys.map item)),
    ("prefixes", .array (folders.map .string)), ("nextPageToken", .string next)]))⟩

/-- The first page comes at the third attempt, the last one at the second. -/
def fetches : List Fetch :=
  [⟨[.answered ⟨503, []⟩ (by decide +kernel), .noToken "busy"], response ["d/b"] [] "t1", ⟨[info "d/b"], [], "t1"⟩,
      by decide +kernel⟩,
    ⟨[], response [] [] "t2", ⟨[], [], "t2"⟩, by decide +kernel⟩,
    ⟨[.lost], response ["d/a"] ["d/sub/"] "", ⟨[info "d/a"], ["d/sub/"], ""⟩, by decide +kernel⟩]

def bucket (maxRetries : Nat) : RemoteBucket := ⟨{ retry := { maxRetries := maxRetries }, patience := 3 }, "b"⟩

def site : Url := ⟨"https", some "storage.googleapis.com", .segments ["storage", "v1", "b", "b", "o"], none, none⟩

theorem located_bucket (maxRetries : Nat) : (bucket maxRetries).Located site := by
  have heq : (bucket 0).objectsUrl false = .ok site := by decide +kernel
  exact ⟨heq, .inr rfl, rfl⟩

theorem splits : Splits store "d/" (some "/") (fetches.map (·.page)) :=
  .of_perm ⟨by decide, by decide, rfl⟩ (by decide +kernel) (by decide +kernel)

end ThreePages

/-! ## One attempt -/

theorem Url.exists_withPairs_eq (url : Url) (pairs : List (String × String)) :
    ∃ query, url.withPairs pairs = { url with query := query } := by
  induction pairs generalizing url with
  | nil => exact ⟨url.query, rfl⟩
  | cons pair pairs ih =>
    obtain ⟨query, h⟩ := ih (url.withPair pair.1 pair.2)
    refine ⟨query, h.trans ?_⟩
    unfold withPair
    split <;> rfl

namespace RemoteBucket

open Program WireProgram

variable {b : RemoteBucket} {url : Url} {start : String} {delimiter token : Option String} {fetch : Fetch}
  {fetches : List Fetch} {misfire : Misfire} {misfires : List Misfire} {response : HttpResponse} {page : ObjectPage}

def pagePairs (start : String) (delimiter token : Option String) : List (String × String) :=
  [("prefix", start)] ++ (delimiter.map (("delimiter", ·))).toList ++ (token.map (("pageToken", ·))).toList

theorem asks_request (hquery : url.pairs = []) (start : String) (delimiter token : Option String) (credential : String) :
    Pager.Asks url start delimiter token
      (request .get (url.withPairs (pagePairs start delimiter token)) none credential) := by
  obtain ⟨query, hsite⟩ := url.exists_withPairs_eq (pagePairs start delimiter token)
  refine ⟨rfl, ?_, ?_, ?_⟩
  · exact congrArg (fun url => url.withoutUser.authority) hsite
  · exact congrArg (·.path) hsite
  · simp only [request, Url.value?_withoutUser, Url.value?_withPairs, hquery, pagePairs]
    cases delimiter <;> cases token <;> simp

theorem pageOnce_eq (hurl : b.objectsUrl false = .ok url) : b.pageOnce start delimiter token =
    send .get (url.withPairs (pagePairs start delimiter token)) none >>= fun response =>
      if response.isSuccess then decode "list response" ObjectService.page? response
      else throw (refused response "list") := by
  rw [pageOnce, hurl]
  rfl

theorem scheme_withPairs (url : Url) (pairs : List (String × String)) : (url.withPairs pairs).scheme = url.scheme := by
  obtain ⟨query, h⟩ := url.exists_withPairs_eq pairs
  rw [h]

theorem answer_send (hquery : url.pairs = []) (s : Pager) (credential : String) :
    Pager.answer url start delimiter
      (.send (request .get (url.withPairs (pagePairs start delimiter s.token)) none credential)) s = s.deliver :=
  if_pos (asks_request hquery ..)

theorem run_decode_undelivered {σ : Type} {answer : (c : WireCall) → σ → c.Reply × σ} {s : σ}
    (h : ObjectService.delivered? response = none) : ∃ fault : StoreFault,
      fault.isTransient = isTransientStatus response.status ∧
      (if response.isSuccess then decode "list response" ObjectService.page? response
        else throw (refused response "list") : ObjectCall ObjectPage).run.run answer s = (some (.error fault), s) := by
  unfold ObjectService.delivered? at h
  split at h
  · rename_i hsuccess
    rw [if_pos hsuccess, decode, h, not_isTransientStatus_of_isSuccess hsuccess]
    exact ⟨_, rfl, rfl⟩
  · rename_i hsuccess
    rw [if_neg hsuccess]
    exact ⟨_, rfl, rfl⟩

section Attempt

variable (hat : b.Located url)

include hat

theorem run_pageOnce_delivered (hfetch : fetch.misfires = []) :
    (b.pageOnce start delimiter token).run.run (Pager.answer url start delimiter) ⟨token, fetch :: fetches⟩ =
      (some (.ok fetch.page), ⟨fetch.page.next, fetches⟩) := by
  obtain ⟨misfires, response, page, hdelivers⟩ := fetch
  subst hfetch
  have hsent : (send .get (url.withPairs (pagePairs start delimiter token)) none).run.run
      (Pager.answer url start delimiter) ⟨token, ⟨[], response, page, hdelivers⟩ :: fetches⟩ =
      (some (.ok response), ⟨page.next, fetches⟩) :=
    (sends_send ..).run_response rfl (scheme_withPairs url _ ▸ hat.web) (answer_send hat.plain ⟨token, _⟩ _)
  rw [pageOnce_eq hat.eq]
  refine (run_bind_ok hsent).trans ?_
  unfold ObjectService.delivered? at hdelivers
  split at hdelivers
  · rename_i hsuccess
    rw [if_pos hsuccess, decode, hdelivers]
    rfl
  · cases hdelivers

/-- An attempt that misfires ends with a fault, which passes if the misfire does. -/
theorem run_pageOnce_misfired (start : String) (delimiter token : Option String) (fetches : List Fetch)
    (hfetch : fetch.misfires = misfire :: misfires) : ∃ fault, fault.isTransient = misfire.passes ∧
      (b.pageOnce start delimiter token).run.run (Pager.answer url start delimiter) ⟨token, fetch :: fetches⟩ =
        (some (.error fault), ⟨token, { fetch with misfires := misfires } :: fetches⟩) := by
  obtain ⟨all, response, page, hdelivers⟩ := fetch
  subst hfetch
  rw [pageOnce_eq hat.eq]
  cases misfire with
  | noToken reason => exact ⟨_, rfl, run_bind_error ((sends_send ..).run_noToken rfl)⟩
  | lost =>
    exact ⟨_, rfl, run_bind_error ((sends_send ..).run_lost rfl (scheme_withPairs url _ ▸ hat.web)
      (answer_send hat.plain ⟨token, _⟩ _))⟩
  | answered answer hanswer =>
    have hsent : (send .get (url.withPairs (pagePairs start delimiter token)) none).run.run
        (Pager.answer url start delimiter) ⟨token, ⟨.answered answer hanswer :: misfires, response, page, hdelivers⟩ ::
          fetches⟩ = (some (.ok answer), ⟨token, ⟨misfires, response, page, hdelivers⟩ :: fetches⟩) :=
      (sends_send ..).run_response rfl (scheme_withPairs url _ ▸ hat.web) (answer_send hat.plain ⟨token, _⟩ _)
    obtain ⟨fault, hpasses, hfault⟩ := run_decode_undelivered hanswer
    exact ⟨fault, hpasses, (run_bind_ok hsent).trans hfault⟩

/-! ## One page -/

/-- **A call for a page fetches it exactly if its retries outlast what is in the way.** -/
theorem run_page_from {policy : RetryPolicy} : ∀ {misfires : List Misfire} {fetch : Fetch} {left attempt : Nat}
    {out : Option (Except StoreFault ObjectPage) × Pager}, fetch.misfires = misfires →
    (policy.runFrom (fun span => WireProgram.ask (.sleep span)) StoreFault.isTransient
      (fun _ => (b.pageOnce start delimiter token).run) left attempt).run (Pager.answer url start delimiter)
      ⟨token, fetch :: fetches⟩ = out →
    (fetch.Weathered left → out = (some (.ok fetch.page), ⟨fetch.page.next, fetches⟩)) ∧
      (¬ fetch.Weathered left → ∃ fault s, out = (some (.error fault), s))
  | [], fetch, left, attempt, out, hfetch, hout => by
    have hfetched := hout.symm.trans (RetryPolicy.run_runFrom_ok (run_pageOnce_delivered hat hfetch))
    exact ⟨fun _ => hfetched, fun hnot => absurd (Fetch.weathered_of_nil hfetch) hnot⟩
  | misfire :: misfires, fetch, left, attempt, out, hfetch, hout => by
    obtain ⟨fault, hpasses, hfault⟩ := run_pageOnce_misfired hat start delimiter token fetches hfetch
    by_cases hagain : left ≠ 0 ∧ misfire.passes = true
    · -- the attempt has used up one misfire and one retry, and the token is still the same
      obtain ⟨left, rfl⟩ := Nat.exists_eq_succ_of_ne_zero hagain.1
      have hnext := (RetryPolicy.run_runFrom_again hfault (hpasses.trans hagain.2) rfl).symm.trans hout
      rw [Nat.succ_eq_add_one, Fetch.weathered_cons_iff hfetch hagain.2]
      exact run_page_from rfl hnext
    · have hlast : left = 0 ∨ fault.isTransient = false := by
        rw [hpasses]
        exact Decidable.or_iff_not_imp_left.2 fun hleft => Bool.eq_false_iff.2 fun hmisfire => hagain ⟨hleft, hmisfire⟩
      have hended := hout.symm.trans (RetryPolicy.run_runFrom_error hfault hlast)
      exact ⟨fun h => absurd (Fetch.Weathered.of_cons hfetch h) hagain, fun _ => ⟨_, _, hended⟩⟩

theorem run_page_ok (h : fetch.Weathered b.service.retry.maxRetries) :
    (b.retrying (b.pageOnce start delimiter token)).run.run (Pager.answer url start delimiter)
      ⟨token, fetch :: fetches⟩ = (some (.ok fetch.page), ⟨fetch.page.next, fetches⟩) :=
  (run_page_from hat rfl rfl).1 h

theorem run_page_error (h : ¬ fetch.Weathered b.service.retry.maxRetries) : ∃ fault s,
    (b.retrying (b.pageOnce start delimiter token)).run.run (Pager.answer url start delimiter)
      ⟨token, fetch :: fetches⟩ = (some (.error fault), s) :=
  (run_page_from hat rfl rfl).2 h

/-! ## All pages -/

theorem run_pagesFrom_last {patience : Nat} (h : fetch.Weathered b.service.retry.maxRetries)
    (hlast : fetch.page.next.getD "" = "") :
    (b.pagesFrom start delimiter (patience + 1) token).run.run (Pager.answer url start delimiter)
      ⟨token, fetch :: fetches⟩ = (some (.ok [fetch.page]), ⟨fetch.page.next, fetches⟩) := by
  refine (run_bind_ok (run_page_ok hat h)).trans ?_
  cases hnext : fetch.page.next with
  | none => rfl
  | some next =>
    obtain rfl : next = "" := by rwa [hnext] at hlast
    rfl

theorem run_pagesFrom_more {patience : Nat} {next : String} {pages : Except StoreFault (List ObjectPage)} {s : Pager}
    (h : fetch.Weathered b.service.retry.maxRetries) (hnext : fetch.page.next = some next) (hne : next ≠ "")
    (hmore : (b.pagesFrom start delimiter patience (some next)).run.run (Pager.answer url start delimiter)
      ⟨some next, fetches⟩ = (some pages, s)) :
    (b.pagesFrom start delimiter (patience + 1) token).run.run (Pager.answer url start delimiter)
      ⟨token, fetch :: fetches⟩ = (some (pages.map (fetch.page :: ·)), s) := by
  refine (run_bind_ok (run_page_ok hat h)).trans ?_
  rw [hnext]
  split
  · rename_i e
    cases e
  · rename_i e
    exact absurd (Option.some.inj e) hne
  · rename_i e
    cases e
    cases pages with
    | error fault => exact run_bind_error hmore
    | ok pages => exact run_bind_ok hmore

/-- **The pages are fetched one after the other**, all of them or none. -/
theorem run_pagesFrom (start : String) (delimiter : Option String) :
    ∀ (fetches : List Fetch) (patience : Nat) (token : Option String), Chained (fetches.map (·.page)) →
    fetches.length ≤ patience → ∃ result s,
    (b.pagesFrom start delimiter patience token).run.run (Pager.answer url start delimiter) ⟨token, fetches⟩ =
      (some result, s) ∧
    ((∀ fetch ∈ fetches, fetch.Weathered b.service.retry.maxRetries) → result = .ok (fetches.map (·.page))) ∧
    ((∃ fetch ∈ fetches, ¬ fetch.Weathered b.service.retry.maxRetries) → ∃ fault, result = .error fault)
  | fetch :: more, patience + 1, token, hchained, hlength => by
    by_cases hfetch : fetch.Weathered b.service.retry.maxRetries
    · have hbad : (∃ other ∈ fetch :: more, ¬ other.Weathered b.service.retry.maxRetries) ↔
          ∃ other ∈ more, ¬ other.Weathered b.service.retry.maxRetries := by
        rw [List.exists_mem_cons_iff, or_iff_right (not_not_intro hfetch)]
      rw [hbad, List.forall_mem_cons, and_iff_right hfetch]
      cases more with
      | nil =>
        refine ⟨_, _, run_pagesFrom_last hat hfetch hchained, fun _ => rfl, ?_⟩
        rintro ⟨_, hmem, -⟩
        cases hmem
      | cons other more =>
        -- the token that the page names is the one that the service now waits for
        obtain ⟨hnext, hmore⟩ := hchained
        obtain ⟨next, hsome, hne⟩ := exists_next hnext
        obtain ⟨result, s, hrun, hok, herror⟩ :=
          run_pagesFrom start delimiter _ patience (some next) hmore (Nat.le_of_succ_le_succ hlength)
        refine ⟨_, s, run_pagesFrom_more hat hfetch hsome hne hrun, fun hall => ?_, fun hbad => ?_⟩
        · rw [hok hall]
          rfl
        · obtain ⟨fault, rfl⟩ := herror hbad
          exact ⟨fault, rfl⟩
    · obtain ⟨fault, s, hpage⟩ : ∃ fault s,
          (b.retrying (b.pageOnce start delimiter token)).run.run (Pager.answer url start delimiter)
            ⟨token, fetch :: more⟩ = (some (.error fault), s) := run_page_error hat hfetch
      exact ⟨_, s, run_bind_error hpage, fun hall => absurd (hall fetch (.head _)) hfetch, fun _ => ⟨fault, rfl⟩⟩

end Attempt

/-! ## The listing -/

/-- What is put in order is the same whatever order it came in. -/
theorem map_mergeSort_eq {α : Type} {f : α → String} {l : List α} {expected : List String}
    (hexpected : expected.Pairwise (· < ·)) (hl : (l.map f).Nodup) (hmem : ∀ text, text ∈ l.map f ↔ text ∈ expected) :
    (l.mergeSort fun x y => f x ≤ f y).map f = expected := by
  have hsorted : ((l.mergeSort fun x y => f x ≤ f y).map f).Pairwise (· ≤ ·) := by
    refine List.pairwise_map.2 ((List.pairwise_mergeSort ?_ ?_ l).imp fun h => of_decide_eq_true h)
    · intro x y z hxy hyz
      exact decide_eq_true (String.le_trans (of_decide_eq_true hxy) (of_decide_eq_true hyz))
    · intro x y
      rw [Bool.or_eq_true, decide_eq_true_iff, decide_eq_true_iff]
      exact String.le_total ..
  have hperm : ((l.mergeSort fun x y => f x ≤ f y).map f).Perm expected :=
    ((List.mergeSort_perm l _).map f).trans
      ((List.perm_ext_iff_of_nodup hl (Store.nodup_of_increasing hexpected)).2 hmem)
  have hle : expected.Pairwise (· ≤ ·) := hexpected.imp fun h => String.not_lt.1 (String.lt_asymm h)
  exact hperm.eq_of_pairwise (fun _ _ _ _ => String.le_antisymm) hsorted hle

def assemble (pages : List ObjectPage) : Listing where
  objects := (pages.flatMap (·.objects)).mergeSort fun x y => x.key ≤ y.key
  folders := (pages.flatMap (·.folders)).mergeSort (· ≤ ·)

section Assembled

variable {store : Store} {pages : List ObjectPage} (hsplits : Splits store start delimiter pages)

include hsplits

theorem assemble_keys :
    (assemble pages).objects.map (·.key) = (store.list start delimiter).objects.map (·.key) :=
  map_mergeSort_eq (store.list_keys_pairwise start delimiter) hsplits.keys_nodup
    fun key => (hsplits.mem_keys key).trans Store.mem_list_keys.symm

theorem assemble_folders : (assemble pages).folders = (store.list start delimiter).folders := by
  have hfolders := map_mergeSort_eq (f := id) (l := pages.flatMap (·.folders))
    (store.list_folders_pairwise start delimiter)
  rw [List.map_id, List.map_id] at hfolders
  exact hfolders hsplits.folders_nodup fun folder => (hsplits.mem_folders folder).trans Store.mem_list_folders.symm

end Assembled

/-- **A listing that comes in pages is the listing of the store**, if the retries outlast what is in the way of every
page; and if they do not, there is a fault and no listing. -/
theorem list_over_pages {store : Store} (hat : b.Located url)
    (hsplits : Splits store start delimiter (fetches.map (·.page))) (hpatience : fetches.length ≤ b.service.patience) :
    ∃ result s,
      (b.list start delimiter).run.run (Pager.answer url start delimiter) ⟨none, fetches⟩ = (some result, s) ∧
      ((∀ fetch ∈ fetches, fetch.Weathered b.service.retry.maxRetries) → ∃ listing, result = .ok listing ∧
        listing.objects.map (·.key) = (store.list start delimiter).objects.map (·.key) ∧
        listing.folders = (store.list start delimiter).folders ∧
        listing.objects.Perm (fetches.flatMap (·.page.objects))) ∧
      ((∃ fetch ∈ fetches, ¬ fetch.Weathered b.service.retry.maxRetries) → ∃ fault, result = .error fault) := by
  obtain ⟨pages, s, hrun, hok, herror⟩ :=
    run_pagesFrom hat start delimiter fetches _ none hsplits.chained hpatience
  refine ⟨pages.map assemble, s, ?_, fun hall => ?_, fun hbad => ?_⟩
  · cases pages with
    | error fault => exact run_bind_error hrun
    | ok pages => exact run_bind_ok hrun
  · rw [hok hall]
    refine ⟨_, rfl, assemble_keys hsplits, assemble_folders hsplits, ?_⟩
    rw [← List.flatMap_map]
    exact List.mergeSort_perm ..
  · obtain ⟨fault, rfl⟩ := herror hbad
    exact ⟨fault, rfl⟩

theorem list_over_pages_three :
    (∃ listing s, ((ThreePages.bucket 2).list "d/" (some "/")).run.run (Pager.answer ThreePages.site "d/" (some "/"))
        ⟨none, ThreePages.fetches⟩ = (some (.ok listing), s) ∧ listing.objects.map (·.key) = ["d/a", "d/b"] ∧
        listing.folders = ["d/sub/"]) ∧
      ∃ fault s, ((ThreePages.bucket 1).list "d/" (some "/")).run.run (Pager.answer ThreePages.site "d/" (some "/"))
        ⟨none, ThreePages.fetches⟩ = (some (.error fault), s) := by
  have hlisted : (ThreePages.store.list "d/" (some "/")).objects.map (·.key) = ["d/a", "d/b"] := by decide +kernel
  have hfolders : (ThreePages.store.list "d/" (some "/")).folders = ["d/sub/"] := by decide +kernel
  constructor
  · obtain ⟨result, s, hrun, hok, -⟩ := list_over_pages (ThreePages.located_bucket 2) ThreePages.splits
      (Nat.le_refl 3)
    obtain ⟨listing, rfl, hkeys, hprefixes, -⟩ := hok (by decide)
    exact ⟨listing, s, hrun, hkeys.trans hlisted, hprefixes.trans hfolders⟩
  · obtain ⟨result, s, hrun, -, herror⟩ := list_over_pages (ThreePages.located_bucket 1) ThreePages.splits
      (Nat.le_refl 3)
    obtain ⟨fault, rfl⟩ := herror ⟨_, .head _, by decide⟩
    exact ⟨fault, s, hrun⟩

end RemoteBucket
end Intake
