import Intake.Proofs.Keys
import Intake.Proofs.LockText
import Intake.Proofs.Site
import Mathlib.Data.List.Perm.Subperm
/-!
# Lease — what the lock of a table guarantees

Many invocations share a site.  An account of it adds the jobs that have finished and the names that were put into the
lock while no job was under way.  What the lock says bounds what can be under way (`Account.Sound`): nothing if there is
no lock, its job alone if it names one, and one job that nobody knows if it was set by hand.  Calls keep this true if
they leave the lock alone, or write a text set by hand, or take the place of what was seen of a lock that named a
finished job, and if only names that were put into the lock are submitted (`Account.Permitted`, `sound_of_permitted`).
What was seen of the lock stays worth something while others act, because a version is never used twice (`Later`).
-/
namespace Intake

/-- What many invocations share. -/
structure Account where
  site : Site
  finished : List String
  /-- The names that were put into the lock while no job was under way. -/
  claimed : List String

/-- **What was seen of a lock under this version**: if the lock still has the version, it still says so. -/
def Store.Recalls (jobPrefix tablePrefix : String) (version : Option String) (body : Option LockBody)
    (store : Store) : Prop :=
  version = none ∨ ∃ generation octets, version = some (decimal generation) ∧ generation < store.nextGeneration ∧
    LockBody.ofOctets? jobPrefix octets = body ∧
    ∀ object, store.get? (TableLock.keyOf tablePrefix) = some object → object.generation = generation →
      object.body = octets

namespace Store

variable {jobPrefix tablePrefix : String} {version : Option String} {body : Option LockBody} {s t : Store}

theorem Recalls.since (h : s.Recalls jobPrefix tablePrefix version body)
    (hst : Since (TableLock.keyOf tablePrefix) s t) : t.Recalls jobPrefix tablePrefix version body := by
  obtain hnone | ⟨generation, octets, hv, hlt, hbody, hobj⟩ := h
  · exact .inl hnone
  · refine .inr ⟨generation, octets, hv, Nat.lt_of_lt_of_le hlt hst.next, hbody, fun object ht hg => ?_⟩
    exact hobj object (hst.object object ht (hg ▸ hlt)) hg

/-- Reading the body after the version tells what the lock says under that version, even if it changes in between. -/
theorem recalls_of_read {seen : ObjectInfo} {object : StoredObject}
    (hhead : s.head? (TableLock.keyOf tablePrefix) = some seen) (hst : Since (TableLock.keyOf tablePrefix) s t)
    (hget : t.get? (TableLock.keyOf tablePrefix) = some object) :
    t.Recalls jobPrefix tablePrefix (some seen.version) (LockBody.ofOctets? jobPrefix object.body) := by
  obtain ⟨before, hbefore, rfl⟩ := Option.map_eq_some_iff.1 hhead
  refine .inr ⟨before.generation, object.body, rfl, Nat.lt_of_lt_of_le (generation_lt hbefore) hst.next, rfl, ?_⟩
  intro found hfound _
  exact congrArg _ (Option.some.inj (hfound.symm.trans hget))

/-- **What is overwritten or deleted is what was seen.** -/
theorem Recalls.lockBody_eq (h : s.Recalls jobPrefix tablePrefix version body)
    (hfree : refuses? (.unchanged version) (s.get? (TableLock.keyOf tablePrefix)) = none) :
    s.get? (TableLock.keyOf tablePrefix) = none ∨ s.lockBody jobPrefix tablePrefix = body := by
  obtain ⟨-, hnone⟩ | ⟨v, object, rfl, hobject, hv⟩ := eq_of_refuses?_unchanged hfree
  · exact .inl hnone
  · obtain hnone | ⟨generation, octets, hdec, -, hbody, hobj⟩ := h
    · cases hnone
    · cases hdec
      have hsame := hobj object hobject (eq_of_isVersion_decimal hv)
      exact .inr (by rw [lockBody, hobject, Option.bind_some, hsame, hbody])

end Store

namespace Account

variable (jobPrefix tablePrefix : String)

/-- Every claimed name is one of a finished job. -/
def AllFinished (a : Account) : Prop := ∀ id ∈ a.claimed, id ∈ a.finished

instance (a : Account) : Decidable a.AllFinished := inferInstanceAs (Decidable (∀ id ∈ a.claimed, id ∈ a.finished))

/-- Every claimed name but one is one of a finished job. -/
def AllFinishedBut (a : Account) (id : String) : Prop := ∀ id' ∈ a.claimed, id' ≠ id → id' ∈ a.finished

def inFlight (a : Account) : List Job := a.site.accepted.filter fun job => job.id ∉ a.finished

/-- What can be under way when the lock says this. -/
def Bounded (a : Account) : Option LockBody → Prop
  | none => a.AllFinished
  | some (.job id) => a.AllFinishedBut id
  | some (.manual _) => ∃ id, a.AllFinishedBut id

/-- **What the lock says bounds what is under way.** -/
structure Sound (a : Account) : Prop where
  claimed : ∀ id ∈ a.site.ids, id ∈ a.claimed ∨ id ∈ a.finished
  distinct : (a.inFlight.map (·.id)).Nodup
  bounded : a.Bounded (a.site.store.lockBody jobPrefix tablePrefix)

variable {jobPrefix tablePrefix}

theorem AllFinished.allFinishedBut {a : Account} (h : a.AllFinished) (id : String) : a.AllFinishedBut id :=
  fun id' hid _ => h id' hid

theorem Bounded.exists_allFinishedBut {a : Account} :
    ∀ {body : Option LockBody}, a.Bounded body → ∃ id, a.AllFinishedBut id
  | none, h => ⟨"", AllFinished.allFinishedBut h ""⟩
  | some (.job id), h => ⟨id, h⟩
  | some (.manual _), h => h

/-- **At most one job is under way.** -/
theorem Sound.inFlight_length {a : Account} (h : a.Sound jobPrefix tablePrefix) : a.inFlight.length ≤ 1 := by
  obtain ⟨id, hid⟩ := h.bounded.exists_allFinishedBut
  have hall : ∀ id' ∈ a.inFlight.map (·.id), id' = id := by
    intro id' hid'
    obtain ⟨job, hjob, rfl⟩ := List.mem_map.1 hid'
    obtain ⟨hacc, hfin⟩ := List.mem_filter.1 hjob
    have hfin : job.id ∉ a.finished := by simpa using hfin
    have hcl := (h.claimed job.id (List.mem_map_of_mem hacc)).resolve_right hfin
    exact Decidable.byContradiction fun hne => hfin (hid job.id hcl hne)
  have hsub : a.inFlight.map (·.id) ⊆ [id] := fun id' hid' => List.mem_singleton.2 (hall id' hid')
  have hlen := (List.Nodup.subperm h.distinct hsub).length_le
  simpa using hlen

/-! ## While others act -/

variable (tablePrefix) in
/-- **What others can do meanwhile**: versions are given out in order, and what is under the lock's key is either what
was there or younger; what has finished and what was claimed stays so. -/
structure Later (a b : Account) : Prop where
  store : Store.Since (TableLock.keyOf tablePrefix) a.site.store b.site.store
  finished : ∀ id ∈ a.finished, id ∈ b.finished
  claimed : ∀ id ∈ a.claimed, id ∈ b.claimed

theorem Later.refl (a : Account) : Later tablePrefix a a :=
  ⟨.refl _ _, fun _ h => h, fun _ h => h⟩

theorem Later.trans {a b c : Account} (h : Later tablePrefix a b) (h' : Later tablePrefix b c) :
    Later tablePrefix a c where
  store := h.store.trans h'.store
  finished := fun id hid => h'.finished id (h.finished id hid)
  claimed := fun id hid => h'.claimed id (h.claimed id hid)

variable (tablePrefix) in
/-- Something that others cannot make untrue. -/
def Lasting (fact : Account → Prop) : Prop := ∀ a b, Later tablePrefix a b → fact a → fact b

variable (jobPrefix tablePrefix) in
/-- A handle of this version has seen the lock like this. -/
def Seen (version : Option String) (body : Option LockBody) (a : Account) : Prop :=
  a.site.store.Recalls jobPrefix tablePrefix version body

theorem lasting_seen (version : Option String) (body : Option LockBody) :
    Lasting tablePrefix (Seen jobPrefix tablePrefix version body) :=
  fun _ _ hab h => h.since hab.store

/-- A lock that says this may be taken over. -/
def Vacant (body : Option LockBody) (a : Account) : Prop :=
  match body with
  | none => True
  | some (.job id) => id ∈ a.finished
  | some (.manual _) => False

variable (jobPrefix tablePrefix) in
/-- A handle of this version may take the lock over, if it is as it was seen. -/
def Ready (version : Option String) (a : Account) : Prop :=
  ∃ body, Seen jobPrefix tablePrefix version body a ∧ Vacant body a

theorem lasting_ready (version : Option String) : Lasting tablePrefix (Ready jobPrefix tablePrefix version) := by
  rintro a b hab ⟨body, hseen, hvacant⟩
  refine ⟨body, lasting_seen version body a b hab hseen, ?_⟩
  match body, hvacant with
  | none, _ => trivial
  | some (.job id), h => exact hab.finished id h

/-- **Nothing is under way** when a handle takes over what it has seen. -/
theorem Ready.allFinished {a : Account} {version : Option String} (hs : a.Sound jobPrefix tablePrefix)
    (h : Ready jobPrefix tablePrefix version a)
    (hfree : Store.refuses? (.unchanged version) (a.site.store.get? (TableLock.keyOf tablePrefix)) = none) :
    a.AllFinished := by
  have hl := hs.bounded
  obtain ⟨body, hseen, hvacant⟩ := h
  obtain hnone | hread := hseen.lockBody_eq hfree
  · rw [show a.site.store.lockBody jobPrefix tablePrefix = none by rw [Store.lockBody, hnone]; rfl] at hl
    exact hl
  · rw [hread] at hl
    cases body with
    | none => exact hl
    | some body =>
      cases body with
      | manual => exact hvacant.elim
      | job id =>
        intro id' hid'
        by_cases e : id' = id
        · exact e ▸ hvacant
        · exact hl id' hid' e

/-! ## Calls -/

variable (jobPrefix tablePrefix) in
/-- **The calls that keep the lock's promise.** -/
def Permitted : CloudCall → Account → Prop
  | .put key body precondition, a => key = TableLock.keyOf tablePrefix →
    (∃ text, LockBody.ofOctets? jobPrefix body = some (.manual text)) ∨
      ∃ text version, body = Utf8.encode text ∧ Unpadded text ∧ precondition = .unchanged version ∧
        Ready jobPrefix tablePrefix version a
  | .delete key precondition, a => key = TableLock.keyOf tablePrefix →
    ∃ version, precondition = .unchanged version ∧ Ready jobPrefix tablePrefix version a
  | .submit job, a => job.id ∈ a.claimed
  | _, _ => True

variable (tablePrefix) in
/-- The text that a call has put into the lock. -/
def written? : (c : CloudCall) → c.Reply → Option String
  | .put key body _, .ok (.written _) => if key = TableLock.keyOf tablePrefix then some (Utf8.decodeLossy body) else none
  | _, _ => none

/-- The warehouse says of no job that it has ended before it has. -/
def Truthful : (c : CloudCall) → c.Reply → List String → Prop
  | .job id, .ok (some status), finished => status.isDone = true → id ∈ finished
  | _, _, _ => True

variable (tablePrefix) in
/-- **What may come of a call**; a text that is put into the lock while nothing is under way counts as claimed. -/
structure Answers (c : CloudCall) (a : Account) (reply : c.Reply) (b : Account) : Prop where
  site : Site.Answers c a.site reply b.site
  truthful : Truthful c reply a.finished
  finished : b.finished = a.finished
  claimed : b.claimed = if a.AllFinished then (written? tablePrefix c reply).toList ++ a.claimed else a.claimed

theorem Bounded.congr {a b : Account} (hfinished : b.finished = a.finished) (hclaimed : b.claimed = a.claimed) :
    ∀ {body : Option LockBody}, a.Bounded body → b.Bounded body := by
  intro body h
  match body, h with
  | none, h => exact fun id hid => hfinished ▸ h id (hclaimed ▸ hid)
  | some (.job id), h => exact fun id' hid hne => hfinished ▸ h id' (hclaimed ▸ hid) hne
  | some (.manual _), ⟨id, h⟩ => exact ⟨id, fun id' hid hne => hfinished ▸ h id' (hclaimed ▸ hid) hne⟩

/-- What is under way is as before; only what the lock says and what was claimed has changed. -/
theorem Sound.relock {a b : Account} (h : a.Sound jobPrefix tablePrefix)
    (haccepted : b.site.accepted = a.site.accepted) (hfinished : b.finished = a.finished)
    (hclaimed : ∀ id ∈ a.claimed, id ∈ b.claimed)
    (hbounded : b.Bounded (b.site.store.lockBody jobPrefix tablePrefix)) : b.Sound jobPrefix tablePrefix where
  claimed := by
    rw [Site.ids, haccepted, hfinished]
    exact fun id hid => (h.claimed id hid).imp_left (hclaimed id)
  distinct := by rw [inFlight, haccepted, hfinished]; exact h.distinct
  bounded := hbounded

/-- A change that leaves the lock, the jobs and the names alone. -/
theorem Sound.congr {a b : Account} (h : a.Sound jobPrefix tablePrefix)
    (hlock : b.site.store.lockBody jobPrefix tablePrefix = a.site.store.lockBody jobPrefix tablePrefix)
    (haccepted : b.site.accepted = a.site.accepted) (hfinished : b.finished = a.finished)
    (hclaimed : b.claimed = a.claimed) : b.Sound jobPrefix tablePrefix := by
  refine h.relock haccepted hfinished (hclaimed ▸ fun _ hid => hid) ?_
  rw [hlock]
  exact h.bounded.congr hfinished hclaimed

theorem Answers.later {c : CloudCall} {a b : Account} {reply : c.Reply} (h : Answers tablePrefix c a reply b)
    (hclaimed : ∀ id ∈ a.claimed, id ∈ b.claimed) : Later tablePrefix a b where
  store := h.site.since _
  finished := fun _ hid => h.finished ▸ hid
  claimed := hclaimed

theorem Answers.claimed_eq {c : CloudCall} {a b : Account} {reply : c.Reply} (h : Answers tablePrefix c a reply b)
    (hn : written? tablePrefix c reply = none) : b.claimed = a.claimed := by
  rw [h.claimed, hn]
  split <;> rfl

section Writes

variable {a b : Account} {key : String} {body : Octets} {precondition : Precondition}

/-- A call that changes neither the lock nor the jobs. -/
theorem sound_of_aloof {c : CloudCall} {reply : c.Reply} (hs : a.Sound jobPrefix tablePrefix)
    (h : Answers tablePrefix c a reply b) (hw : written? tablePrefix c reply = none)
    (hlock : b.site.store.get? (TableLock.keyOf tablePrefix) = a.site.store.get? (TableLock.keyOf tablePrefix))
    (haccepted : b.site.accepted = a.site.accepted) : b.Sound jobPrefix tablePrefix ∧ Later tablePrefix a b := by
  have hc := h.claimed_eq hw
  have hbody : b.site.store.lockBody jobPrefix tablePrefix = a.site.store.lockBody jobPrefix tablePrefix := by
    rw [Store.lockBody, hlock, ← Store.lockBody]
  exact ⟨hs.congr hbody haccepted h.finished hc, h.later fun _ hid => hc ▸ hid⟩

/-- **A text that is put into the lock is the one name that can be under way**, if it is one of the permitted. -/
theorem bounded_of_written (hs : a.Sound jobPrefix tablePrefix)
    (hp : Permitted jobPrefix tablePrefix (.put (TableLock.keyOf tablePrefix) body precondition) a)
    (hfree : Store.refuses? precondition (a.site.store.get? (TableLock.keyOf tablePrefix)) = none)
    (hfinished : b.finished = a.finished)
    (hclaimed : b.claimed = if a.AllFinished then Utf8.decodeLossy body :: a.claimed else a.claimed)
    {read : Option LockBody} (hbody : LockBody.ofOctets? jobPrefix body = read) : b.Bounded read := by
  have hone : a.AllFinished → b.AllFinishedBut (Utf8.decodeLossy body) := by
    intro hi id hid hne
    rw [hclaimed, if_pos hi] at hid
    rw [hfinished]
    exact hi id ((List.mem_cons.1 hid).resolve_left hne)
  obtain ⟨text, hmanual⟩ | ⟨text, version, rfl, htext, rfl, hready⟩ := hp rfl
  · rw [← hbody, hmanual]
    by_cases hi : a.AllFinished
    · exact ⟨_, hone hi⟩
    · obtain ⟨id, hid⟩ := hs.bounded.exists_allFinishedBut
      rw [if_neg hi] at hclaimed
      exact ⟨id, by rw [AllFinishedBut, hclaimed, hfinished]; exact hid⟩
  · have hbut := hone (hready.allFinished hs hfree)
    rw [Utf8.decodeLossy_encode] at hbut
    rw [← hbody, LockBody.ofOctets?_encode jobPrefix htext]
    by_cases hstarts : startsWith jobPrefix text = true
    · rw [if_pos hstarts]; exact hbut
    · rw [if_neg hstarts]; exact ⟨text, hbut⟩

theorem sound_of_put {reply : Except StoreFault PutResult} (hs : a.Sound jobPrefix tablePrefix)
    (hp : Permitted jobPrefix tablePrefix (.put key body precondition) a)
    (h : Answers tablePrefix (.put key body precondition) a reply b) :
    b.Sound jobPrefix tablePrefix ∧ Later tablePrefix a b := by
  obtain ⟨hsame, hunwritten⟩ | ⟨rfl, hfree, now, hsite⟩ := h.site.put_cases
  · have hw : written? tablePrefix (.put key body precondition) reply = none := by
      match reply, hunwritten with
      | .error _, _ => rfl
      | .ok (.conflict _), _ => rfl
      | .ok (.written v), hu => exact absurd rfl (hu v)
    exact sound_of_aloof hs h hw (by rw [hsame]) (by rw [hsame])
  · by_cases hkey : key = TableLock.keyOf tablePrefix
    · subst hkey
      have hclaimed := h.claimed
      rw [written?, if_pos rfl, Option.toList_some, List.singleton_append] at hclaimed
      have hkept : ∀ id ∈ a.claimed, id ∈ b.claimed := by
        intro id hid
        rw [hclaimed]
        split
        · exact List.mem_cons_of_mem _ hid
        · exact hid
      refine ⟨hs.relock (by rw [hsite]) h.finished hkept ?_, h.later hkept⟩
      rw [hsite, Store.lockBody_write_self]
      exact bounded_of_written hs hp hfree h.finished hclaimed rfl
    · refine sound_of_aloof hs h (if_neg hkey) ?_ (by rw [hsite])
      rw [hsite]
      exact Store.get?_write_of_ne _ _ _ (Ne.symm hkey)

theorem sound_of_delete {reply : Except StoreFault DeleteResult} (hs : a.Sound jobPrefix tablePrefix)
    (hp : Permitted jobPrefix tablePrefix (.delete key precondition) a)
    (h : Answers tablePrefix (.delete key precondition) a reply b) :
    b.Sound jobPrefix tablePrefix ∧ Later tablePrefix a b := by
  obtain ⟨hsame, -⟩ | ⟨-, hfree, -, hsite⟩ := h.site.delete_cases
  · exact sound_of_aloof hs h rfl (by rw [hsame]) (by rw [hsame])
  · by_cases hkey : key = TableLock.keyOf tablePrefix
    · subst hkey
      obtain ⟨version, rfl, hready⟩ := hp rfl
      have hclaimed : b.claimed = a.claimed := h.claimed_eq rfl
      have hkept : ∀ id ∈ a.claimed, id ∈ b.claimed := fun _ hid => hclaimed ▸ hid
      refine ⟨hs.relock (by rw [hsite]) h.finished hkept ?_, h.later hkept⟩
      rw [hsite, Store.lockBody_remove_self]
      have hnone : a.Bounded none := hready.allFinished hs hfree
      exact hnone.congr h.finished hclaimed
    · refine sound_of_aloof hs h rfl ?_ (by rw [hsite])
      rw [hsite]
      exact Store.get?_remove_of_ne _ (Ne.symm hkey)

theorem sound_of_submit {job : Job} {reply : Except WarehouseFault JobStatus} (hs : a.Sound jobPrefix tablePrefix)
    (hp : job.id ∈ a.claimed) (h : Answers tablePrefix (.submit job) a reply b) :
    b.Sound jobPrefix tablePrefix ∧ Later tablePrefix a b := by
  obtain hsame | ⟨hnew, hsite⟩ := h.site.submit_cases
  · exact sound_of_aloof hs h rfl (by rw [hsame]) (by rw [hsame])
  · have hclaimed : b.claimed = a.claimed := h.claimed_eq rfl
    refine ⟨⟨?_, ?_, ?_⟩, h.later fun _ hid => hclaimed ▸ hid⟩
    · intro id hid
      rw [hclaimed, h.finished]
      rw [hsite, Site.ids, List.map_append, List.mem_append] at hid
      rcases hid with hid | hid
      · exact hs.claimed id hid
      · rw [List.map_singleton, List.mem_singleton] at hid
        exact .inl (hid ▸ hp)
    · have hin : b.inFlight = a.inFlight ++ [job].filter fun job => job.id ∉ a.finished := by
        rw [inFlight, hsite, h.finished, List.filter_append]; rfl
      rw [hin, List.map_append]
      refine List.nodup_append.2 ⟨hs.distinct, ?_, ?_⟩
      · exact (List.pairwise_singleton _ job.id).sublist (List.filter_sublist.map _)
      · intro id hid id' hid' heq
        obtain ⟨job', hjob', rfl⟩ := List.mem_map.1 hid
        obtain ⟨job'', hjob'', rfl⟩ := List.mem_map.1 hid'
        obtain rfl := List.mem_singleton.1 (List.mem_of_mem_filter hjob'')
        exact hnew (heq ▸ List.mem_map_of_mem (List.mem_of_mem_filter hjob'))
    · rw [hsite]
      exact hs.bounded.congr h.finished hclaimed

end Writes

/-- **Permitted calls keep the lock's promise**, whatever comes of them. -/
theorem sound_of_permitted {c : CloudCall} {a b : Account} {reply : c.Reply} (hs : a.Sound jobPrefix tablePrefix)
    (hp : Permitted jobPrefix tablePrefix c a) (h : Answers tablePrefix c a reply b) :
    b.Sound jobPrefix tablePrefix ∧ Later tablePrefix a b := by
  cases c with
  | put => exact sound_of_put hs hp h
  | delete => exact sound_of_delete hs hp h
  | submit => exact sound_of_submit hs hp h
  | freshId =>
    obtain ⟨-, -, hsite⟩ := h.site
    exact sound_of_aloof hs h rfl (by rw [hsite]) (by rw [hsite])
  | _ =>
    have hsame := h.site.eq_of_isPassive trivial
    exact sound_of_aloof hs h rfl (by rw [hsame]) (by rw [hsame])

end Account
end Intake
