import Intake.Proofs.Blame
import Intake.Proofs.Handles
import Intake.Proofs.Trial
/-!
# Yielding — who has lost the lock leaves it alone

A subscriber that is refused the lock ends, and writes its failure into the lock before it does.  The version it has seen
is never there again, so that this write is refused as well; but a subscriber that has seen no lock finds none again once
the others have given theirs up, and then leaves its failure there (`Pool.yields_of_conflict`).
-/
namespace Intake

/-- The key of the object that the call was to change, if it was refused. -/
def Deed.refused? : Deed → Option String
  | ⟨_, .put key _ _, .ok (.conflict _)⟩ => some key
  | ⟨_, .delete key _, .ok (.conflict _)⟩ => some key
  | _ => none

def Deed.Refused (key : String) (deed : Deed) : Prop := deed.refused? = some key

/-- The call neither writes nor deletes the object under a key. -/
def CloudCall.Skips (key : String) : CloudCall → Prop
  | .put other _ _ => other ≠ key
  | .delete other _ => other ≠ key
  | _ => True

theorem CloudCall.Skips.not_refused {key : String} {c : CloudCall} (h : c.Skips key) (store : Store) (reply : c.Reply) :
    ¬ Deed.Refused key ⟨store, c, reply⟩ := by
  cases c with
  | put => match reply with
    | .ok (.conflict _) => exact fun e => h (Option.some.inj e)
    | .ok (.written _) => exact nofun
    | .error _ => exact nofun
  | delete => match reply with
    | .ok (.conflict _) => exact fun e => h (Option.some.inj e)
    | .ok .deleted => exact nofun
    | .ok .notFound => exact nofun
    | .error _ => exact nofun
  | _ => exact nofun

theorem CloudCall.IsFree.skips {tablePrefix : String} {c : CloudCall} (h : c.IsFree tablePrefix) :
    c.Skips (TableLock.keyOf tablePrefix) := by
  cases c with
  | put => exact h.ne_lock
  | delete => exact h ▸ BackfillMarker.keyOf_ne_lock _ _
  | _ => trivial

theorem CloudCall.IsLoading.skips {key : String} {c : CloudCall} (h : c.IsLoading) : c.Skips key := by
  cases c with
  | put | delete => exact h.elim
  | _ => trivial

/-! ## Versions that are not there again -/

namespace Store

variable {key : String} {store s t : Store} {version : Option String}

/-- The version, if there is one, was given out. -/
def Knows (store : Store) (version : Option String) : Prop :=
  ∀ v, version = some v → ∃ generation, v = decimal generation ∧ generation < store.nextGeneration

/-- The object under a key has another version than this one that was given out. -/
structure Misses (key : String) (version : Option String) (store : Store) : Prop where
  knows : store.Knows version
  other : ∀ v object, version = some v → store.get? key = some object → isVersion object.generation v = false

theorem knows_none (store : Store) : store.Knows none := fun _ h => by cases h

theorem Knows.since (h : s.Knows version) (hst : Since key s t) : t.Knows version := by
  intro v hv
  obtain ⟨generation, hdecimal, hlt⟩ := h v hv
  exact ⟨generation, hdecimal, Nat.lt_of_lt_of_le hlt hst.next⟩

theorem misses_of_refuses? {current : String} (h : store.Knows version)
    (hrefused : refuses? (.unchanged version) (store.get? key) = some current) : store.Misses key version := by
  refine ⟨h, ?_⟩
  rintro v object rfl hobject
  rw [hobject] at hrefused
  cases hversion : isVersion object.generation v with
  | false => rfl
  | true => simp [refuses?, Precondition.unchanged, hversion] at hrefused

/-- **A version that is gone is not there again.** -/
theorem Misses.since (h : s.Misses key version) (hst : Since key s t) : t.Misses key version := by
  refine ⟨h.knows.since hst, ?_⟩
  rintro v object rfl hobject
  obtain ⟨generation, rfl, hlt⟩ := h.knows v rfl
  by_cases hold : object.generation < s.nextGeneration
  · exact h.other _ object rfl (hst.object object hobject hold)
  · refine Bool.eq_false_iff.2 fun hversion => ?_
    have := eq_of_isVersion_decimal hversion
    omega

/-- What takes place then, takes place because there was nothing and is nothing. -/
theorem Misses.eq_none (h : store.Misses key version)
    (hfree : refuses? (.unchanged version) (store.get? key) = none) : version = none ∧ store.get? key = none := by
  obtain hnone | ⟨v, object, rfl, hobject, hversion⟩ := eq_of_refuses?_unchanged hfree
  · exact hnone
  · rw [h.other v object rfl hobject] at hversion
    cases hversion

end Store

theorem Store.put_eq_conflict {store : Store} {key current : String} {body : Octets} {precondition : Precondition}
    {now : Timestamp} (h : (store.put key body precondition now).1 = .conflict current) :
    refuses? precondition (store.get? key) = some current ∧ (store.put key body precondition now).2 = store := by
  unfold put at h ⊢
  cases hrefused : refuses? precondition (store.get? key) with
  | none => simp [hrefused] at h
  | some found =>
    simp only [hrefused, PutResult.conflict.injEq] at h
    exact ⟨by rw [h], rfl⟩

/-! ## Promises of each failure -/

namespace Leased

open Program (bind_assoc)

variable {α β σ : Type} {env : Surroundings Cloud σ} {lock : TableLock} {good : α → Option String → σ → Prop}
  {bad : Failure → Option String → σ → Prop} {version : Option String} {s : σ}

/-- The invocation makes admitted calls only, its handle stays one on the same lock, and it promises something if it
succeeds, and something of each failure. -/
def Ends (env : Surroundings Cloud σ) (lock : TableLock) (good : α → Option String → σ → Prop)
    (bad : Failure → Option String → σ → Prop) (x : Leased α) (version : Option String) (s : σ) : Prop :=
  Program.Keeps env (fun r s => ∃ version', r.2 = some (lock.seen version') ∧ (∀ a, r.1 = .ok a → good a version' s) ∧
    ∀ e, r.1 = .error e → bad e version' s) (x.run.run (some (lock.seen version))) s

theorem ends_pure {a : α} (h : good a version s) : (pure a : Leased α).Ends env lock good bad version s :=
  ⟨version, rfl, fun _ e => by cases e; exact h, nofun⟩

theorem ends_throw {e : Failure} (h : bad e version s) : (throw e : Leased α).Ends env lock good bad version s :=
  ⟨version, rfl, nofun, fun _ he => by cases he; exact h⟩

theorem Ends.bind {mid : α → Option String → σ → Prop} {good : β → Option String → σ → Prop} {x : Leased α}
    {f : α → Leased β} (hx : x.Ends env lock mid bad version s)
    (hf : ∀ a v s, mid a v s → (f a).Ends env lock good bad v s) : (x >>= f).Ends env lock good bad version s := by
  unfold Ends
  rw [run_bind]
  refine Program.Keeps.bind hx fun r s hr => ?_
  obtain ⟨r, held⟩ := r
  obtain ⟨v, rfl, hr, hbad⟩ := hr
  cases r with
  | ok a => exact hf a v s (hr a rfl)
  | error e => exact ⟨v, rfl, nofun, fun _ he => by cases he; exact hbad e rfl⟩

theorem ends_lift {layout : Layout} {x : Invocation α} (hadmits : ∀ c s, env.admits c s)
    (hx : x.FailsForeign .lock layout) (hbad : ∀ e s, e.IsForeign .lock layout → bad e version s)
    (h : x.Keeps env (fun a s => good a version s) s) : (lift x).Ends env lock good bad version s := by
  have hfails : Program.Keeps env (fun r s => (∀ e, r = .error e → e.IsForeign .lock layout) ∧ True) x.run s :=
    Program.keeps_of_wild (fun c s _ _ => hadmits c s) (fun _ _ _ _ _ _ _ => trivial) hx.run trivial
  refine Program.Keeps.bind (Program.Keeps.and h hfails) fun r s hr => ?_
  exact ⟨version, rfl, hr.1, fun e he => hbad e s (hr.2.1 e he)⟩

/-- A failure that is left in the lock promises what is true after that write. -/
theorem ends_recording {x : Leased α} {bad' : Failure → σ → Prop} (hadmits : ∀ c s, env.admits c s)
    (hrecords : ∀ (e : Failure) v s reply s', bad e v s →
      env.answers (.put lock.key (Utf8.encode (lock.errorText e.message)) (.unchanged v)) s reply s' → bad' e s')
    (h : x.Ends env lock good bad version s) :
    (recording x).Ends env lock good (fun e _ s => bad' e s) version s := by
  unfold Ends
  rw [run_recording]
  refine Program.Keeps.bind h fun r s hr => ?_
  obtain ⟨r, held⟩ := r
  obtain ⟨v, rfl, hr, hbad⟩ := hr
  cases r with
  | ok a => exact ⟨v, rfl, fun b e => by cases e; exact hr a rfl, nofun⟩
  | error e =>
    simp only [run_bind, run_recordError, bind_assoc]
    have hwrite : ((lock.seen v).write (lock.errorText e.message)).Keeps env
        (fun r s => ∃ v, r.2 = lock.seen v ∧ (r.1 = .ok () → bad' e s) ∧ ∀ e', r.1 = .error e' → bad' e s) s :=
      keeps_write (hadmits _ s) (fun _ s' hr => hrecords e v s _ s' (hbad e rfl) hr)
        fun _ s' hr => hrecords e v s _ s' (hbad e rfl) hr
    refine Program.Keeps.bind hwrite fun r s hr => ?_
    obtain ⟨r, held⟩ := r
    obtain ⟨v', rfl, hok, herror⟩ := hr
    refine ⟨v', rfl, nofun, fun e' he => ?_⟩
    cases he
    cases r with
    | ok _ => exact hok rfl
    | error e' => exact herror e' rfl

theorem Ends.life {x : Leased α} {bad : Failure → σ → Prop}
    (h : x.Ends env lock good (fun e _ s => bad e s) version s) :
    Program.Keeps env (fun r s => ∀ e, r = .error e → bad e s) (do
      let (result, _) ← x.run.run (some (lock.seen version))
      return result) s := by
  refine Program.Keeps.bind h fun r s hr => ?_
  obtain ⟨v, -, -, hbad⟩ := hr
  exact hbad

theorem ends_claimLock {id : String} {good : Bool → Option String → σ → Prop}
    (hadmits : ∀ c s, env.admits c s)
    (hok : ∀ v s', env.answers (.put lock.key (Utf8.encode id) (.unchanged version)) s (.ok (.written v)) s' →
      good true (some v) s')
    (hconflict : ∀ current e s',
      env.answers (.put lock.key (Utf8.encode id) (.unchanged version)) s (.ok (.conflict current)) s' → bad e version s')
    (hfault : ∀ fault s', bad (.store fault) version s') :
    (claimLock id).Ends env lock good bad version s := by
  unfold claimLock Ends
  rw [run_bind]
  show Program.Keeps env _ (Program.bind (Program.bind ((lock.seen version).write id) _) _) s
  rw [bind_assoc]
  refine ⟨hadmits _ s, fun r s' hr => ?_⟩
  match r, hr with
  | .error fault, _ => exact ⟨version, rfl, nofun, fun e he => by cases he; exact hfault fault s'⟩
  | .ok (.conflict current), hr => exact ⟨version, rfl, nofun, fun e _ => hconflict current e s' hr⟩
  | .ok (.written v), hr => exact ⟨some v, rfl, fun b e => by cases e; exact hok v s' hr, nofun⟩

theorem ends_releaseLock {good : Unit → Option String → σ → Prop} (hadmits : ∀ c s, env.admits c s)
    (hnone : version = none → good () none s)
    (hok : ∀ v r s', version = some v → env.answers (.delete lock.key (.version v)) s (.ok r) s' →
      (∀ current, r ≠ .conflict current) → good () none s')
    (hconflict : ∀ v current e s', version = some v →
      env.answers (.delete lock.key (.version v)) s (.ok (.conflict current)) s' → bad e version s')
    (hfault : ∀ fault s', bad (.store fault) version s') :
    releaseLock.Ends env lock good bad version s := by
  unfold releaseLock Ends
  rw [run_bind]
  show Program.Keeps env _ (Program.bind (Program.bind ((lock.seen version).release) _) _) s
  rw [bind_assoc]
  cases version with
  | none => exact ⟨none, rfl, fun _ _ => hnone rfl, nofun⟩
  | some v =>
    refine ⟨hadmits _ s, fun r s' hr => ?_⟩
    match r, hr with
    | .error fault, _ => exact ⟨some v, rfl, nofun, fun e he => by cases he; exact hfault fault s'⟩
    | .ok (.conflict current), hr => exact ⟨some v, rfl, nofun, fun e _ => hconflict v current e s' rfl hr⟩
    | .ok .deleted, hr => exact ⟨none, rfl, fun _ _ => hok v _ s' rfl hr nofun, nofun⟩
    | .ok .notFound, hr => exact ⟨none, rfl, fun _ _ => hok v _ s' rfl hr nofun, nofun⟩

end Leased

/-! ## Among the others -/

namespace Pool

open Invocation

variable {tablePrefix : String} {version : Option String} {s s' : Stand}

/-- The surroundings of one subscriber among others, who write and delete as they like. -/
def Stand.crowd (tablePrefix : String) : Surroundings Cloud Stand :=
  among (fun site site' => Store.Since (TableLock.keyOf tablePrefix) site.store site'.store) (fun _ => True) fun _ _ => True

theorem admits_crowd (c : CloudCall) (s : Stand) : (Stand.crowd tablePrefix).admits c s := fun _ _ _ => trivial

/-- **Nobody has been in the way so far**: what was seen of the lock was there, and no call was refused. -/
structure Steady (tablePrefix : String) (version : Option String) (s : Stand) : Prop where
  knows : s.site.store.Knows version
  smooth : ∀ deed ∈ s.log, ¬ deed.Refused (TableLock.keyOf tablePrefix)

/-- **The lock was refused, and left alone after that**, but for one failure written where nothing was seen and nothing
was there. -/
def Yielded (tablePrefix : String) (log : List Deed) : Prop :=
  ∃ before deed after, log = before ++ deed :: after ∧ deed.Refused (TableLock.keyOf tablePrefix) ∧
    (∀ d ∈ before, ¬ d.Refused (TableLock.keyOf tablePrefix)) ∧ after.length ≤ 1 ∧
    ∀ d ∈ after, d.Touches (TableLock.keyOf tablePrefix) →
      (∃ body, deed.call = .put (TableLock.keyOf tablePrefix) body .absent) ∧
        d.store.get? (TableLock.keyOf tablePrefix) = none

/-- The lock was just refused to one who had seen it like this. -/
def Blocked (tablePrefix : String) (version : Option String) (s : Stand) : Prop :=
  s.site.store.Misses (TableLock.keyOf tablePrefix) version ∧
    ∃ before store body current, (∀ d ∈ before, ¬ d.Refused (TableLock.keyOf tablePrefix)) ∧
      s.log = before ++ [⟨store, .put (TableLock.keyOf tablePrefix) body (.unchanged version), .ok (.conflict current)⟩]

theorem Steady.start (site : Site) : Steady tablePrefix none ⟨site, []⟩ :=
  ⟨Store.knows_none _, fun _ h => absurd h List.not_mem_nil⟩

/-- What was known stays so, and a call that is not refused is in nobody's way. -/
theorem Steady.call {c : CloudCall} {reply : c.Reply} {version' : Option String} (hs : Steady tablePrefix version s)
    (h : (Stand.crowd tablePrefix).answers c s reply s')
    (hc : ∀ store, ¬ Deed.Refused (TableLock.keyOf tablePrefix) ⟨store, c, reply⟩)
    (hknows : s'.site.store.Knows version → s'.site.store.Knows version') : Steady tablePrefix version' s' := by
  obtain ⟨site, hsince, -, hanswers⟩ := h
  refine ⟨hknows (hs.knows.since (hsince.trans (hanswers.site.since _))), fun deed hdeed => ?_⟩
  rw [hanswers.log, List.mem_append] at hdeed
  rcases hdeed with hdeed | hdeed
  · exact hs.smooth deed hdeed
  · rw [List.mem_singleton.1 hdeed]
    exact hc _

theorem Steady.skip {c : CloudCall} {reply : c.Reply} {version' : Option String} (hs : Steady tablePrefix version s)
    (h : (Stand.crowd tablePrefix).answers c s reply s') (hc : c.Skips (TableLock.keyOf tablePrefix))
    (hknows : s'.site.store.Knows version → s'.site.store.Knows version') : Steady tablePrefix version' s' :=
  hs.call h (fun store => hc.not_refused store reply) hknows

theorem Steady.keeps {α : Type} {x : Invocation α} (hs : Steady tablePrefix version s)
    (hx : x.Only (CloudCall.Skips (TableLock.keyOf tablePrefix))) :
    x.Keeps (Stand.crowd tablePrefix) (fun _ => Steady tablePrefix version) s :=
  hx.keeps (fun c s _ _ => admits_crowd c s) (fun _ _ _ _ hc hs h => hs.skip h hc id) hs

/-- A failure is no conflict, or one that the layout reports, or the lock was refused and left alone after that. -/
def Excused (ctx : Context) (tablePrefix : String) (e : Failure) (log : List Deed) : Prop :=
  e.race? = some .lock → (∃ key, ctx.layout.resolver key = .error e) ∨ Yielded tablePrefix log

/-- The same of a failure that is yet to be left in the lock. -/
def Pending (ctx : Context) (tablePrefix : String) (e : Failure) (version : Option String) (s : Stand) : Prop :=
  e.race? = some .lock → (∃ key, ctx.layout.resolver key = .error e) ∨ Blocked tablePrefix version s

/-- **A failure that is left in the lock is the last that is written there.** -/
theorem Pending.record {ctx : Context} {e : Failure} {body : Octets} {reply : Except StoreFault PutResult}
    (h : Pending ctx tablePrefix e version s)
    (hanswers : (Stand.crowd tablePrefix).answers (.put (TableLock.keyOf tablePrefix) body (.unchanged version)) s reply s') :
    Excused ctx tablePrefix e s'.log := by
  intro hconflict
  refine (h hconflict).imp_right ?_
  rintro ⟨hmisses, before, store, claimed, current, hbefore, hlog⟩
  obtain ⟨site, hsince, -, hsite, hlog'⟩ := hanswers
  refine ⟨before, ⟨store, .put (TableLock.keyOf tablePrefix) claimed (.unchanged version), .ok (.conflict current)⟩, [_],
    by rw [hlog', hlog, List.append_assoc]; rfl, rfl, hbefore, Nat.le_refl _, ?_⟩
  rintro d hd htouches
  obtain rfl := List.mem_singleton.1 hd
  obtain ⟨-, hnot⟩ | ⟨-, hfree, -⟩ := hsite.put_cases
  · match reply, htouches with
    | .ok (.written v), _ => exact absurd rfl (hnot v)
  · obtain ⟨rfl, hnone⟩ := (hmisses.since hsince).eq_none hfree
    exact ⟨⟨claimed, rfl⟩, hnone⟩

end Pool

namespace Leased

open Pool

variable {α β : Type} {ctx : Context} {tablePrefix : String} {bad : Failure → Option String → Stand → Prop}

/-- **Nobody is in the way, or the invocation fails with this promise.** -/
structure Runs (ctx : Context) (tablePrefix : String) (bad : Failure → Option String → Stand → Prop) (x : Leased α) :
    Prop where
  ends : ∀ {version s}, Steady tablePrefix version s → x.Ends (Stand.crowd tablePrefix)
    (.ofTable tablePrefix ctx.settings.jobPrefix) (fun _ => Steady tablePrefix) bad version s

/-- The invocation makes room for others when it is refused the lock. -/
def Yields (ctx : Context) (tablePrefix : String) (x : Leased α) : Prop :=
  x.Runs ctx tablePrefix fun e _ s => Excused ctx tablePrefix e s.log

theorem runs_pure (a : α) : (pure a : Leased α).Runs ctx tablePrefix bad := ⟨fun hs => ends_pure hs⟩

theorem Runs.bind {x : Leased α} {f : α → Leased β} (hx : x.Runs ctx tablePrefix bad)
    (hf : ∀ a, (f a).Runs ctx tablePrefix bad) : (x >>= f).Runs ctx tablePrefix bad :=
  ⟨fun hs => (hx.ends hs).bind fun a _ _ hs => (hf a).ends hs⟩

theorem runs_lift {x : Invocation α} (hbad : ∀ {e version s}, e.IsForeign .lock ctx.layout → bad e version s)
    (hx : x.FailsForeign .lock ctx.layout) (hskips : x.Only (CloudCall.Skips (TableLock.keyOf tablePrefix))) :
    (lift x).Runs ctx tablePrefix bad :=
  ⟨fun hs => ends_lift admits_crowd hx (fun _ _ he => hbad he) (hs.keeps hskips)⟩

theorem yields_lift {x : Invocation α} (hx : x.FailsForeign .lock ctx.layout)
    (hskips : x.Only (CloudCall.Skips (TableLock.keyOf tablePrefix))) : (lift x).Yields ctx tablePrefix :=
  runs_lift (fun he hconflict => .inl (he hconflict)) hx hskips

theorem pending_lift {x : Invocation α} (hx : x.FailsForeign .lock ctx.layout)
    (hskips : x.Only (CloudCall.Skips (TableLock.keyOf tablePrefix))) :
    (lift x).Runs ctx tablePrefix (Pending ctx tablePrefix) :=
  runs_lift (fun he hconflict => .inl (he hconflict)) hx hskips

theorem Runs.recording {x : Leased α} (hx : x.Runs ctx tablePrefix (Pending ctx tablePrefix)) :
    (recording x).Yields ctx tablePrefix :=
  ⟨fun hs => ends_recording admits_crowd (fun _ _ _ _ _ hbad hr => hbad.record hr) (hx.ends hs)⟩

theorem pending_claimLock (id : String) : (claimLock id).Runs ctx tablePrefix (Pending ctx tablePrefix) := by
  refine ⟨fun {version s} hs => ?_⟩
  refine ends_claimLock admits_crowd (fun v s' hr => ?_) (fun current e s' hr _ => .inr ?_) fun _ _ => nofun
  · refine hs.call hr (fun _ => nofun) fun _ => ?_
    rintro _ ⟨⟩
    obtain ⟨site, -, -, hsite, -⟩ := hr
    obtain ⟨-, hnot⟩ | ⟨hv, -, now, hwrite⟩ := hsite.put_cases
    · exact absurd rfl (hnot v)
    · cases hv
      exact ⟨_, rfl, by rw [hwrite]; exact Nat.lt_succ_self _⟩
  · obtain ⟨site, hsince, -, hsite, hlog⟩ := hr
    obtain ⟨⟨fault, e, -⟩, -⟩ | ⟨now, hreply, hstore⟩ := hsite
    · cases e
    · obtain ⟨hrefused, hsame⟩ := Store.put_eq_conflict (Except.ok.inj hreply).symm
      have hsite : s'.site.store = site.store := by rw [hstore]; exact hsame
      refine ⟨?_, s.log, site.store, Utf8.encode id, current, hs.smooth, hlog⟩
      rw [hsite]
      exact Store.misses_of_refuses? (hs.knows.since hsince) hrefused

theorem yields_releaseLock : releaseLock.Yields ctx tablePrefix := by
  refine ⟨fun {version s} hs => ?_⟩
  refine ends_releaseLock admits_crowd (fun hnone => hnone ▸ hs) (fun v r s' _ hr hne => ?_)
    (fun v current e s' _ hr _ => .inr ?_) fun _ _ => nofun
  · refine hs.call hr (fun store hrefused => ?_) fun _ => Store.knows_none _
    cases r with
    | conflict current => exact hne current rfl
    | _ => cases hrefused
  · obtain ⟨site, -, -, -, hlog⟩ := hr
    exact ⟨s.log, _, [], hlog, rfl, hs.smooth, Nat.zero_le _, fun _ h => absurd h List.not_mem_nil⟩

theorem foreign_readLock (layout : Layout) (lock : TableLock) : (readLock.run.run (some lock)).Keeps (.wild fun _ => True)
    (fun r _ => ∀ e, r.1 = .error e → e.IsForeign .lock layout) () := by
  unfold readLock
  rw [run_bind]
  show Program.Keeps _ _ (Program.bind (Program.bind lock.read _) _) _
  rw [Program.bind_assoc]
  refine ⟨trivial, fun r _ _ => ?_⟩
  match r with
  | .error fault => exact fun e he => by cases he; exact nofun
  | .ok none => exact nofun
  | .ok (some seen) =>
    refine ⟨trivial, fun r _ _ => ?_⟩
    match r with
    | .ok body => exact nofun
    | .error fault =>
      show Program.Keeps _ _ (Program.bind (if fault.isNotFound = true then _ else _) _) ()
      split
      · exact nofun
      · exact fun e he => by cases he; exact nofun

theorem yields_readLock : readLock.Yields ctx tablePrefix := by
  refine ⟨fun {version s} hs => ?_⟩
  have hhead : ∀ seen s₁, (Stand.crowd tablePrefix).answers (.head (TableLock.keyOf tablePrefix)) s (.ok (some seen)) s₁ →
      Steady tablePrefix (some seen.version) s₁ := fun seen s₁ hr => by
    refine hs.skip hr trivial fun _ => ?_
    rintro _ ⟨⟩
    obtain ⟨site, -, -, ⟨hsite, hreply | ⟨fault, e, -⟩⟩, -⟩ := hr
    · obtain ⟨object, hobject, rfl⟩ := Option.map_eq_some_iff.1 (Except.ok.inj (Option.some.inj hreply))
      exact ⟨_, rfl, by rw [hsite]; exact Store.generation_lt hobject⟩
    · cases e
  have hkeeps : readLock.Keeps (Stand.crowd tablePrefix) (.ofTable tablePrefix ctx.settings.jobPrefix)
      (fun _ => Steady tablePrefix) version s :=
    keeps_readLock (admits_crowd _ _) (fun _ hr => hs.skip hr trivial fun _ => Store.knows_none _)
      (fun _ _ _ => admits_crowd _ _) (fun seen s₁ _ _ hr hr' => (hhead seen s₁ hr).skip hr' trivial id)
      (fun seen s₁ _ _ hr hr' _ => (hhead seen s₁ hr).skip hr' trivial fun _ => Store.knows_none _)
  have hforeign : (readLock.run.run (some ((TableLock.ofTable tablePrefix ctx.settings.jobPrefix).seen version))).Keeps
      (Stand.crowd tablePrefix) (fun r _ => (∀ e, r.1 = .error e → e.IsForeign .lock ctx.layout) ∧ True) s :=
    Program.keeps_of_wild (fun c s _ _ => admits_crowd c s) (fun _ _ _ _ _ _ _ => trivial) (foreign_readLock _ _) trivial
  refine Program.Keeps.mono (fun r s hr => ?_) (Program.Keeps.and hkeeps hforeign)
  obtain ⟨⟨v, hv, hgood, -⟩, hfails, -⟩ := hr
  exact ⟨v, hv, hgood, fun e he hconflict => .inl (hfails e he hconflict)⟩

end Leased

/-! ## The run of a subscriber -/

section Subscribers

open Invocation Leased Pool

variable {α : Type} {ctx : Context} {tablePrefix : String}

theorem Invocation.Only.skips {key : String} {x : Invocation α} (h : x.Only CloudCall.IsPassive) :
    x.Only (CloudCall.Skips key) :=
  h.mono fun _ hc => hc.isLoading.skips

theorem Invocation.Only.skips_lock {x : Invocation α} (h : x.Only (CloudCall.IsPosting tablePrefix)) :
    x.Only (CloudCall.Skips (TableLock.keyOf tablePrefix)) :=
  h.mono fun _ hc => hc.isFree.skips

namespace Submission

theorem skips_submitAndWatch {key : String} (ctx : Context) (job : Job) :
    (submitAndWatch ctx job).Only (CloudCall.Skips key) := by
  refine (only_warehouse (only_call trivial)).bind fun _ => (only_ask trivial).bind fun _ => ?_
  refine (JobWatch.waiting_wait ..).passive.skips.bind fun seen => ?_
  split
  · exact (JobWatch.waiting_check ..).passive.skips
  all_goals exact only_pure _

theorem pending_loadJobs (jobId : String) (total : Nat) : ∀ (jobs : List Job) (index : Nat) (lastId : String),
    (loadJobs ctx jobId total index lastId jobs).Runs ctx tablePrefix (Pending ctx tablePrefix)
  | [], _, _ => runs_pure _
  | job :: rest, index, _ => by
    refine (pending_claimLock _).bind fun locked => ?_
    refine (pending_lift (foreign_submitAndWatch ..) (skips_submitAndWatch ..)).bind fun _ => ?_
    split
    · exact runs_pure _
    · exact pending_loadJobs jobId total rest _ _

theorem pending_carryOut (jobId : String) (firstPart : Nat) (plan : Plan) :
    (carryOut ctx jobId firstPart plan).Runs ctx tablePrefix (Pending ctx tablePrefix) := by
  cases plan with
  | query job =>
    refine (pending_claimLock _).bind fun _ => ?_
    exact (pending_lift (foreign_submitAndWatch ..) (skips_submitAndWatch ..)).bind fun _ => runs_pure _
  | loads jobs =>
    simp only [carryOut]
    split
    · exact Runs.bind ⟨fun _ => ends_throw fun h => by cases h⟩ fun _ => (pending_loadJobs ..).bind fun _ => runs_pure _
    · exact (pending_loadJobs ..).bind fun _ => runs_pure _

theorem yields_apply (marker jobId : String) (firstPart : Nat) :
    (apply ctx marker jobId firstPart).Yields ctx tablePrefix := by
  refine Runs.recording ?_
  rw [submitJobs_eq]
  exact (pending_lift (foreign_plan _ _) (reads_plan _ _).passive.skips).bind fun plan => pending_carryOut _ _ plan

end Submission

theorem Backlog.yields_pop : (lift (pop tablePrefix)).Yields ctx tablePrefix := by
  refine ⟨fun {version s} hs => ?_⟩
  refine ends_lift admits_crowd (foreign_pop _) (fun _ _ he hconflict => .inl (he hconflict)) ?_
  have hnext := (hs.keeps (reads_next tablePrefix).passive.skips).and
    (Stand.keeps_next fun _ => trivial : (next tablePrefix).Keeps (Stand.crowd tablePrefix) _ s)
  refine hnext.bind fun pointer s h => ?_
  obtain ⟨hs, site, -, -, hfirst, -⟩ := h
  cases pointer with
  | none => exact keeps_pure hs
  | some pointer =>
    have hne := ne_lock_of_startsWith (Store.startsWith_of_mem_pointers (List.mem_of_head? hfirst.symm))
    have hskips : CloudCall.Skips (TableLock.keyOf tablePrefix) (.delete pointer .always) := hne
    exact (hs.keeps (only_store (only_call hskips))).bind fun _ _ hs => keeps_pure hs

namespace Subscriber

theorem yields_awaitJob (jobId : String) : (awaitJob ctx jobId).Yields ctx tablePrefix := by
  refine (yields_lift (JobWatch.foreign_wait ..) (JobWatch.waiting_wait ..).passive.skips).bind fun seen => ?_
  split
  · exact runs_pure _
  · refine (pending_lift (JobWatch.foreign_missing _) ?_).recording.bind fun _ => runs_pure _
    exact (passive_count _).skips.bind fun _ => only_throw _
  · refine (pending_lift (JobWatch.foreign_check ..) ?_).recording.bind fun _ => runs_pure _
    exact (JobWatch.waiting_check ..).passive.skips

theorem yields_markerOf (pointer : String) : (lift (markerOf pointer)).Yields ctx tablePrefix := by
  refine yields_lift (foreign_markerOf pointer) ((reads_head _).passive.skips.bind fun found => ?_)
  split
  · exact only_pure _
  · exact only_throw _

theorem yields_submitNext (pointer : String) : (submitNext ctx pointer).Yields ctx tablePrefix := by
  refine (yields_markerOf pointer).bind fun marker => ?_
  refine (yields_lift (foreign_ask .freshId) (only_ask trivial)).bind fun suffix => ?_
  exact (Submission.yields_apply ..).bind fun _ => runs_pure _

theorem yields_submitPart (pointer jobId : String) (part : Nat) :
    (submitPart ctx pointer jobId part).Yields ctx tablePrefix :=
  (yields_markerOf pointer).bind fun _ => (Submission.yields_apply ..).bind fun _ => runs_pure _

variable (marker : String) (deadline lastPop : Duration)

theorem yields_next : (lift (Backlog.next tablePrefix)).Yields ctx tablePrefix :=
  yields_lift (Backlog.foreign_next _) (Backlog.reads_next _).passive.skips

theorem yields_now : (lift now).Yields ctx tablePrefix := yields_lift (foreign_ask _) passive_now.skips

theorem yields_drain :
    (drain ctx ⟨tablePrefix, .ofTable tablePrefix ctx.layout.gateName, marker, deadline⟩ lastPop).Yields ctx tablePrefix := by
  refine yields_releaseLock.bind fun _ => ?_
  refine (yields_lift (foreign_store _) (BackfillMarker.posting_delete _ _).skips_lock).bind fun result => ?_
  split
  · exact runs_pure _
  · refine yields_now.bind fun time => ?_
    split
    · exact runs_pure _
    · refine yields_next.bind fun first => ?_
      split
      · exact runs_pure _
      · refine (yields_lift (BackfillMarker.foreign_post _) (BackfillMarker.posting_post _).skips_lock).bind
          fun outcome => ?_
        split <;> exact runs_pure _

theorem yields_advance : ∀ first : Option String,
    (advance ctx ⟨tablePrefix, .ofTable tablePrefix ctx.layout.gateName, marker, deadline⟩ lastPop first).Yields ctx
      tablePrefix
  | none => (yields_drain ..).bind fun _ => runs_pure _
  | some pointer => (yields_submitNext pointer).bind fun _ => runs_pure _

theorem yields_finish (jobId : String) :
    (finish ctx ⟨tablePrefix, .ofTable tablePrefix ctx.layout.gateName, marker, deadline⟩ lastPop jobId).Yields ctx
      tablePrefix := by
  refine yields_next.bind fun first => ?_
  split
  · exact yields_advance ..
  · split
    · split
      · refine (yields_lift (foreign_fitted _ _) (only_fitted _ _)).bind fun part => ?_
        exact (yields_submitPart ..).bind fun _ => runs_pure _
      · refine Backlog.yields_pop.bind fun _ => ?_
        refine (yields_lift (foreign_ask _) (passive_count _).skips).bind fun _ => ?_
        exact yields_now.bind fun lastPop => yields_next.bind fun first => yields_advance ..
    · exact yields_advance ..

theorem yields_turn :
    (turn ctx ⟨tablePrefix, .ofTable tablePrefix ctx.layout.gateName, marker, deadline⟩ lastPop).Yields ctx tablePrefix := by
  refine yields_readLock.bind fun body => ?_
  split
  · exact (yields_lift (foreign_ask _) (passive_sleep _).skips).bind fun _ => runs_pure _
  · refine (yields_awaitJob _).bind fun ended => ?_
    split
    · exact yields_finish ..
    · exact runs_pure _
  · exact yields_next.bind fun first => yields_advance ..

theorem yields_turns : ∀ (rounds : Nat) (lastPop : Duration),
    (turns ctx ⟨tablePrefix, .ofTable tablePrefix ctx.layout.gateName, marker, deadline⟩ rounds lastPop).Yields ctx
      tablePrefix
  | 0, _ => yields_lift (foreign_halt _) (only_halt _)
  | rounds + 1, lastPop => by
    refine yields_now.bind fun time => ?_
    split
    · refine (yields_turn ..).bind fun led => ?_
      split
      · exact yields_turns rounds _
      · exact runs_pure _
    · exact yields_lift (foreign_handOver _) (posting_handOver ..).skips_lock

theorem yields_work : (work ctx tablePrefix).Yields ctx tablePrefix := by
  refine (yields_lift (foreign_ofExcept fun _ h => Failure.isForeign_of_race? (Settings.race?_of_subscriberBudget h) _ _)
    (only_ofExcept _)).bind fun budget => ?_
  refine (yields_lift (foreign_after _) (passive_after _).skips).bind fun started => ?_
  refine (yields_lift (foreign_store _) (reads_head _).passive.skips).bind fun trigger => ?_
  split
  · exact runs_pure _
  · rename_i object
    have hclaim : (Claim.takeObject object).Only (CloudCall.Skips (TableLock.keyOf tablePrefix)) :=
      Claim.only_takeObject (Claim.key_ne_lock _ _ _)
    refine (yields_lift (Claim.foreign_takeObject _) hclaim).bind fun _ => ?_
    exact yields_now.bind fun lastPop => yields_turns ..

/-- **A subscriber makes room for others when it is refused the lock.** -/
theorem excused_run (site : Site) : (run ctx tablePrefix).plain.Keeps (Stand.crowd tablePrefix)
    (fun r s => ∀ e, r = .error e → Excused ctx tablePrefix e s.log) ⟨site, []⟩ := by
  have hrun : Program.Keeps (Stand.crowd tablePrefix) (fun r s => ∀ e, r = .error e → Excused ctx tablePrefix e s.log)
      (run ctx tablePrefix).run ⟨site, []⟩ := by
    refine Program.Keeps.bind (yields_work.ends (Steady.start site)).life fun r s hr => ?_
    cases r with
    | ok outcome => exact ⟨admits_crowd _ s, fun _ _ _ _ he => by cases he⟩
    | error e => exact fun e' he => by cases he; exact hr e rfl
  refine Program.Keeps.bind hrun fun r s hr => ?_
  cases r with
  | ok outcome => exact fun _ he => by cases he
  | error e => exact fun e' he => by cases he; exact hr e rfl

end Subscriber
end Subscribers

/-! ## Pools of subscribers -/

namespace Pool

variable {outside : String → Prop} {tablePrefix jobPrefix : String}

/-- Where nothing is promised, every program keeps to the surroundings. -/
theorem keeps_crowd {α : Type} (p : CloudProgram α) (s : Stand) : p.Keeps (Stand.crowd tablePrefix) (fun _ _ => True) s :=
  Program.Keeps.mono (fun _ _ _ => trivial)
    (Program.keeps_of_wild (fun c s _ _ => admits_crowd c s) (fun _ _ _ _ _ _ _ => trivial) p.keeps_any trivial)

/-- Any errands of a table, while others write and delete keys of a kind. -/
def guarded (outside : String → Prop) (jobPrefix tablePrefix : String) : Rules Errand :=
  { lenient jobPrefix tablePrefix with outside := outside }

/-- Every failure of a subscriber is excused. -/
def yielding (outside : String → Prop) (jobPrefix tablePrefix : String) :
    Contract (guarded outside jobPrefix tablePrefix) Site Stand where
  about site pool := site = pool.site
  within _ := True
  view site member := ⟨site, member.log⟩
  env _ _ := Stand.crowd tablePrefix
  post _ errand r s := ∀ ctx, errand = .subscribe ctx → ∀ e, r = .error e → Excused ctx tablePrefix e s.log
  later _ site site' := Store.Since (TableLock.keyOf tablePrefix) site.store site'.store
  back _ _ := trivial
  lasts {i s t member} hlater h := by
    cases hprogram : member.program with
    | done r =>
      rw [hprogram] at h
      exact h
    | halt => trivial
    | ask c next =>
      rw [hprogram] at h
      refine ⟨admits_crowd _ _, fun reply s' hs => ?_⟩
      obtain ⟨u, hu, hsound, hanswers⟩ := hs
      exact h.2 reply s' ⟨u, hlater.trans hu, hsound, hanswers⟩
  join {site pool errand} habout _ := by
    refine ⟨habout, ?_⟩
    cases errand with
    | subscribe ctx =>
      refine Program.Keeps.mono (fun r s hr ctx' hctx => ?_) (Subscriber.excused_run site)
      cases hctx
      exact hr
    | enqueue | monitor => exact Program.Keeps.mono (fun _ _ _ _ h => by cases h) (keeps_crowd _ _)
  call {site pool i member c next reply site' member' pool'} habout _ _ hanswers _ hmember' hpool' _ := by
    subst habout hpool' hmember'
    exact ⟨site', rfl, ⟨pool.site, .refl _ _, trivial, hanswers, rfl⟩, fun _ _ => hanswers.since _⟩
  pass {site pool} _ h := ⟨site, h, fun _ => .refl _ _⟩
  write body now h _ := by
    subst h
    exact ⟨_, rfl, fun _ => .write ..⟩
  remove h _ := by
    subst h
    exact ⟨_, rfl, fun _ => .remove ..⟩

/-- **Who has lost the lock leaves it alone**, but for one case.  An invocation that ends because somebody else has changed
the lock was refused a claim or a release; of the calls after that at most one is about the lock, which leaves the
failure there.  It takes place only if the claim was made for a lock that was not there, and is not there again. -/
theorem yields_of_conflict {pool pool' : Pool Errand} (hmembers : pool.members = [])
    (hsteps : Relation.ReflTransGen (Step (guarded outside jobPrefix tablePrefix)) pool pool') {member : Member Errand}
    (hmember : member ∈ pool'.members) {ctx : Context} (herrand : member.errand = .subscribe ctx) {lock found : String}
    (hended : member.program = .done (.error (.lockConflict lock found))) :
    (∃ key, ctx.layout.resolver key = .error (.lockConflict lock found)) ∨ Yielded tablePrefix member.log := by
  obtain ⟨site, -, hgoes⟩ := (yielding outside jobPrefix tablePrefix).holds rfl hmembers hsteps trivial
  obtain ⟨i, hi⟩ := List.mem_iff_getElem?.1 hmember
  have hpost := hgoes i member hi
  rw [hended] at hpost
  exact hpost ctx herrand _ rfl rfl

/-! ## A lock that is given up in time -/

namespace Relapse

section Turns

variable {ι : Type} (rules : Rules ι) (errand : ι) (key : String) (w : World)

/-- A member of a pool is about to claim the lock, which is not there. -/
def poised : CloudProgram (Except Failure Unit) × World := w.runFor 18 (rules.program errand)

/-- Another one is called for. -/
def called : World := (poised rules errand w).2.given key []

/-- It takes the lock. -/
def taken : CloudProgram (Except Failure Unit) × World := (called rules errand key w).runFor 19 (rules.program errand)

/-- The first is refused the lock. -/
def refused : CloudProgram (Except Failure Unit) × World :=
  (taken rules errand key w).2.runFor 1 (poised rules errand w).1

/-- The other one works the backlog off and gives the lock up. -/
def released : CloudProgram (Except Failure Unit) × World :=
  (refused rules errand key w).2.runFor 19 (taken rules errand key w).1

/-- The first leaves its failure in the lock. -/
def recorded : CloudProgram (Except Failure Unit) × World :=
  (released rules errand key w).2.runFor 1 (refused rules errand key w).1

variable {rules errand key w}

theorem steps {fine : World → Prop} (habides : World.Abides rules fine) (hallows : rules.allows errand)
    (hkey : rules.outside key) (hsteady : w.Steady fine 58) (hfine : fine (called rules errand key w)) :
    ∃ since log other, Relation.ReflTransGen (Step rules) ⟨w.site, w.elapsed, []⟩
        ⟨(recorded rules errand key w).2.site, (recorded rules errand key w).2.elapsed,
          [⟨errand, (recorded rules errand key w).1, since, log⟩, other]⟩ ∧
      log = w.deedsFor 18 (rules.program errand) ++
        (taken rules errand key w).2.deedsFor 1 (poised rules errand w).1 ++
        (released rules errand key w).2.deedsFor 1 (refused rules errand key w).1 := by
  obtain ⟨since₁, log₁, hpoised, hsince₁, hlog₁, hsteps₁⟩ := World.steps_runFor habides hsteady
    (show 18 ≤ 58 by decide) (poised.eq_1 rules errand w) (Nat.le_refl _) errand [] [] []
  have hcalled : (called rules errand key w).Steady fine 40 := ⟨hpoised.calm.given _ _, hfine, hpoised.room⟩
  obtain ⟨since₂, log₂, htaken, hsince₂, -, hsteps₂⟩ := World.steps_runFor habides hcalled (show 19 ≤ 40 by decide)
    (taken.eq_1 rules errand key w) (Nat.le_refl _) errand [] [⟨errand, (poised rules errand w).1, since₁, log₁⟩] []
  have hlater : (poised rules errand w).2.elapsed ≤ (taken rules errand key w).2.elapsed :=
    World.elapsed_le_runFor (w := called rules errand key w) (taken.eq_1 rules errand key w)
  obtain ⟨since₃, log₃, hrefused, hsince₃, hlog₃, hsteps₃⟩ := World.steps_runFor habides htaken
    (show 1 ≤ 40 - 19 by decide) (refused.eq_1 rules errand key w) (Nat.le_trans hsince₁ hlater) errand log₁ []
    [⟨errand, (taken rules errand key w).1, since₂, log₂⟩]
  obtain ⟨since₄, log₄, hreleased, -, -, hsteps₄⟩ := World.steps_runFor habides hrefused
    (show 19 ≤ 40 - 19 - 1 by decide) (released.eq_1 rules errand key w)
    (Nat.le_trans hsince₂ (World.elapsed_le_runFor (refused.eq_1 rules errand key w))) errand log₂
    [⟨errand, (refused rules errand key w).1, since₃, log₃⟩] []
  obtain ⟨since₅, log₅, -, -, hlog₅, hsteps₅⟩ := World.steps_runFor habides hreleased
    (show 1 ≤ 40 - 19 - 1 - 19 by decide) (recorded.eq_1 rules errand key w)
    (Nat.le_trans hsince₃ (World.elapsed_le_runFor (released.eq_1 rules errand key w))) errand log₃ []
    [⟨errand, (released rules errand key w).1, since₄, log₄⟩]
  have hfirst := Step.enter hallows w.site w.elapsed []
  have hwrite : Step rules ⟨(poised rules errand w).2.site, (poised rules errand w).2.elapsed,
      [⟨errand, (poised rules errand w).1, since₁, log₁⟩]⟩ _ := .write [] (poised rules errand w).2.instant hkey
  have hsecond := Step.enter hallows (called rules errand key w).site (called rules errand key w).elapsed
    [⟨errand, (poised rules errand w).1, since₁, log₁⟩]
  have hopening := ((Relation.ReflTransGen.head hfirst hsteps₁).tail hwrite).tail hsecond
  refine ⟨since₅, log₅, _, (hopening.trans hsteps₂).trans (hsteps₃.trans (hsteps₄.trans hsteps₅)), ?_⟩
  rw [hlog₅, hlog₃, hlog₁, List.nil_append]

end Turns

/-- Nobody but subscribers writes the lock. -/
def rules : Rules Errand := guarded (· ≠ TableLock.keyOf "d/t") Trial.context.settings.jobPrefix "d/t"

def errand : Errand := .subscribe Trial.context

def table : World := Trial.table ["d/t/_backlog/b/_SUCCESS"]

theorem outcome :
    World.failure? (recorded rules errand (BackfillMarker.keyOf "d/t") table).1 =
      some (.lockConflict (TableLock.keyOf "d/t") "expected generation 0, found 11") ∧
    ((taken rules errand (BackfillMarker.keyOf "d/t") table).2.deedsFor 1 (poised rules errand table).1).map
      Deed.refused? = [some (TableLock.keyOf "d/t")] ∧
    ((released rules errand (BackfillMarker.keyOf "d/t") table).2.deedsFor 1
      (refused rules errand (BackfillMarker.keyOf "d/t") table).1).map Deed.touched? = [some (TableLock.keyOf "d/t")] ∧
    (recorded rules errand (BackfillMarker.keyOf "d/t") table).2.site.store.lockBody
      Trial.context.settings.jobPrefix "d/t" =
        some (.manual "table lock d/t/_bqlock changed concurrently: expected generation 0, found 11") := by
  decide +kernel

theorem exists_steps : ∃ (site : Site) (clock : Duration) (program : CloudProgram (Except Failure Unit))
    (since : Duration) (before : List Deed) (claim last : Deed) (other : Member Errand),
    Relation.ReflTransGen (Step rules) ⟨table.site, table.elapsed, []⟩
        ⟨site, clock, [⟨errand, program, since, before ++ [claim, last]⟩, other]⟩ ∧
      program = .done (.error (.lockConflict (TableLock.keyOf "d/t") "expected generation 0, found 11")) ∧
      claim.Refused (TableLock.keyOf "d/t") ∧ last.Touches (TableLock.keyOf "d/t") ∧
      site.store.lockBody Trial.context.settings.jobPrefix "d/t" =
        some (.manual "table lock d/t/_bqlock changed concurrently: expected generation 0, found 11") := by
  have habides : World.Abides rules fun _ => True := .of_all fun _ _ _ _ => trivial
  have hsteady : table.Steady (fun _ => True) 58 := Trial.steady_table _ trivial (by decide)
  have hallows : rules.allows errand := rfl
  obtain ⟨since, log, other, hsteps, hlog⟩ :=
    steps habides hallows (BackfillMarker.keyOf_ne_lock "d/t" "d/t") hsteady trivial
  obtain ⟨hended, hclaim, hlast, hbody⟩ := outcome
  obtain ⟨claim, hclaims, hrefused⟩ := List.map_eq_singleton_iff.1 hclaim
  obtain ⟨last, hlasts, htouches⟩ := List.map_eq_singleton_iff.1 hlast
  rw [hclaims, hlasts, List.append_assoc, List.singleton_append] at hlog
  rw [hlog] at hsteps
  exact ⟨_, _, _, since, _, claim, last, other, hsteps, World.eq_done_of_failure? hended, hrefused, htouches, hbody⟩

end Relapse

/-- The subscriber that was refused the lock is excused. -/
theorem yields_of_conflict_relapse : ∃ (pool : Pool Errand) (member : Member Errand) (found : String),
    member ∈ pool.members ∧ member.program = .done (.error (.lockConflict (TableLock.keyOf "d/t") found)) ∧
      Yielded "d/t" member.log := by
  obtain ⟨site, clock, program, since, before, claim, last, other, hsteps, hprogram, -⟩ := Relapse.exists_steps
  let member : Member Errand := ⟨Relapse.errand, program, since, before ++ [claim, last]⟩
  have hmember : member ∈ [member, other] := List.mem_cons_self
  refine ⟨⟨site, clock, [member, other]⟩, member, _, hmember, hprogram, ?_⟩
  rcases yields_of_conflict rfl hsteps hmember rfl hprogram with ⟨key, hkey⟩ | hyielded
  · cases hkey
  · exact hyielded

/-- **A subscriber that has lost the lock stops the table**: it is refused the lock by another one, which works the backlog
off and gives the lock up before the first one leaves its failure there.  To all others that is a lock set by hand. -/
theorem failure_left_after_conflict : ∃ (start pool : Pool Errand) (member : Member Errand) (before : List Deed)
    (claim last : Deed) (found text : String),
    start.members = [] ∧ Relation.ReflTransGen (Step Relapse.rules) start pool ∧ member ∈ pool.members ∧
      member.errand = .subscribe Trial.context ∧
      member.program = .done (.error (.lockConflict (TableLock.keyOf "d/t") found)) ∧
      member.log = before ++ [claim, last] ∧ claim.Refused (TableLock.keyOf "d/t") ∧
      last.Touches (TableLock.keyOf "d/t") ∧
      pool.site.store.lockBody Trial.context.settings.jobPrefix "d/t" = some (.manual text) := by
  obtain ⟨site, clock, program, since, before, claim, last, other, hsteps, hprogram, hrefused, htouches, hbody⟩ :=
    Relapse.exists_steps
  let member : Member Errand := ⟨Relapse.errand, program, since, before ++ [claim, last]⟩
  exact ⟨_, _, member, before, claim, last, _, _, rfl, hsteps, List.mem_cons_self, rfl, hprogram, rfl, hrefused, htouches,
    hbody⟩

end Pool
end Intake
