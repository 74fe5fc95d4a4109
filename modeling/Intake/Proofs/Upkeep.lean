import Intake.Proofs.Ledger
/-!
# Upkeep — a pool that keeps a ledger

Enqueuings, monitors and subscribers of a table share a clock: a sleep lasts as long as it should, and no call to the store
fails.  If each of them makes only calls that are allowed, and ends with nothing on its hands, then every pointer that was
pushed is seen to at any time, and by the backfill marker alone when all have ended (`Upkeep.contract`).
-/
namespace Intake

/-- Where an invocation stands: the ledger, the time of its last call, and the calls it has made. -/
structure View where
  ledger : Ledger
  since : Duration
  log : List Deed

/-- What the call has found of an object. -/
def Deed.found? (key : String) : Deed → Option ObjectInfo
  | ⟨_, .head asked, .ok found⟩ => if asked = key then found else none
  | _ => none

/-- The version of an object that the call has written. -/
def Deed.written? (key : String) : Deed → Option String
  | ⟨_, .put asked _ _, .ok (.written version)⟩ => if asked = key then some version else none
  | _ => none

theorem Deed.of_written? {store : Store} {key asked : String} {body : Octets} {precondition : Precondition}
    {reply : Except StoreFault PutResult} {version : String}
    (h : written? key ⟨store, .put asked body precondition, reply⟩ = some version) :
    asked = key ∧ reply = .ok (.written version) := by
  match reply, h with
  | .ok (.written found), h =>
    have hif : (if asked = key then some found else none) = some version := h
    split at hif
    · rename_i hkey
      cases hif
      exact ⟨hkey, rfl⟩
    · cases hif
  | .ok (.conflict _), h => cases h
  | .error _, h => cases h

namespace Upkeep

/-- A reply in time: the clock is right, a sleep is long enough, and nothing fails. -/
def Timely : (c : CloudCall) → c.Reply → (clock since : Duration) → Prop
  | .now, reply, clock, _ => reply = clock
  | .sleep span, _, clock, since => since + span ≤ clock
  | c, reply, _, _ => ¬ c.Failed reply

theorem Timely.works {c : CloudCall} {reply : c.Reply} {clock since : Duration} (h : Timely c reply clock since) :
    ¬ c.Failed reply := by
  cases c with
  | now => exact id
  | sleep => exact id
  | _ => exact h

/-- There is no gate, and the time that a monitor waits is this. -/
structure Plain (window : Duration) (ctx : Context) : Prop where
  gate : ctx.layout.gateName = none
  wait : ctx.settings.subscriberWait = window

/-- **Errands of a table without a gate**, on a clock; others write and delete what they like but the pointers and the
backfill marker. -/
def rules (tablePrefix : String) (window : Duration) : Rules Pool.Errand where
  program := Pool.Errand.program tablePrefix
  allows
    | .subscribe ctx => Plain window ctx
    | .enqueue ctx marker => Plain window ctx ∧ ctx.layout.tablePrefix marker = .ok tablePrefix
    | .monitor ctx => Plain window ctx
  outside key := startsWith (Backlog.folder tablePrefix) key = false ∧ key ≠ BackfillMarker.keyOf tablePrefix
  replies := Timely

/-- **The version of the backfill marker that a subscriber has claimed**: its first calls are to look at the clock and at
the marker, and to write its claim. -/
def claimed? (tablePrefix : String) : List Deed → Option String
  | _ :: looked :: taken :: _ => do
    let marker ← looked.found? (BackfillMarker.keyOf tablePrefix)
    let _ ← taken.written? (Claim.key marker.key marker.created)
    return marker.version
  | _ => none

/-- The backfill marker is not, and will never be, of this version. -/
def Gone (tablePrefix : String) (version : String) (l : Ledger) : Prop :=
  ∃ generation, version = decimal generation ∧ generation < l.next ∧
    ∀ object, l.marker? tablePrefix = some object → object.generation ≠ generation

theorem Gone.onward {tablePrefix version : String} {l l' : Ledger} (h : Gone tablePrefix version l)
    (hon : l.Onward l') : Gone tablePrefix version l' := by
  obtain ⟨generation, hversion, hlt, hgone⟩ := h
  refine ⟨generation, hversion, Nat.lt_of_lt_of_le hlt hon.next_le, fun object hobject => ?_⟩
  obtain hold | hnew := hon.marker hobject
  · exact hgone object hold
  · exact Nat.ne_of_gt (Nat.lt_of_lt_of_le hlt hnew)

section Contract

variable (tablePrefix : String) (window : Duration)

/-- **What may come of a call**: before it others have acted, and then it is noted. -/
structure Replied (i : Nat) (subscribes : Bool) (c : CloudCall) (t : View) (l : Ledger) (reply : c.Reply) (t' : View) :
    Prop where
  later : Ledger.Later i t.ledger l
  sound : l.Sound tablePrefix window
  clock : t.since ≤ l.clock
  timely : Timely c reply l.clock t.since
  moves : Ledger.Moves tablePrefix window subscribes i c l reply t'.ledger
  since : t'.since = l.clock
  log : t'.log = t.log ++ [⟨l.site.store, c, reply⟩]
  room : t'.ledger.next ≤ 2 ^ 63

/-- The surroundings of a member of the pool. -/
def env (i : Nat) (subscribes : Bool) : Surroundings Cloud View where
  admits c t := ∀ l, Ledger.Later i t.ledger l → l.Sound tablePrefix window → Ledger.Allowed tablePrefix subscribes i c l
  answers c t reply t' := ∃ l, Replied tablePrefix window i subscribes c t l reply t'

def subscribes : Pool.Errand → Bool
  | .subscribe _ => true
  | _ => false

/-- What is true of a member that has returned normally. -/
def Returned (i : Nat) (errand : Pool.Errand) (r : Except Failure Unit) (t : View) : Prop :=
  r = .ok () → t.ledger.duty i = .idle ∧
    (subscribes errand = true → ∀ version, claimed? tablePrefix t.log = some version → Gone tablePrefix version t.ledger)

/-- The ledger is one of the pool. -/
structure About (l : Ledger) (pool : Pool Pool.Errand) : Prop where
  site : l.site = pool.site
  clock : l.clock = pool.clock
  sound : l.Sound tablePrefix window
  unused : ∀ i, pool.members.length ≤ i → l.duty i = .idle
  since : ∀ member ∈ pool.members, member.since ≤ pool.clock
  /-- What a member has pushed is noted. -/
  pushed : ∀ member ∈ pool.members, ∀ deed ∈ member.log, deed.call.isPush tablePrefix = true →
    ∀ key version, deed.written? key = some version →
      ∃ generation time, version = decimal generation ∧ generation < l.next ∧ l.pushed generation = some time

variable {tablePrefix window} {l l' : Ledger}

/-- What others write and delete is no pointer and not the backfill marker. -/
theorem sound_of_outside {key : String} {store : Store} (hsound : l.Sound tablePrefix window)
    (hkey : (rules tablePrefix window).outside key) (hnext : l.next ≤ store.nextGeneration)
    (hget : ∀ other, other ≠ key → store.get? other = l.site.store.get? other) :
    Ledger.Sound tablePrefix window { l with site.store := store } := by
  have hmarker : Ledger.marker? tablePrefix { l with site.store := store } = l.marker? tablePrefix :=
    hget _ (Ne.symm hkey.2)
  have hhas : ∀ {generation time}, Ledger.Has tablePrefix { l with site.store := store } generation time →
      l.Has tablePrefix generation time := by
    rintro generation time ⟨other, object, hother, hobject, hgeneration, hpushed⟩
    have hne : other ≠ key := by
      rintro rfl
      rw [hkey.1] at hother
      cases hother
    exact ⟨other, object, hother, (hget other hne).symm.trans hobject, hgeneration, hpushed⟩
  refine ⟨fun generation hle => hsound.unwritten _ (Nat.le_trans hnext hle), fun _ _ h => hsound.past _ _ (hhas h),
    fun generation time h => ?_⟩
  obtain ⟨object, hobject, hkept⟩ | hcovers := hsound.covered _ _ (hhas h)
  · exact .inl ⟨object, hmarker.trans hobject, hkept⟩
  · exact .inr hcovers

theorem later_of_outside {store : Store} (hsound : l.Sound tablePrefix window)
    (hsince : ∀ key, Store.Since key l.site.store store) (j : Nat) :
    Ledger.Later j l { l with site.store := store } where
  clock := Nat.le_refl _
  since := hsince
  pushed _ _ := rfl
  fresh _ _ hle _ hpushed := by
    rw [hsound.unwritten _ hle] at hpushed
    cases hpushed
  duty := rfl

theorem About.outside {pool : Pool Pool.Errand} {key : String} {store : Store} (h : About tablePrefix window l pool)
    (hkey : (rules tablePrefix window).outside key) (hnext : l.next ≤ store.nextGeneration)
    (hget : ∀ other, other ≠ key → store.get? other = l.site.store.get? other) :
    About tablePrefix window { l with site.store := store } { pool with site.store := store } where
  site := by rw [h.site]
  clock := h.clock
  sound := sound_of_outside h.sound hkey hnext hget
  unused := h.unused
  since := h.since
  pushed member hmember deed hdeed hpush key version hwritten := by
    obtain ⟨generation, time, hversion, hlt, hpushed⟩ := h.pushed member hmember deed hdeed hpush key version hwritten
    exact ⟨generation, time, hversion, Nat.lt_of_lt_of_le hlt hnext, hpushed⟩

theorem About.pass {pool : Pool Pool.Errand} (h : About tablePrefix window l pool) (span : Duration) :
    About tablePrefix window { l with clock := l.clock + span } { pool with clock := pool.clock + span } where
  site := h.site
  clock := by rw [h.clock]
  sound := by
    refine ⟨h.sound.unwritten, fun _ _ hhas => Nat.le_trans (h.sound.past _ _ hhas) (Nat.le_add_right _ _), ?_⟩
    intro generation time hhas
    obtain ⟨object, hobject, hkept⟩ | ⟨i, hcovers⟩ := h.sound.covered _ _ hhas
    · exact .inl ⟨object, hobject, hkept.imp_right fun h => Nat.le_trans h (Nat.le_add_right _ _)⟩
    · exact .inr ⟨i, hcovers.mono (Nat.le_add_right _ _)⟩
  unused := h.unused
  since member hmember := Nat.le_trans (h.since member hmember) (Nat.le_add_right _ _)
  pushed := h.pushed

theorem later_of_pass (l : Ledger) (span : Duration) (j : Nat) : Ledger.Later j l { l with clock := l.clock + span } where
  clock := Nat.le_add_right _ _
  since key := .refl key _
  pushed _ _ := rfl
  fresh _ _ hle hlt _ := absurd hlt (Nat.not_lt.2 hle)
  duty := rfl

/-- A pointer that a member pushes is noted. -/
theorem pushed_of_moves {i : Nat} {s : Bool} {c : CloudCall} {reply : c.Reply} {store : Store} {key version : String}
    (h : Ledger.Moves tablePrefix window s i c l reply l') (hpush : c.isPush tablePrefix = true)
    (hwritten : Deed.written? key ⟨store, c, reply⟩ = some version) :
    ∃ generation time, version = decimal generation ∧ generation < l'.next ∧ l'.pushed generation = some time := by
  obtain ⟨asked, body, rfl, -⟩ := Ledger.isPush_iff.1 hpush
  obtain ⟨-, hreply⟩ := Deed.of_written? hwritten
  obtain ⟨-, hunwritten⟩ | ⟨hwritten, -, now, hsite⟩ := h.site.put_cases
  · exact absurd hreply (hunwritten version)
  · refine ⟨l.next, l.clock, ?_, ?_, ?_⟩
    · rw [hreply] at hwritten
      exact PutResult.written.inj (Except.ok.inj hwritten)
    · rw [Ledger.next, Ledger.next, hsite]
      exact Nat.lt_succ_self _
    · rw [h.pushed, if_pos hpush, Function.update_self]

theorem About.call {pool pool' : Pool Pool.Errand} {i : Nat} {member member' : Member Pool.Errand} {c : CloudCall}
    {next : c.Reply → CloudProgram (Except Failure Unit)} {reply : c.Reply} (h : About tablePrefix window l pool)
    (hmember : pool.members[i]? = some member)
    (hallowed : Ledger.Allowed tablePrefix (subscribes member.errand) i c l)
    (hmoves : Ledger.Moves tablePrefix window (subscribes member.errand) i c l reply l')
    (htimely : Timely c reply pool.clock member.since)
    (hmember' : member' = ⟨member.errand, next reply, pool.clock, member.log ++ [⟨pool.site.store, c, reply⟩]⟩)
    (hpool' : pool' = ⟨l'.site, pool.clock, pool.members.set i member'⟩) : About tablePrefix window l' pool' := by
  have hi : i < pool.members.length := (List.getElem?_eq_some_iff.1 hmember).1
  have honward := hmoves.onward h.sound
  subst hpool'
  refine ⟨rfl, hmoves.clock.trans h.clock, h.sound.moves hallowed hmoves htimely.works, fun j hj => ?_,
    fun other hother => ?_, fun other hother deed hdeed hpush key version hwritten => ?_⟩
  · rw [List.length_set] at hj
    rw [hmoves.others j (Nat.ne_of_gt (Nat.lt_of_lt_of_le hi hj))]
    exact h.unused j hj
  · rcases List.mem_or_eq_of_mem_set hother with hother | rfl
    · exact h.since other hother
    · rw [hmember']
  · have hlasts : ∀ other ∈ pool.members, deed ∈ other.log →
        ∃ generation time, version = decimal generation ∧ generation < l'.next ∧ l'.pushed generation = some time := by
      intro other hother hdeed
      obtain ⟨generation, time, hversion, hlt, hpushed⟩ := h.pushed other hother deed hdeed hpush key version hwritten
      exact ⟨generation, time, hversion, Nat.lt_of_lt_of_le hlt honward.next_le,
        (honward.pushed generation hlt).trans hpushed⟩
    rcases List.mem_or_eq_of_mem_set hother with hother | rfl
    · exact hlasts other hother hdeed
    · rw [hmember'] at hdeed
      rcases List.mem_append.1 hdeed with hdeed | hdeed
      · exact hlasts member (List.mem_of_getElem? hmember) hdeed
      · obtain rfl := List.mem_singleton.1 hdeed
        exact pushed_of_moves hmoves hpush hwritten

theorem nextGeneration_le_of_step {pool pool' : Pool Pool.Errand} (h : Pool.Step (rules tablePrefix window) pool pool') :
    pool.site.store.nextGeneration ≤ pool'.site.store.nextGeneration := by
  cases h with
  | call _ _ hanswers _ => exact (hanswers.since "").next
  | write => exact Nat.le_succ _
  | _ => exact Nat.le_refl _

variable (tablePrefix window)

/-- **The contract of all errands**, from what each of them keeps to. -/
def contract (hkeeps : ∀ {errand : Pool.Errand} {i : Nat} {t : View}, (rules tablePrefix window).allows errand →
      t.ledger.duty i = .idle → t.log = [] → (Pool.Errand.program tablePrefix errand).Keeps
        (env tablePrefix window i (subscribes errand)) (Returned tablePrefix i errand) t) :
    Pool.Contract (rules tablePrefix window) Ledger View where
  about := About tablePrefix window
  within pool := pool.site.store.nextGeneration ≤ 2 ^ 63
  view l member := ⟨l, member.since, member.log⟩
  env i errand := env tablePrefix window i (subscribes errand)
  post := Returned tablePrefix
  later := Ledger.Later
  back h hwithin := Nat.le_trans (nextGeneration_le_of_step h) hwithin
  lasts {i l l' member} hlater h := by
    cases hprogram : member.program with
    | done r =>
      rw [hprogram] at h
      intro hr
      obtain ⟨hidle, hgone⟩ := h hr
      exact ⟨hlater.duty.trans hidle, fun hs version hclaims => (hgone hs version hclaims).onward hlater.toOnward⟩
    | halt => trivial
    | ask c next =>
      rw [hprogram] at h
      refine ⟨fun l'' hl'' => h.1 l'' (hlater.trans hl''), fun reply t' ht' => ?_⟩
      obtain ⟨l'', hreplied⟩ := ht'
      exact h.2 reply t' ⟨l'', { hreplied with later := hlater.trans hreplied.later }⟩
  join {l pool errand} h hallows := by
    refine ⟨⟨h.site, h.clock, h.sound, fun i hi => h.unused i ?_, fun member hmember => ?_, fun member hmember => ?_⟩,
      hkeeps hallows (h.unused _ (Nat.le_refl _)) rfl⟩
    · rw [List.length_append] at hi
      exact Nat.le_of_succ_le hi
    · rcases List.mem_append.1 hmember with hmember | hmember
      · exact h.since member hmember
      · rw [List.mem_singleton.1 hmember]
    · rcases List.mem_append.1 hmember with hmember | hmember
      · exact h.pushed member hmember
      · rw [List.mem_singleton.1 hmember]
        exact fun _ hdeed => absurd hdeed List.not_mem_nil
  call {l pool i member c next reply site member' pool'} h hmember hadmits hanswers htimely hmember' hpool' hwithin := by
    rw [← h.site] at hanswers
    obtain ⟨l', hmoves, rfl⟩ := Ledger.exists_moves hanswers
    have hallowed := hadmits l (.refl i l) h.sound
    have hsince : member.since ≤ l.clock := h.clock ▸ h.since member (List.mem_of_getElem? hmember)
    refine ⟨l', h.call hmember hallowed hmoves htimely hmember' hpool', ⟨l, ?_⟩, fun j hj => hmoves.later h.sound hj⟩
    rw [hmember']
    refine ⟨.refl i l, h.sound, hsince, h.clock ▸ htimely, hmoves, h.clock.symm, by rw [h.site], ?_⟩
    rw [hpool'] at hwithin
    exact hwithin
  pass {l pool} span h := ⟨_, h.pass span, later_of_pass l span⟩
  write {l pool key} body now h hkey := by
    have hnext : l.next ≤ (l.site.store.write key body now).nextGeneration := Nat.le_succ _
    have habout := h.outside hkey hnext fun other hother => Store.get?_write_of_ne l.site.store body now hother
    rw [h.site] at habout
    refine ⟨_, habout, fun j => ?_⟩
    rw [← h.site]
    exact later_of_outside h.sound (fun other => .write other _ key body now) j
  remove {l pool key} h hkey := by
    have hnext : l.next ≤ (l.site.store.remove key).nextGeneration := Nat.le_refl _
    have habout := h.outside hkey hnext fun other hother => Store.get?_remove_of_ne l.site.store hother
    rw [h.site] at habout
    refine ⟨_, habout, fun j => ?_⟩
    rw [← h.site]
    exact later_of_outside h.sound (fun other => .remove other _ key) j

end Contract
end Upkeep
end Intake
