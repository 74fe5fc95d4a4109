import Intake.Proofs.Pool
/-!
# Ledger — who sees to a pointer that was pushed

A pointer that was pushed must not be forgotten: either the backfill marker is there, and is younger than the pointer or
has been there with it for the time that a monitor waits, or some invocation has it on its hands.  An enqueuing has the
pointer that it pushed; a monitor that deletes an abandoned marker has all pointers, until the marker is posted again; and
a subscriber that deletes its marker has those that it will look for.  The ledger notes these duties, and drops one as
soon as all is well without it.  No call that is allowed leaves a pointer to nobody (`Ledger.Sound.moves`).
-/
namespace Intake

def CloudCall.isPush (tablePrefix : String) : CloudCall → Bool
  | .put key _ .always => startsWith (Backlog.folder tablePrefix) key
  | _ => false

def CloudCall.isClear (tablePrefix : String) : CloudCall → Bool
  | .delete key _ => key == BackfillMarker.keyOf tablePrefix
  | _ => false

/-- What an invocation has on its hands. -/
inductive Duty where
  | idle
  /-- The pointer that was written under this generation. -/
  | pointer (generation : Nat)
  /-- All pointers of older generations: the backfill marker was deleted to be posted again. -/
  | replacing (generation : Nat)
  /-- Those of them that have been there for the time that a monitor waits: the backfill marker was deleted. -/
  | rechecking (generation : Nat)

/-- The duty is about a pointer of this generation that was pushed at this time. -/
def Duty.Covers (window clock : Duration) : Duty → (generation : Nat) → (time : Duration) → Prop
  | .idle, _, _ => False
  | .pointer own, generation, _ => generation = own
  | .replacing next, generation, _ => generation < next
  | .rechecking next, generation, time => generation < next ∧ time + window ≤ clock

theorem Duty.Covers.mono {window clock clock' : Duration} {duty : Duty} {generation : Nat} {time : Duration}
    (h : duty.Covers window clock generation time) (hclock : clock ≤ clock') :
    duty.Covers window clock' generation time := by
  cases duty with
  | rechecking => exact ⟨h.1, Nat.le_trans h.2 hclock⟩
  | _ => exact h

/-- A site and its clock, with notes: when which generation was written as a pointer, and what each member of the pool
has on its hands. -/
structure Ledger where
  site : Site
  clock : Duration
  pushed : Nat → Option Duration
  duty : Nat → Duty

namespace Ledger

def next (l : Ledger) : Nat := l.site.store.nextGeneration

section Defs

variable (tablePrefix : String) (window : Duration) (l : Ledger)

def marker? : Option StoredObject := l.site.store.get? (BackfillMarker.keyOf tablePrefix)

/-- A pointer of this generation is there, which was pushed at this time. -/
def Has (generation : Nat) (time : Duration) : Prop :=
  ∃ key object, startsWith (Backlog.folder tablePrefix) key = true ∧ l.site.store.get? key = some object ∧
    object.generation = generation ∧ l.pushed generation = some time

/-- The backfill marker sees to the pointer. -/
def Kept (generation : Nat) (time : Duration) : Prop :=
  ∃ object, l.marker? tablePrefix = some object ∧ (generation < object.generation ∨ time + window ≤ l.clock)

/-- All is well without what a member has on its hands. -/
def Relieved (i : Nat) : Prop :=
  ∀ generation time, l.Has tablePrefix generation time →
    l.Kept tablePrefix window generation time ∨ ∃ j ≠ i, (l.duty j).Covers window l.clock generation time

/-- **Every pointer that was pushed is seen to.** -/
structure Sound : Prop where
  unwritten : ∀ generation, l.next ≤ generation → l.pushed generation = none
  past : ∀ generation time, l.Has tablePrefix generation time → time ≤ l.clock
  covered : ∀ generation time, l.Has tablePrefix generation time →
    l.Kept tablePrefix window generation time ∨ ∃ i, (l.duty i).Covers window l.clock generation time

end Defs

variable {tablePrefix : String} {window : Duration} {l l' l'' : Ledger} {generation : Nat} {time : Duration}

theorem Has.lt (h : l.Has tablePrefix generation time) : generation < l.next := by
  obtain ⟨key, object, -, hobject, rfl, -⟩ := h
  exact Store.generation_lt hobject

/-! ## What others may have done -/

/-- **Time has passed and objects were written**: what is older is as it was, and what was pushed was pushed since. -/
structure Onward (l l' : Ledger) : Prop where
  clock : l.clock ≤ l'.clock
  since : ∀ key, Store.Since key l.site.store l'.site.store
  pushed : ∀ generation, generation < l.next → l'.pushed generation = l.pushed generation
  fresh : ∀ generation time, l.next ≤ generation → generation < l'.next → l'.pushed generation = some time →
    l.clock ≤ time

namespace Onward

theorem next_le (h : Onward l l') : l.next ≤ l'.next := (h.since "").next

theorem refl (l : Ledger) : Onward l l where
  clock := Nat.le_refl _
  since key := .refl key _
  pushed _ _ := rfl
  fresh _ _ hle hlt _ := absurd hlt (Nat.not_lt.2 hle)

theorem trans (h : Onward l l') (h' : Onward l' l'') : Onward l l'' where
  clock := Nat.le_trans h.clock h'.clock
  since key := (h.since key).trans (h'.since key)
  pushed generation hlt := (h'.pushed generation (Nat.lt_of_lt_of_le hlt h.next_le)).trans (h.pushed generation hlt)
  fresh generation time hle hlt hpushed := by
    by_cases hold : generation < l'.next
    · exact h.fresh generation time hle hold ((h'.pushed generation hold) ▸ hpushed)
    · exact Nat.le_trans h.clock (h'.fresh generation time (Nat.le_of_not_lt hold) hlt hpushed)

/-- A pointer that is there was there before, or is younger and was pushed since. -/
theorem has (h : Onward l l') (hhas : l'.Has tablePrefix generation time) :
    l.Has tablePrefix generation time ∨ l.next ≤ generation ∧ l.clock ≤ time := by
  have hnew := hhas.lt
  obtain ⟨key, object, hkey, hobject, rfl, hpushed⟩ := hhas
  by_cases hold : object.generation < l.next
  · rw [h.pushed _ hold] at hpushed
    exact .inl ⟨key, object, hkey, (h.since key).object object hobject hold, rfl, hpushed⟩
  · exact .inr ⟨Nat.le_of_not_lt hold, h.fresh _ _ (Nat.le_of_not_lt hold) hnew hpushed⟩

/-- The backfill marker is as it was, or younger. -/
theorem marker (h : Onward l l') {object : StoredObject} (hobject : l'.marker? tablePrefix = some object) :
    l.marker? tablePrefix = some object ∨ l.next ≤ object.generation := by
  by_cases hold : object.generation < l.next
  · exact .inl ((h.since _).object object hobject hold)
  · exact .inr (Nat.le_of_not_lt hold)

end Onward

/-- What a member finds when others have acted: its duty is what it was. -/
structure Later (i : Nat) (l l' : Ledger) : Prop extends Onward l l' where
  duty : l'.duty i = l.duty i

theorem Later.refl (i : Nat) (l : Ledger) : Later i l l := ⟨.refl l, rfl⟩

theorem Later.trans {i : Nat} (h : Later i l l') (h' : Later i l' l'') : Later i l l'' :=
  ⟨h.toOnward.trans h'.toOnward, h'.duty.trans h.duty⟩

/-! ## Calls -/

section Calls

variable (tablePrefix : String) (window : Duration) (subscribes : Bool) (i : Nat)

/-- What a member has on its hands after a call, if it is not dropped. -/
def gains (l : Ledger) (c : CloudCall) : Duty :=
  if c.isPush tablePrefix then .pointer l.next
  else if c.isClear tablePrefix then if subscribes then .rechecking l.next else .replacing l.next
  else l.duty i

/-- **What a call makes of the ledger.**  A duty that nobody needs is dropped. -/
structure Moves (c : CloudCall) (l : Ledger) (reply : c.Reply) (l' : Ledger) : Prop where
  site : Site.Answers c l.site reply l'.site
  clock : l'.clock = l.clock
  pushed : l'.pushed = if c.isPush tablePrefix then Function.update l.pushed l.next (some l.clock) else l.pushed
  others : ∀ j ≠ i, l'.duty j = l.duty j
  duty : l'.Relieved tablePrefix window i ∧ l'.duty i = .idle ∨
    ¬ l'.Relieved tablePrefix window i ∧ l'.duty i = l.gains tablePrefix subscribes i c

/-- **The calls that leave no pointer to nobody**: a pointer is pushed by a member that has nothing on its hands, and a
subscriber deletes the backfill marker if it is older than all pointers. -/
structure Allowed (c : CloudCall) (l : Ledger) : Prop where
  push : c.isPush tablePrefix = true → l.duty i = .idle
  clear : ∀ precondition, subscribes = true → c = .delete (BackfillMarker.keyOf tablePrefix) precondition →
    l.duty i = .idle ∧ ∀ object, l.marker? tablePrefix = some object →
      Store.refuses? precondition (some object) = none →
      ∀ generation time, l.Has tablePrefix generation time → object.generation < generation

end Calls

section Moving

variable {subscribes : Bool} {i : Nat} {c : CloudCall} {reply : c.Reply}

theorem isPush_iff : c.isPush tablePrefix = true ↔
    ∃ key body, c = .put key body .always ∧ startsWith (Backlog.folder tablePrefix) key = true := by
  unfold CloudCall.isPush
  split
  · simp
  · rename_i hne
    simp only [Bool.false_eq_true, false_iff, not_exists, not_and]
    rintro key body rfl
    exact absurd rfl (hne key body)

theorem isClear_iff : c.isClear tablePrefix = true ↔
    ∃ precondition, c = .delete (BackfillMarker.keyOf tablePrefix) precondition := by
  unfold CloudCall.isClear
  split
  · simp
  · rename_i hne
    simp only [Bool.false_eq_true, false_iff, not_exists]
    rintro precondition rfl
    exact hne _ _ rfl

/-- What was pushed is what was there before, or what the call has pushed. -/
theorem Moves.has (h : Moves tablePrefix window subscribes i c l reply l') (hsound : l.Sound tablePrefix window)
    (hhas : l'.Has tablePrefix generation time) :
    l.Has tablePrefix generation time ∨ c.isPush tablePrefix = true ∧ generation = l.next ∧ time = l.clock := by
  obtain ⟨key, object, hkey, hobject, rfl, hpushed⟩ := hhas
  rw [h.pushed] at hpushed
  obtain hsame | ⟨body, precondition, now, rfl, -, hsite⟩ | ⟨precondition, rfl, -, hsite⟩ := h.site.get?_cases key
  · rw [hobject] at hsame
    have hlt : object.generation < l.next := Store.generation_lt hsame.symm
    refine .inl ⟨key, object, hkey, hsame.symm, rfl, ?_⟩
    split at hpushed
    · rwa [Function.update_of_ne (Nat.ne_of_lt hlt)] at hpushed
    · exact hpushed
  · have hgeneration : object.generation = l.next := by
      rw [hsite, Store.get?_write_self, Option.some.injEq] at hobject
      rw [← hobject]
      rfl
    rw [hgeneration] at hpushed ⊢
    split at hpushed
    · rename_i hpush
      rw [Function.update_self] at hpushed
      exact .inr ⟨hpush, rfl, (Option.some.inj hpushed).symm⟩
    · rw [hsound.unwritten _ (Nat.le_refl _)] at hpushed
      cases hpushed
  · rw [hsite, Store.get?_remove_self] at hobject
    cases hobject

/-- The backfill marker goes on seeing to a pointer, unless it is deleted. -/
theorem Moves.kept (h : Moves tablePrefix window subscribes i c l reply l') (hclear : c.isClear tablePrefix = false)
    (hhas : l.Has tablePrefix generation time) (hkept : l.Kept tablePrefix window generation time) :
    l'.Kept tablePrefix window generation time := by
  obtain ⟨object, hobject, hold⟩ := hkept
  obtain hsame | ⟨body, precondition, now, -, -, hsite⟩ | ⟨precondition, rfl, -⟩ :=
    h.site.get?_cases (BackfillMarker.keyOf tablePrefix)
  · exact ⟨object, hsame.trans hobject, by rw [h.clock]; exact hold⟩
  · refine ⟨⟨body, l.next, now⟩, ?_, .inl hhas.lt⟩
    rw [marker?, hsite]
    exact Store.get?_write_self ..
  · rw [isClear_iff.2 ⟨precondition, rfl⟩] at hclear
    cases hclear

theorem Moves.onward (h : Moves tablePrefix window subscribes i c l reply l') (hsound : l.Sound tablePrefix window) :
    Onward l l' where
  clock := Nat.le_of_eq h.clock.symm
  since := h.site.since
  pushed generation hlt := by
    rw [h.pushed]
    split
    · exact Function.update_of_ne (Nat.ne_of_lt hlt) _ _
    · rfl
  fresh generation time hle hlt hpushed := by
    rw [h.pushed] at hpushed
    split at hpushed
    · by_cases heq : generation = l.next
      · rw [heq, Function.update_self] at hpushed
        exact Nat.le_of_eq (Option.some.inj hpushed)
      · rw [Function.update_of_ne heq, hsound.unwritten _ hle] at hpushed
        cases hpushed
    · rw [hsound.unwritten _ hle] at hpushed
      cases hpushed

/-- For the others, a call of one member is something that may happen. -/
theorem Moves.later (h : Moves tablePrefix window subscribes i c l reply l') (hsound : l.Sound tablePrefix window)
    {j : Nat} (hj : j ≠ i) : Later j l l' :=
  ⟨h.onward hsound, h.others j hj⟩

/-- **No call that is allowed leaves a pointer to nobody.** -/
theorem Sound.moves (hsound : l.Sound tablePrefix window) (hallowed : Allowed tablePrefix subscribes i c l)
    (h : Moves tablePrefix window subscribes i c l reply l') (hworks : ¬ c.Failed reply) :
    l'.Sound tablePrefix window := by
  have hunwritten : ∀ generation, l'.next ≤ generation → l'.pushed generation = none := by
    intro generation hle
    have hold : l.next ≤ generation := Nat.le_trans (h.onward hsound).next_le hle
    rw [h.pushed]
    split
    · rename_i hpush
      obtain ⟨key, body, rfl, -⟩ := isPush_iff.1 hpush
      -- a pointer is written whatever is there
      have hnext : l.next < l'.next := by
        obtain ⟨hfailed, -⟩ | ⟨now, -, hsite⟩ := h.site
        · exact absurd hfailed hworks
        · rw [next, next, hsite]
          exact Nat.lt_succ_self _
      rw [Function.update_of_ne (Nat.ne_of_gt (Nat.lt_of_lt_of_le hnext hle))]
      exact hsound.unwritten _ hold
    · exact hsound.unwritten _ hold
  have hpast : ∀ generation time, l'.Has tablePrefix generation time → time ≤ l'.clock := by
    intro generation time hhas
    rw [h.clock]
    obtain hold | ⟨-, -, rfl⟩ := h.has hsound hhas
    · exact hsound.past _ _ hold
    · exact Nat.le_refl _
  refine ⟨hunwritten, hpast, fun generation time hhas => ?_⟩
  obtain ⟨hrelieved, -⟩ | ⟨-, hduty⟩ := h.duty
  · exact (hrelieved generation time hhas).imp_right fun ⟨j, _, hj⟩ => ⟨j, hj⟩
  have hothers : ∀ j ≠ i, (l.duty j).Covers window l.clock generation time →
      ∃ j, (l'.duty j).Covers window l'.clock generation time := fun j hj hcovers =>
    ⟨j, by rw [h.others j hj, h.clock]; exact hcovers⟩
  have hown : (l.gains tablePrefix subscribes i c).Covers window l.clock generation time →
      ∃ j, (l'.duty j).Covers window l'.clock generation time := fun hcovers =>
    ⟨i, by rw [hduty, h.clock]; exact hcovers⟩
  obtain hold | ⟨hpush, rfl, -⟩ := h.has hsound hhas
  · cases hclear : c.isClear tablePrefix with
    | true =>
      obtain ⟨precondition, rfl⟩ := isClear_iff.1 hclear
      have hgains : l.gains tablePrefix subscribes i (.delete (BackfillMarker.keyOf tablePrefix) precondition) =
          if subscribes then .rechecking l.next else .replacing l.next := if_pos hclear
      rw [hgains] at hown
      cases subscribes with
      | false => exact .inr (hown hold.lt)
      | true =>
        obtain ⟨hidle, hyounger⟩ := hallowed.clear precondition rfl rfl
        obtain ⟨object, hobject, hkept⟩ | ⟨j, hj⟩ := hsound.covered generation time hold
        · obtain hsame | ⟨_, _, _, hput, -⟩ | ⟨_, e, hfree, -⟩ := h.site.get?_cases (BackfillMarker.keyOf tablePrefix)
          · exact .inl ⟨object, hsame.trans hobject, by rw [h.clock]; exact hkept⟩
          · cases hput
          · cases e
            rw [show l.site.store.get? _ = some object from hobject] at hfree
            have hlt := hyounger object hobject hfree generation time hold
            exact .inr (hown ⟨hold.lt, hkept.resolve_left (Nat.lt_asymm hlt)⟩)
        · by_cases hij : j = i
          · rw [hij, hidle] at hj
            exact hj.elim
          · exact .inr (hothers j hij hj)
    | false =>
      obtain hkept | ⟨j, hj⟩ := hsound.covered generation time hold
      · exact .inl (h.kept hclear hold hkept)
      · by_cases hij : j = i
        · subst hij
          cases hpush : c.isPush tablePrefix with
          | true =>
            rw [hallowed.push hpush] at hj
            exact hj.elim
          | false =>
            refine .inr (hown ?_)
            rw [gains, hpush, hclear]
            exact hj
        · exact .inr (hothers j hij hj)
  · refine .inr (hown ?_)
    rw [gains, if_pos hpush]
    rfl

/-- **A member that has seen to its own duty has nothing on its hands.** -/
theorem Moves.idle (h : Moves tablePrefix window subscribes i c l reply l') (hsound : l.Sound tablePrefix window)
    (hpush : c.isPush tablePrefix = false)
    (hkept : ∀ generation time, l.Has tablePrefix generation time → l.Kept tablePrefix window generation time →
      l'.Kept tablePrefix window generation time)
    (hown : ∀ generation time, l'.Has tablePrefix generation time →
      (l.duty i).Covers window l'.clock generation time → l'.Kept tablePrefix window generation time) :
    l'.duty i = .idle := by
  obtain ⟨-, hidle⟩ | ⟨hneeded, -⟩ := h.duty
  · exact hidle
  · refine absurd (fun generation time hhas => ?_) hneeded
    obtain hold | ⟨hpush', -⟩ := h.has hsound hhas
    · obtain hold' | ⟨j, hj⟩ := hsound.covered generation time hold
      · exact .inl (hkept generation time hold hold')
      · by_cases hij : j = i
        · subst hij
          exact .inl (hown generation time hhas (by rw [h.clock]; exact hj))
        · exact .inr ⟨j, hij, by rw [h.others j hij, h.clock]; exact hj⟩
    · rw [hpush] at hpush'
      cases hpush'

/-- Whatever comes of a call, the ledger can be kept. -/
theorem exists_moves {site : Site} (h : Site.Answers c l.site reply site) :
    ∃ l', Moves tablePrefix window subscribes i c l reply l' ∧ l'.site = site := by
  let entry (duty : Duty) : Ledger := ⟨site, l.clock,
    if c.isPush tablePrefix then Function.update l.pushed l.next (some l.clock) else l.pushed,
    Function.update l.duty i duty⟩
  have hothers : ∀ duty, ∀ j ≠ i, (entry duty).duty j = l.duty j := fun _ j hj => Function.update_of_ne hj _ _
  have hown : ∀ duty, (entry duty).duty i = duty := fun _ => Function.update_self ..
  by_cases hrelieved : (entry .idle).Relieved tablePrefix window i
  · exact ⟨entry .idle, ⟨h, rfl, rfl, hothers _, .inl ⟨hrelieved, hown _⟩⟩, rfl⟩
  · refine ⟨entry (l.gains tablePrefix subscribes i c), ⟨h, rfl, rfl, hothers _, .inr ⟨fun hr => ?_, hown _⟩⟩, rfl⟩
    -- whether a duty is needed does not depend on what it is
    refine hrelieved fun generation time hhas => (hr generation time hhas).imp_right ?_
    rintro ⟨j, hj, hcovers⟩
    refine ⟨j, hj, ?_⟩
    rw [hothers _ j hj] at hcovers ⊢
    exact hcovers

end Moving
end Ledger
end Intake
