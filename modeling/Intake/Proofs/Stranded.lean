import Intake.Proofs.Draining
import Intake.Proofs.Trial
/-!
# Stranded — no backlog stays without its marker

When all enqueuings, monitors and subscribers of a table have returned, a pointer that one of them has pushed is there only
together with the backfill marker, and this marker is one that no subscriber has worked for (`Upkeep.marker_of_pushed`).
So it starts the next subscriber.
-/
namespace Intake

namespace World

/-- No call makes keys fail. -/
theorem failing_answer {w : World} (hcalm : w.Calm) (c : CloudCall) :
    (answer c w).2.bucket.failing = w.bucket.failing := by
  cases c with
  | get key =>
    simp only [answer, Bucket.get]
    split
    · rfl
    · split <;> rfl
  | head key =>
    simp only [answer, Bucket.head]
    split <;> rfl
  | list start delimiter =>
    simp only [answer, Bucket.list]
    split <;> rfl
  | put key body precondition =>
    have hbucket : (w.bucket.put key body precondition w.instant).2.failing = w.bucket.failing := by
      simp only [Bucket.put]
      split
      · rfl
      · rcases w.bucket.store.put_cases key body precondition w.instant with ⟨current, hput⟩ | ⟨-, hput⟩ <;>
          rw [hput] <;> rfl
    simp only [answer, put]
    split <;> exact hbucket
  | delete key precondition =>
    simp only [answer, Bucket.delete]
    split <;> rfl
  | sleep span =>
    simp only [answer, sleep, hcalm.planned]
    rfl
  | _ => rfl

end World

namespace Upkeep

variable {tablePrefix : String} {window : Duration}

/-- Every errand ends with nothing on its hands. -/
theorem keeps_program {errand : Pool.Errand} {i : Nat} {t : View} (hallows : (rules tablePrefix window).allows errand)
    (hidle : t.ledger.duty i = .idle) (hlog : t.log = []) :
    (Pool.Errand.program tablePrefix errand).Keeps (env tablePrefix window i (subscribes errand))
      (Returned tablePrefix i errand) t := by
  cases errand with
  | subscribe ctx =>
    refine Program.Keeps.mono (fun r t' h e => ?_) (keeps_run hallows hidle hlog).plain_ok
    obtain ⟨-, hclosed⟩ := h e
    exact ⟨hclosed.idle, fun _ _ hclaimed => hclosed.gone hclaimed⟩
  | enqueue ctx marker =>
    refine Program.Keeps.mono (fun r t' h e => ?_) (keeps_enqueue hallows.1 hallows.2 hidle).plain_ok
    obtain ⟨-, hidle⟩ := h e
    exact ⟨hidle, nofun⟩
  | monitor ctx =>
    refine Program.Keeps.mono (fun r t' h e => ?_) (keeps_ensureSubscriber hallows (.inl hidle)).plain_ok
    obtain ⟨-, hidle⟩ := h e
    exact ⟨hidle, nofun⟩

/-- A ledger to begin with: nothing was pushed, and nobody has anything on their hands. -/
theorem about_start {start : Pool Pool.Errand} (h : start.members = []) :
    About tablePrefix window ⟨start.site, start.clock, fun _ => none, fun _ => .idle⟩ start := by
  have hnone : ∀ generation time,
      ¬ Ledger.Has tablePrefix ⟨start.site, start.clock, fun _ => none, fun _ => .idle⟩ generation time := by
    rintro generation time ⟨_, _, -, -, -, hpushed⟩
    cases hpushed
  refine ⟨rfl, rfl, ⟨fun _ _ => rfl, fun _ _ hhas => absurd hhas (hnone _ _), fun _ _ hhas => absurd hhas (hnone _ _)⟩,
    fun _ _ => rfl, ?_, ?_⟩ <;> simp [h]

/-- A pointer that was pushed is noted. -/
theorem About.has {l : Ledger} {pool : Pool Pool.Errand} (h : About tablePrefix window l pool)
    {member : Member Pool.Errand} {deed : Deed} {pointer : String} {object : StoredObject} (hmember : member ∈ pool.members)
    (hdeed : deed ∈ member.log) (hpush : deed.call.isPush tablePrefix = true)
    (hwritten : deed.written? pointer = some (decimal object.generation))
    (hobject : pool.site.store.get? pointer = some object) : ∃ time, l.Has tablePrefix object.generation time := by
  obtain ⟨generation, time, hversion, -, hpushed⟩ := h.pushed member hmember deed hdeed hpush pointer _ hwritten
  obtain rfl := decimal_inj hversion
  obtain ⟨store, c, reply⟩ := deed
  obtain ⟨asked, body, rfl, hin⟩ := Ledger.isPush_iff.1 hpush
  obtain ⟨rfl, -⟩ := Deed.of_written? hwritten
  exact ⟨time, asked, object, hin, h.site ▸ hobject, rfl, hpushed⟩

/-- **No backlog is stranded.**  When all errands of the table have returned, the backfill marker is there if a pointer is
there that one of them has pushed, and it is not one that a subscriber had claimed.  So many objects were never written
that a generation would not fit 63 bits. -/
theorem marker_of_pushed {start pool : Pool Pool.Errand} {member : Member Pool.Errand} {deed : Deed} {pointer : String}
    {object : StoredObject} (hstart : start.members = [])
    (hsteps : Relation.ReflTransGen (Pool.Step (rules tablePrefix window)) start pool)
    (hreturned : ∀ member ∈ pool.members, member.program = .done (.ok ()))
    (hroom : pool.site.store.nextGeneration ≤ 2 ^ 63) (hmember : member ∈ pool.members) (hdeed : deed ∈ member.log)
    (hpush : deed.call.isPush tablePrefix = true) (hwritten : deed.written? pointer = some (decimal object.generation))
    (hobject : pool.site.store.get? pointer = some object) :
    ∃ marker, pool.site.store.get? (BackfillMarker.keyOf tablePrefix) = some marker ∧
      ∀ subscriber ∈ pool.members, ∀ ctx, subscriber.errand = .subscribe ctx →
        claimed? tablePrefix subscriber.log ≠ some (decimal marker.generation) := by
  obtain ⟨l, habout, hgoes⟩ := (contract tablePrefix window keeps_program).holds (about_start hstart) hstart hsteps hroom
  have hended : ∀ (i : Nat) (member : Member Pool.Errand), pool.members[i]? = some member →
      Returned tablePrefix i member.errand (.ok ()) ⟨l, member.since, member.log⟩ := by
    intro i member hi
    have hgo := hgoes i member hi
    rw [hreturned member (List.mem_of_getElem? hi)] at hgo
    exact hgo
  have hidle : ∀ i, l.duty i = .idle := by
    intro i
    cases hi : pool.members[i]? with
    | some member => exact (hended i member hi rfl).1
    | none => exact habout.unused i (List.getElem?_eq_none_iff.1 hi)
  obtain ⟨time, hhas⟩ := habout.has hmember hdeed hpush hwritten hobject
  obtain ⟨marker, hmarker, -⟩ | ⟨i, hcovers⟩ := habout.sound.covered _ _ hhas
  · refine ⟨marker, habout.site ▸ hmarker, fun subscriber hsubscriber ctx herrand hclaimed => ?_⟩
    obtain ⟨i, hi⟩ := List.mem_iff_getElem?.1 hsubscriber
    obtain ⟨-, hgone⟩ := hended i subscriber hi rfl
    obtain ⟨generation, hversion, -, hother⟩ := hgone (by rw [herrand]; rfl) _ hclaimed
    exact hother marker hmarker (decimal_inj hversion)
  · rw [hidle i] at hcovers
    exact hcovers.elim

/-! ## A race on the trial table -/

/-- The sandbox answers in time, as long as no key is made to fail. -/
theorem abides (tablePrefix : String) (window : Duration) :
    World.Abides (rules tablePrefix window) fun w => w.bucket.failing = [] where
  replies {w since} c _ hfine hsince := by
    have hfault : ∀ key, w.bucket.fault? key = none := fun key => by rw [Bucket.fault?, hfine]; rfl
    cases c with
    | get key =>
      rintro ⟨fault, e, hfound⟩
      simp only [World.answer, Bucket.get, hfault] at e
      split at e
      · cases e
      · cases e
        cases hfound
    | head key =>
      rintro ⟨fault, e, -⟩
      simp only [World.answer, Bucket.head, hfault] at e
      cases e
    | list start delimiter =>
      rintro ⟨fault, e, -⟩
      simp only [World.answer, Bucket.list, hfault] at e
      cases e
    | put key body precondition =>
      rintro ⟨fault, e, -⟩
      simp only [World.answer, World.put, Bucket.put, hfault] at e
      split at e <;> cases e
    | delete key precondition =>
      rintro ⟨fault, e, -⟩
      simp only [World.answer, Bucket.delete, hfault] at e
      cases e
    | now => rfl
    | sleep span => exact Nat.add_le_add_right hsince span
    | _ => exact id
  lasts c hcalm hfine := (World.failing_answer hcalm c).trans hfine

def serving : Pool.Errand := .subscribe Trial.context

/-- A subscriber of the trial table that has just found the backlog empty. -/
def emptied : CloudProgram (Except Failure Unit) × World :=
  (Trial.table []).runFor 7 (Pool.Errand.program "d/t" serving)

def pushing : Pool.Errand := .enqueue Trial.context "d/t/a/_SUCCESS"

/-- Now a pointer is pushed, and the backfill marker is still there. -/
def filled : CloudProgram (Except Failure Unit) × World := emptied.2.runFor 5 (Pool.Errand.program "d/t" pushing)

/-- The subscriber deletes the backfill marker and returns. -/
def drained : CloudProgram (Except Failure Unit) × World := filled.2.runFor 3 emptied.1

/-- The monitor of the enqueuing waits for the marker, and posts it. -/
def watched : CloudProgram (Except Failure Unit) × World := drained.2.runFor 30 filled.1

/-- The two errands take turns. -/
theorem steps_race {w : World} (h : w.Steady (fun w => w.bucket.failing = []) 45)
    {first second third fourth : CloudProgram (Except Failure Unit) × World}
    (hfirst : first = w.runFor 7 (Pool.Errand.program "d/t" serving))
    (hsecond : second = first.2.runFor 5 (Pool.Errand.program "d/t" pushing))
    (hthird : third = second.2.runFor 3 first.1) (hfourth : fourth = third.2.runFor 30 second.1) :
    ∃ since since', Relation.ReflTransGen (Pool.Step (rules "d/t" Trial.context.settings.subscriberWait))
      ⟨w.site, w.elapsed, []⟩ ⟨fourth.2.site, fourth.2.elapsed,
        [⟨serving, third.1, since, w.deedsFor 7 (Pool.Errand.program "d/t" serving) ++ second.2.deedsFor 3 first.1⟩,
          ⟨pushing, fourth.1, since',
            first.2.deedsFor 5 (Pool.Errand.program "d/t" pushing) ++ third.2.deedsFor 30 second.1⟩]⟩ := by
  have habides := abides "d/t" Trial.context.settings.subscriberWait
  have hplain : Plain Trial.context.settings.subscriberWait Trial.context := ⟨rfl, rfl⟩
  have hserving : (rules "d/t" Trial.context.settings.subscriberWait).allows serving := hplain
  have hpushing : (rules "d/t" Trial.context.settings.subscriberWait).allows pushing := ⟨hplain, rfl⟩
  obtain ⟨since₁, log₁, hsteady₁, hsince₁, hlog₁, hsteps₁⟩ := World.steps_runFor habides h
    (show 7 ≤ 45 by decide) hfirst (Nat.le_refl _) serving [] [] []
  obtain ⟨since₂, log₂, hsteady₂, hsince₂, hlog₂, hsteps₂⟩ := World.steps_runFor habides hsteady₁
    (show 5 ≤ 45 - 7 by decide) hsecond (Nat.le_refl _) pushing [] [⟨serving, first.1, since₁, log₁⟩] []
  obtain ⟨since₃, log₃, hsteady₃, -, hlog₃, hsteps₃⟩ := World.steps_runFor habides hsteady₂
    (show 3 ≤ 45 - 7 - 5 by decide) hthird (Nat.le_trans hsince₁ (World.elapsed_le_runFor hsecond)) serving log₁ []
    [⟨pushing, second.1, since₂, log₂⟩]
  obtain ⟨since₄, log₄, -, -, hlog₄, hsteps₄⟩ := World.steps_runFor habides hsteady₃
    (show 30 ≤ 45 - 7 - 5 - 3 by decide) hfourth (Nat.le_trans hsince₂ (World.elapsed_le_runFor hthird)) pushing log₂
    [⟨serving, third.1, since₃, log₃⟩] []
  have hserve := Pool.Step.enter hserving w.site w.elapsed []
  have hpush := Pool.Step.enter hpushing first.2.site first.2.elapsed [⟨serving, first.1, since₁, log₁⟩]
  rw [List.nil_append] at hlog₁ hlog₂
  rw [hlog₁] at hlog₃
  rw [hlog₂] at hlog₄
  rw [← hlog₃, ← hlog₄]
  exact ⟨since₃, since₄,
    (((Relation.ReflTransGen.head hserve hsteps₁).tail hpush).trans hsteps₂).trans (hsteps₃.trans hsteps₄)⟩

/-- A pointer is pushed after the subscriber has found the backlog empty and before it deletes the backfill marker. -/
theorem marker_of_pushed_race : ∃ (pool : Pool Pool.Errand) (subscriber : Member Pool.Errand) (marker : StoredObject),
    (∀ member ∈ pool.members, member.program = .done (.ok ())) ∧ subscriber ∈ pool.members ∧
    claimed? "d/t" subscriber.log = some "6" ∧
    (pool.site.store.get? "d/t/_backlog/a/_SUCCESS").isSome = true ∧
    pool.site.store.get? (BackfillMarker.keyOf "d/t") = some marker ∧ decimal marker.generation ≠ "6" := by
  have hsteady : (Trial.table []).Steady (fun w => w.bucket.failing = []) 45 :=
    Trial.steady_table _ (by decide +kernel) (by decide)
  obtain ⟨since, since', hsteps⟩ := steps_race hsteady emptied.eq_1 filled.eq_1 drained.eq_1 watched.eq_1
  have hreturned : World.hasReturned drained.1 = true ∧ World.hasReturned watched.1 = true := by decide +kernel
  have hclaimed : claimed? "d/t" ((Trial.table []).deedsFor 7 (Pool.Errand.program "d/t" serving) ++
      filled.2.deedsFor 3 emptied.1) = some "6" := by decide +kernel
  have hpushed : (emptied.2.deedsFor 5 (Pool.Errand.program "d/t" pushing) ++ drained.2.deedsFor 30 filled.1).any
      (fun deed => deed.call.isPush "d/t" && deed.written? "d/t/_backlog/a/_SUCCESS" == some (decimal 9)) = true := by
    decide +kernel
  have hstore : (watched.2.site.store.get? "d/t/_backlog/a/_SUCCESS").map (·.generation) = some 9 ∧
      watched.2.site.store.nextGeneration ≤ 2 ^ 63 := by decide +kernel
  -- how the two got there matters no more
  generalize (Trial.table []).deedsFor 7 (Pool.Errand.program "d/t" serving) ++ filled.2.deedsFor 3 emptied.1 = log
    at hsteps hclaimed
  generalize emptied.2.deedsFor 5 (Pool.Errand.program "d/t" pushing) ++ drained.2.deedsFor 30 filled.1 = log'
    at hsteps hpushed
  generalize drained = third at hsteps hreturned
  generalize watched = fourth at hsteps hreturned hstore
  have hended : ∀ member ∈ [(⟨serving, third.1, since, log⟩ : Member Pool.Errand), ⟨pushing, fourth.1, since', log'⟩],
      member.program = .done (.ok ()) :=
    List.forall_mem_cons.2 ⟨World.eq_done_of_hasReturned hreturned.1,
      List.forall_mem_singleton.2 (World.eq_done_of_hasReturned hreturned.2)⟩
  obtain ⟨deed, hmem, hdeed⟩ := List.any_eq_true.1 hpushed
  rw [Bool.and_eq_true, beq_iff_eq] at hdeed
  obtain ⟨object, hobject, hgeneration⟩ := Option.map_eq_some_iff.1 hstore.1
  rw [← hgeneration] at hdeed
  obtain ⟨marker, hmarker, hother⟩ := marker_of_pushed rfl hsteps hended hstore.2
    (List.mem_cons_of_mem _ List.mem_cons_self) hmem hdeed.1 hdeed.2 hobject
  refine ⟨_, _, marker, hended, List.mem_cons_self, hclaimed, ?_, hmarker, fun e => ?_⟩
  · exact Option.isSome_iff_exists.2 ⟨object, hobject⟩
  · exact hother _ List.mem_cons_self Trial.context rfl (by rw [e]; exact hclaimed)

end Upkeep
end Intake
