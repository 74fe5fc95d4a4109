import Intake.Proofs.Clock
import Intake.Proofs.Margin
/-!
# Endless — turns that take no time and change nothing

Questions to a job may be further apart than a wait for it is long.  Such a wait is over with its first question, and no
time has passed.  If the job in the lock is running for as many questions as are counted, the turn after it is the same,
and so are all others: the subscriber does not come to its end (`Subscriber.run_eq_none_of_stuck`).
-/
namespace Intake

open World Invocation

variable {ids : Nat → String} {w : World} {id : String}

namespace World

variable {jobPrefix tablePrefix : String}

/-- **The lock names a job that is running for as many questions as are counted**, and all calls are served. -/
structure Stuck (w : World) (jobPrefix tablePrefix id : String) : Prop where
  served : w.bucket.failing = []
  locked : w.bucket.store.lockBody jobPrefix tablePrefix = some (.job id)
  endless : ∃ j, Fields.get? id w.warehouse.jobs = some j ∧ ¬ j.script.Ends

/-- Another question changes nothing. -/
theorem Stuck.poll (h : w.Stuck jobPrefix tablePrefix id) :
    (∃ status, (w.warehouse.poll id).1 = some status ∧ status.isDone = false) ∧
      { w with warehouse := (w.warehouse.poll id).2 }.Stuck jobPrefix tablePrefix id := by
  obtain ⟨j, hjob, hends⟩ := h.endless
  have hpoll : w.warehouse.poll id =
      (some j.polled.status, { w.warehouse with jobs := Fields.insert id j.polled w.warehouse.jobs }) := by
    rw [ScriptedWarehouse.poll, hjob]
  have hrunning : ¬ j.polled.isDone = true := fun hdone =>
    hends (Nat.lt_of_lt_of_le (of_decide_eq_true hdone) (Nat.min_le_right _ _))
  rw [hpoll]
  refine ⟨⟨_, rfl, ?_⟩, h.served, h.locked, j.polled, Fields.get?_insert_self .., hends⟩
  rw [ScriptedJob.status, if_neg hrunning]
  rfl

theorem Stuck.claimed {trigger : ObjectInfo} {w' : World} (h : w.Stuck jobPrefix tablePrefix id)
    (hclaimed : w.Claimed trigger w') : w'.Stuck jobPrefix tablePrefix id := by
  refine ⟨hclaimed.served, ?_, hclaimed.warehouse ▸ h.endless⟩
  rw [hclaimed.store, Store.lockBody_write_of_ne _ _ _ _ (Claim.key_ne_lock _ _ _)]
  exact h.locked

end World

namespace JobWatch

theorem leads_wait (ids : Nat → String) {jobPrefix tablePrefix : String} (h : w.Stuck jobPrefix tablePrefix id)
    {window interval : Duration} (hslow : window < interval) (hroom : w.elapsed + interval < clockLimit) (patience : Nat) :
    w.Leads ids (wait (patience + 1) id window interval).run [.now, .job id, .now]
      { w with warehouse := (w.warehouse.poll id).2 } (.done (.ok .running)) := by
  obtain ⟨⟨status, hstatus, hrunning⟩, -⟩ := h.poll
  have hlate : w.elapsed + window < w.elapsed + interval := Nat.add_lt_add_left hslow _
  have hjob : w.Leads ids (Invocation.job id).run [.job id] { w with warehouse := (w.warehouse.poll id).2 }
      (.done (.ok (some status))) := by
    rw [← hstatus]
    exact .call (c := .job id) rfl
  refine Invocation.leads_bind (leads_after (hlate.trans hroom)) (Invocation.leads_bind hjob ?_)
  simp only [hrunning, Bool.false_eq_true, ↓reduceIte]
  refine Invocation.leads_bind (leads_after (w := { w with warehouse := (w.warehouse.poll id).2 }) hroom) ?_
  rw [if_pos hlate]
  exact .refl _ _

end JobWatch

namespace Leased

theorem leads_readLock (ids : Nat → String) {jobPrefix tablePrefix : String} (h : w.Stuck jobPrefix tablePrefix id)
    (version : Option String) : ∃ w' version', w.Leads ids
      (readLock.run.run (some ((TableLock.ofTable tablePrefix jobPrefix).seen version)))
      [.head (TableLock.keyOf tablePrefix), .get (TableLock.keyOf tablePrefix)] w'
      (.done (.ok (some (.job id)), some ((TableLock.ofTable tablePrefix jobPrefix).seen version'))) ∧
      w'.Stuck jobPrefix tablePrefix id ∧ w'.elapsed = w.elapsed := by
  obtain ⟨object, hobject, hbody⟩ := Option.bind_eq_some_iff.1 h.locked
  have hhead := answerFrom_head h.served ids (TableLock.keyOf tablePrefix)
  rw [Store.head?, hobject] at hhead
  have hget := answerFrom_get (w := w.noted (.head (TableLock.keyOf tablePrefix))) h.served ids
    (TableLock.keyOf tablePrefix)
  rw [show (w.noted (.head (TableLock.keyOf tablePrefix))).bucket.store.get? (TableLock.keyOf tablePrefix) = some object
    from hobject] at hget
  have hread : w.Leads ids (readLock.run.run (some ((TableLock.ofTable tablePrefix jobPrefix).seen version)))
      [.head (TableLock.keyOf tablePrefix), .get (TableLock.keyOf tablePrefix)] _
      (.done (.ok ((some (LockBody.ofOctets? jobPrefix object.body)).bind fun body => body),
        some ((TableLock.ofTable tablePrefix jobPrefix).seen
          (some (object.info (TableLock.keyOf tablePrefix)).version)))) :=
    .step hhead (.step hget (.refl _ _))
  rw [hbody] at hread
  exact ⟨_, _, hread, ⟨h.served, h.locked, h.endless⟩, rfl⟩

end Leased

namespace Subscriber

variable {ctx : Context} {task : Task} {tablePrefix : String}

/-- **A turn that takes no time and changes nothing.** -/
theorem leads_turn (ids : Nat → String) (h : w.Stuck ctx.settings.jobPrefix task.tablePrefix id)
    (hslow : ctx.settings.jobWait < ctx.settings.jobPoll) (hroom : w.elapsed + ctx.settings.jobPoll < clockLimit)
    {patience : Nat} (hpatience : ctx.patience = patience + 1) (lastPop : Duration) (version : Option String) :
    ∃ calls w' version', w.Leads ids ((turn ctx task lastPop).run.run
        (some ((TableLock.ofTable task.tablePrefix ctx.settings.jobPrefix).seen version))) calls w'
      (.done (.ok (.again lastPop),
        some ((TableLock.ofTable task.tablePrefix ctx.settings.jobPrefix).seen version'))) ∧
      w'.Stuck ctx.settings.jobPrefix task.tablePrefix id ∧ w'.elapsed = w.elapsed := by
  obtain ⟨w₁, version', hread, hstuck, helapsed⟩ := Leased.leads_readLock ids h version
  have hwait := JobWatch.leads_wait ids hstuck hslow (helapsed.symm ▸ hroom) patience
  rw [← hpatience] at hwait
  have hawait : ∀ held, w₁.Leads ids ((awaitJob ctx id).run.run held) [.now, .job id, .now]
      { w₁ with warehouse := (w₁.warehouse.poll id).2 } (.done (.ok false, held)) := fun held =>
    Leased.leads_bind (Leased.leads_lift hwait) (.refl _ _)
  exact ⟨_, _, version', Leased.leads_bind hread (Leased.leads_bind (hawait _) (.refl _ _)), hstuck.poll.2, helapsed⟩

/-- **Turn after turn the same.** -/
theorem turns_eq_none (hslow : ctx.settings.jobWait < ctx.settings.jobPoll) {patience : Nat}
    (hpatience : ctx.patience = patience + 1) (rounds : Nat) (lastPop : Duration)
    (h : w.Stuck ctx.settings.jobPrefix task.tablePrefix id) (hroom : w.elapsed + ctx.settings.jobPoll < clockLimit)
    (htime : w.elapsed + (ctx.settings.jobWait + turnMargin) < task.deadline) (version : Option String) :
    (w.runFrom ids ((turns ctx task rounds lastPop).run.run
      (some ((TableLock.ofTable task.tablePrefix ctx.settings.jobPrefix).seen version)))).1 = none := by
  induction rounds generalizing lastPop version w with
  | zero => rfl
  | succ rounds ih =>
    obtain ⟨calls, w₁, version', hturn, hstuck, helapsed⟩ := leads_turn ids h hslow hroom hpatience lastPop version
    have hguard := leads_guard ids ctx task rounds lastPop w
      (some ((TableLock.ofTable task.tablePrefix ctx.settings.jobPrefix).seen version))
    rw [if_pos htime] at hguard
    rw [(hguard.trans (Leased.leads_bind hturn (.refl _ _))).runFrom]
    exact ih lastPop hstuck (helapsed.symm ▸ hroom) (helapsed.symm ▸ htime) version'

/-- **A subscriber that does not come to its end**, whatever its host grants it. -/
theorem run_eq_none_of_stuck {trigger : ObjectInfo} (h : w.Stuck ctx.settings.jobPrefix tablePrefix id)
    (hposted : w.Posted tablePrefix trigger) {budget : Duration} (hbudget : ctx.settings.subscriberBudget = .ok budget)
    (hslow : ctx.settings.jobWait < ctx.settings.jobPoll) (htime : ctx.settings.jobWait + turnMargin < budget)
    (hstart : w.elapsed + budget < clockLimit) (hroom : w.elapsed + ctx.settings.jobPoll < clockLimit) :
    (w.runFrom ids (run ctx tablePrefix).run).1 = none := by
  obtain ⟨w', hclaimed, hwork⟩ := leads_work ids hbudget hstart hposted
    (some (.ofTable tablePrefix ctx.settings.jobPrefix))
  rw [run_eq, (hwork.bind reporting).runFrom]
  refine Program.run_bind_none ?_
  cases hpatience : ctx.patience with
  | zero => rfl
  | succ patience =>
    exact turns_eq_none hslow hpatience _ _ (h.claimed hclaimed) (hclaimed.elapsed.symm ▸ hroom)
      (hclaimed.elapsed.symm ▸ Nat.add_lt_add_left htime w.elapsed) none

end Subscriber
end Intake
