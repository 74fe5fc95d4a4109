import Intake.JobWatch
import Intake.Proofs.Wire
import Intake.Sandbox.World
import Mathlib.Algebra.GroupWithZero.Nat
/-!
# Verdict — when a finished job counts as failed for having changed nothing

A statement that changes rows fails if it says that it changed none.  A script fails if it has such statements and none of
them says that it changed any.  The check adds the rows of a script's statements in 64 bits, and breaks down if they do not
fit, so that a script whose statements changed very many rows is not judged at all (`JobWatch.check_fails_iff`).
-/
namespace Intake

namespace JobStatus

variable {s : JobStatus}

/-- The job says that it changed rows. -/
def ChangedRows (s : JobStatus) : Prop := ∃ rows, s.affectedRows = some rows ∧ 0 < rows

theorem changedRows_iff : s.ChangedRows ↔ 0 < s.affectedRows.getD 0 := by
  unfold ChangedRows
  cases s.affectedRows with
  | none => simp
  | some rows => simp

instance decidableChangedRows : Decidable s.ChangedRows := decidable_of_iff _ changedRows_iff.symm

theorem isDml_of_isScript (h : s.isScript = true) : s.isDml = false := by
  have htype : s.statementType = some "SCRIPT" := by simpa [isScript] using h
  rw [isDml, htype]
  decide

end JobStatus

namespace JobWatch

/-- **What should count as a failure**: a statement that changes rows says that it changed none, or a script has such
statements and none of them says that it changed any. -/
def ChangedNothing (status : JobStatus) (children : List JobStatus) : Prop :=
  status.isDml = true ∧ status.affectedRows = some 0 ∨
    status.isScript = true ∧ (∃ j ∈ children, j.isDml = true) ∧ ∀ j ∈ children, j.isDml = true → ¬ j.ChangedRows

instance decidableChangedNothing (status : JobStatus) (children : List JobStatus) :
    Decidable (ChangedNothing status children) := inferInstanceAs (Decidable (_ ∨ _))

/-- The number of rows that the statements of a script say they changed. -/
def scriptRows (children : List JobStatus) : Nat := rowSum (children.filter (·.isDml))

/-- A script whose statements changed more rows than can be counted. -/
def Overflows (status : JobStatus) (children : List JobStatus) : Prop :=
  status.isScript = true ∧ 2 ^ 64 ≤ scriptRows children

theorem rowSum_eq_zero_iff (jobs : List JobStatus) : rowSum jobs = 0 ↔ ∀ j ∈ jobs, ¬ j.ChangedRows := by
  induction jobs with
  | nil => simp [rowSum]
  | cons j jobs ih =>
    have hcons : rowSum (j :: jobs) = j.affectedRows.getD 0 + rowSum jobs := rfl
    rw [hcons, Nat.add_eq_zero_iff, ih, List.forall_mem_cons, JobStatus.changedRows_iff, Nat.pos_iff_ne_zero, not_not]

theorem scriptRows_eq_zero_iff (children : List JobStatus) :
    scriptRows children = 0 ↔ ∀ j ∈ children, j.isDml = true → ¬ j.ChangedRows := by
  simp only [scriptRows, rowSum_eq_zero_iff, List.mem_filter, and_imp]

section Run

variable {σ : Type} {answer : (c : CloudCall) → σ → c.Reply × σ} {s : σ} {status : JobStatus} {children : List JobStatus}

theorem run_scriptChangedNothing_of_lt (h : scriptRows children < 2 ^ 64) :
    (scriptChangedNothing children).run.run answer s =
      (some (.ok (!(children.filter (·.isDml)).isEmpty && scriptRows children == 0)), s) := by
  have hrows : totalRows (children.filter (·.isDml)) = pure (scriptRows children) := Invocation.fitted_of_lt h
  simp only [scriptChangedNothing, hrows]
  rfl

theorem run_scriptChangedNothing_of_le (h : 2 ^ 64 ≤ scriptRows children) :
    (scriptChangedNothing children).run.run answer s = (none, s) := by
  have hrows : totalRows (children.filter (·.isDml)) = Invocation.halt .overflow := Invocation.fitted_of_le h
  simp only [scriptChangedNothing, hrows]
  rfl

theorem changedNothing_iff_of_isScript (h : status.isScript = true) : ChangedNothing status children ↔
    (!(children.filter (·.isDml)).isEmpty && scriptRows children == 0) = true := by
  rw [ChangedNothing, JobStatus.isDml_of_isScript h, h, ← scriptRows_eq_zero_iff]
  simp only [Bool.false_eq_true, false_and, true_and, false_or, Bool.and_eq_true, Bool.not_eq_true',
    List.isEmpty_eq_false_iff, beq_iff_eq]
  refine and_congr_left fun _ => ?_
  simp only [ne_eq, List.filter_eq_nil_iff, not_forall, not_not, exists_prop]

/-- **What is found out about a finished job**, unless the rows of a script are too many to be counted. -/
theorem run_changedNothing
    (hchildren : status.isScript = true → (answer (.children status.jobId) s).1 = .ok children) :
    (Overflows status children → ((changedNothing status).run.run answer s).1 = none) ∧
      (¬ Overflows status children → ∃ nothing s', (changedNothing status).run.run answer s = (some (.ok nothing), s') ∧
        (nothing = true ↔ ChangedNothing status children)) := by
  unfold changedNothing
  by_cases hdml : status.isDml = true
  · have hscript : status.isScript = false := Bool.eq_false_iff.2 fun hscript => by
      rw [JobStatus.isDml_of_isScript hscript] at hdml
      cases hdml
    refine ⟨fun hover => ?_, fun _ => ⟨status.affectedRows == some 0, s, by rw [if_pos hdml]; rfl, ?_⟩⟩
    · rw [Overflows, hscript] at hover
      cases hover.1
    · simp [ChangedNothing, hdml, hscript]
  · rw [if_neg hdml]
    by_cases hscript : status.isScript = true
    · rw [if_pos hscript]
      have hasked : (Invocation.children status.jobId).run.run answer s =
          (some (.ok children), (answer (.children status.jobId) s).2) := by
        show (some ((answer (.children status.jobId) s).1.mapError Failure.warehouse), _) = _
        rw [hchildren hscript]
        rfl
      refine ⟨fun hover => ?_, fun hfits =>
        ⟨_, (answer (.children status.jobId) s).2, ?_, (changedNothing_iff_of_isScript hscript).symm⟩⟩
      · exact congrArg Prod.fst ((Program.run_bind_ok hasked).trans (run_scriptChangedNothing_of_le hover.2))
      · refine (Program.run_bind_ok hasked).trans (run_scriptChangedNothing_of_lt ?_)
        exact Nat.lt_of_not_le fun hle => hfits ⟨hscript, hle⟩
    · refine ⟨fun hover => absurd hover.1 hscript, fun _ => ⟨false, s, by rw [if_neg hscript]; rfl, ?_⟩⟩
      simp [ChangedNothing, hdml, hscript]

theorem run_check_of_none (herror : status.error = none) (h : ((changedNothing status).run.run answer s).1 = none) :
    ((check true status).run.run answer s).1 = none := by
  simp only [check, herror, if_true]
  exact Program.run_bind_none h

/-- A job that has ended without an error fails if it is found to have changed nothing, and only then. -/
theorem run_check {nothing : Bool} {s' : σ} (herror : status.error = none)
    (h : (changedNothing status).run.run answer s = (some (.ok nothing), s')) :
    ((check true status).run.run answer s).1 = some (if nothing then
      .error (.jobFailed status.jobId "DML statement affected zero rows") else .ok ()) := by
  simp only [check, herror, if_true]
  cases nothing with
  | true => exact congrArg Prod.fst (Program.run_bind_ok h)
  | false => exact congrArg Prod.fst (Program.run_bind_ok h)

/-- **A job that has ended without an error fails for having changed nothing exactly if it did**, passes if it did not, and
is not judged at all if it is a script whose statements changed more rows than 64 bits can count. -/
theorem check_fails_iff (herror : status.error = none)
    (hchildren : status.isScript = true → (answer (.children status.jobId) s).1 = .ok children) :
    (((check true status).run.run answer s).1 =
        some (.error (.jobFailed status.jobId "DML statement affected zero rows")) ↔ ChangedNothing status children) ∧
      (((check true status).run.run answer s).1 = some (.ok ()) ↔
        ¬ ChangedNothing status children ∧ ¬ Overflows status children) ∧
      (((check true status).run.run answer s).1 = none ↔ Overflows status children) := by
  obtain ⟨hover, hjudged⟩ := run_changedNothing hchildren
  by_cases hoverflows : Overflows status children
  · -- What overflows is not 0.
    have hsome : ¬ ChangedNothing status children := fun hnothing => by
      have hzero := ((changedNothing_iff_of_isScript hoverflows.1).1 hnothing)
      rw [Bool.and_eq_true, beq_iff_eq] at hzero
      exact absurd hoverflows.2 (by rw [hzero.2]; decide)
    rw [run_check_of_none herror (hover hoverflows)]
    simp [hsome, hoverflows]
  · obtain ⟨nothing, s', hrun, hnothing⟩ := hjudged hoverflows
    rw [run_check herror hrun, ← hnothing]
    cases nothing <;> simp [hoverflows]

end Run

/-! ## A script of two statements -/

namespace TwoStatements

def script : JobStatus := { jobId := "j", state := .done, statementType := some "SCRIPT" }

/-- Two statements of the script, and the rows they changed. -/
def statements (first second : Nat) : List JobStatus :=
  [{ jobId := "script_job_j_0", state := .done, statementType := some "INSERT", affectedRows := some first },
    { jobId := "script_job_j_1", state := .done, statementType := some "INSERT", affectedRows := some second }]

def world (first second : Nat) : World where
  bucketName := "b"
  warehouse := {
    jobs := [("j", ⟨⟨"j", ⟨none, "d", "t", none⟩, [], [], .query "" externalTableName .null⟩,
      { statementType := some "SCRIPT", childRows := [first, second] }, 1⟩)] }

theorem answer_children (first second : Nat) :
    (World.answer (.children script.jobId) (world first second)).1 = .ok (statements first second) := by
  have hids : "script_job_j_" ++ Nat.repr 0 = "script_job_j_0" ∧ "script_job_j_" ++ Nat.repr 1 = "script_job_j_1" := by
    decide
  simp [World.answer, world, ScriptedWarehouse.children, Fields.get?, script, statements, hids]

end TwoStatements

open TwoStatements

/-- The largest number that can be counted. -/
theorem check_fails_iff_largest : script.error = none ∧
    ((check true script).run.run World.answer (world 0 (2 ^ 64 - 1))).1 = some (.ok ()) := by
  have herror : script.error = none := rfl
  have hchildren : script.isScript = true →
      (World.answer (.children script.jobId) (world 0 (2 ^ 64 - 1))).1 = .ok (statements 0 (2 ^ 64 - 1)) :=
    fun _ => answer_children 0 (2 ^ 64 - 1)
  have hfits : ¬ Overflows script (statements 0 (2 ^ 64 - 1)) := fun hover => absurd hover.2 (by decide)
  exact ⟨herror, (check_fails_iff herror hchildren).2.1.2 ⟨by decide, hfits⟩⟩

/-- Each of two statements changed rows, and the script is not judged. -/
theorem breakdown_of_overflow : (∀ j ∈ statements (2 ^ 63) (2 ^ 63), j.isDml = true ∧ j.ChangedRows) ∧
    ¬ ChangedNothing script (statements (2 ^ 63) (2 ^ 63)) ∧
    ((check true script).run.run World.answer (world (2 ^ 63) (2 ^ 63))).1 = none := by
  refine ⟨by decide, by decide, run_check_of_none rfl ?_⟩
  have hchildren : script.isScript = true →
      (World.answer (.children script.jobId) (world (2 ^ 63) (2 ^ 63))).1 = .ok (statements (2 ^ 63) (2 ^ 63)) :=
    fun _ => answer_children (2 ^ 63) (2 ^ 63)
  exact (run_changedNothing hchildren).1 ⟨rfl, by decide⟩

end JobWatch
end Intake
