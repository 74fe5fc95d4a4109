import Intake.Cloud
import Intake.Context
/-!
# JobWatch — waiting for a job and judging its outcome
-/
namespace Intake

inductive JobWait where
  | done (status : JobStatus)
  | running
  | notFound
  deriving DecidableEq, Repr

namespace JobWatch

/-- Asks for a job again and again until it is done, is not known, or the next time to ask is past the deadline. -/
def waitUntil (jobId : String) (deadline interval : Duration) : (rounds : Nat) → Invocation JobWait
  | 0 => Invocation.halt .cutOff
  | rounds + 1 => do
    match ← Invocation.job jobId with
    | none => return .notFound
    | some status =>
      if status.isDone then return .done status
      else if deadline < (← Invocation.after interval) then return .running
      else
        Invocation.sleep interval
        waitUntil jobId deadline interval rounds

/-- **Waits for a job**, for a time. -/
def wait (patience : Nat) (jobId : String) (window interval : Duration) : Invocation JobWait := do
  waitUntil jobId (← Invocation.after window) interval patience

/-- The number of rows that jobs say they changed. -/
def rowSum (jobs : List JobStatus) : Nat := jobs.foldr (fun j rows => j.affectedRows.getD 0 + rows) 0

/-- The sum of row counts, which has to fit into 64 bits. -/
def totalRows (jobs : List JobStatus) : Invocation Nat := Invocation.fitted (Nat.pow 2 64) (rowSum jobs)

/-- The children of a script say that its statements changed no row. -/
def scriptChangedNothing (children : List JobStatus) : Invocation Bool := do
  let dml := children.filter (·.isDml)
  return !dml.isEmpty && (← totalRows dml) == 0

/-- A finished job changed no row although it should have. -/
def changedNothing (status : JobStatus) : Invocation Bool :=
  if status.isDml then return status.affectedRows == some 0
  else if status.isScript then do scriptChangedNothing (← Invocation.children status.jobId)
  else return false

/-- **Fails if a finished job failed**, or changed no row where that counts as a failure. -/
def check (failOnZeroRows : Bool) (status : JobStatus) : Invocation Unit := do
  match status.error with
  | some error =>
    Invocation.count (.jobFailures "error_result")
    throw (.jobFailed status.jobId error)
  | none =>
    if failOnZeroRows then
      if ← changedNothing status then
        Invocation.count (.jobFailures "zero_dml_rows")
        throw (.jobFailed status.jobId "DML statement affected zero rows")

def missing (jobId : String) : Invocation Unit := do
  Invocation.count (.jobFailures "not_found")
  throw (.jobFailed jobId "job not found in warehouse")

end JobWatch
end Intake
