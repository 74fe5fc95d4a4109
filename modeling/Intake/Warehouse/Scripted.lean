import Intake.Job.Basic
import Intake.Text.Cut
import Intake.Warehouse.Fault
/-!
# Scripted — a warehouse whose jobs follow a script

No data is touched.  The script of a job says whether it is accepted, for how many questions about it it is still
running, and how it ends.  The warehouse remembers what it has accepted, and the largest number of unfinished jobs it
has seen for one table.
-/
namespace Intake

structure JobScript where
  /-- For so many questions about the job it is running. -/
  runningPolls : Nat := 0
  /-- Why the job is not accepted. -/
  reject : Option String := none
  error : Option String := none
  statementType : Option String := none
  affectedRows : Option Nat := none
  /-- The rows changed by the statements of a script. -/
  childRows : List Nat := []

/-- A script for the jobs of a kind, or of a name or with a file that holds a text. -/
structure ScriptRule where
  kind : Option String
  holds : Option String
  script : JobScript

namespace ScriptRule

def applies (rule : ScriptRule) (job : Job) : Bool :=
  rule.kind.all (· == job.kind.name) &&
    rule.holds.all fun text => holdsText text job.id || job.uris.any (holdsText text)

/-- The script of the first rule about a job, or another one. -/
def choose (rules : List ScriptRule) (otherwise : JobScript) (job : Job) : JobScript :=
  ((rules.find? (·.applies job)).map (·.script)).getD otherwise

end ScriptRule

structure ScriptedJob where
  job : Job
  script : JobScript
  polls : Nat

namespace ScriptedJob

def isDone (j : ScriptedJob) : Bool := j.script.runningPolls < j.polls

def status (j : ScriptedJob) : JobStatus :=
  if j.isDone then
    { jobId := j.job.id, state := .done, error := j.script.error, statementType := j.script.statementType
      affectedRows := j.script.affectedRows }
  else { jobId := j.job.id, state := .running }

/-- The job after one more question; the count stays at the largest 32-bit number. -/
def polled (j : ScriptedJob) : ScriptedJob := { j with polls := min (j.polls + 1) (Nat.pow 2 32 - 1) }

end ScriptedJob

/-- A warehouse whose jobs follow a script. -/
structure ScriptedWarehouse where
  scriptOf : Job → JobScript := fun _ => {}
  /-- The accepted jobs, in the order of their ids. -/
  jobs : List (String × ScriptedJob) := []
  /-- The accepted jobs, in the order of their submission. -/
  accepted : List Job := []
  maxInFlight : Nat := 0

namespace ScriptedWarehouse

def inFlight (w : ScriptedWarehouse) (table : TableRef) : Nat :=
  w.jobs.countP fun (_, j) => !j.isDone && j.job.destination == table

/-- **Submits a job.** -/
def submit (w : ScriptedWarehouse) (job : Job) : Except WarehouseFault JobStatus × ScriptedWarehouse :=
  let script := w.scriptOf job
  match script.reject with
  | some reason => (.error (.api reason false), w)
  | none =>
    if (Fields.get? job.id w.jobs).isSome then (.error (.api ("Already Exists: Job " ++ job.id) false), w)
    else (.ok { jobId := job.id, state := .pending }, { w with
      jobs := Fields.insert job.id ⟨job, script, 0⟩ w.jobs
      accepted := w.accepted ++ [job]
      maxInFlight := max w.maxInFlight (w.inFlight job.destination + 1) })

/-- **Asks for a job.** -/
def poll (w : ScriptedWarehouse) (id : String) : Option JobStatus × ScriptedWarehouse :=
  match Fields.get? id w.jobs with
  | none => (none, w)
  | some j => (some j.polled.status, { w with jobs := Fields.insert id j.polled w.jobs })

def children (w : ScriptedWarehouse) (id : String) : Except WarehouseFault (List JobStatus) :=
  match Fields.get? id w.jobs with
  | none => .error (.api ("Not found: Job " ++ id) false)
  | some j => .ok (j.script.childRows.mapIdx fun i rows =>
      { jobId := "script_job_" ++ id ++ "_" ++ toString i, state := .done, statementType := some "INSERT"
        affectedRows := some rows })

end ScriptedWarehouse
end Intake
