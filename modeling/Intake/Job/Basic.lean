import Intake.Destination
import Intake.Job.Labels
/-!
# Job — work for the warehouse, and how it stands

A job either loads files into a table, or runs a query over them as an external table.
-/
namespace Intake

/-- What a job does with its files. -/
inductive Work where
  | load (config : Json)
  | query (sql externalTable : String) (externalConfig : Json)

structure Job where
  id : String
  destination : TableRef
  uris : List String
  labels : Labels
  work : Work

/-- The name of the external table that a query reads from. -/
def externalTableName : String := "temp_ext"

inductive JobKind where
  | load
  | query
  deriving DecidableEq, Repr

def JobKind.name : JobKind → String
  | .load => "load"
  | .query => "query"

def Job.kind (job : Job) : JobKind :=
  match job.work with
  | .load _ => .load
  | .query .. => .query

inductive JobState where
  | pending
  | running
  | done
  deriving DecidableEq, Repr

structure JobStatus where
  jobId : String
  state : JobState
  error : Option String := none
  statementType : Option String := none
  affectedRows : Option Nat := none
  deriving DecidableEq, Repr

namespace JobStatus

/-- The job will not change any more. -/
def isDone (s : JobStatus) : Bool := s.state == .done

def succeeded (s : JobStatus) : Bool := s.isDone && s.error.isNone

/-- The statement changes rows of a table. -/
def isDml (s : JobStatus) : Bool :=
  s.statementType.any ["INSERT", "UPDATE", "DELETE", "MERGE"].contains

/-- The statement is a script, whose statements are jobs of their own. -/
def isScript (s : JobStatus) : Bool := s.statementType == some "SCRIPT"

end JobStatus
end Intake
