import Intake.Store.Fault
import Intake.Text.Quoted
import Intake.Warehouse.Fault
/-!
# Failure — how the handling of a notification can end badly

Two of the failures are recoverable: they say that somebody else does the work, so the invocation ends cleanly.  All
others are reported, so that the notification is delivered again.
-/
namespace Intake

/-- How the handling of a notification can end badly. -/
inductive Failure where
  /-- Another invocation has claimed the marker. -/
  | duplicate (claim : String)
  | patternMismatch (key reason : String)
  | configMissing (what : String)
  /-- A configuration folder holds several files where one is meant. -/
  | configConflict (directory : String) (candidates : List String)
  | noInput (under : String)
  | jobFailed (jobId reason : String)
  | lockConflict (lock found : String)
  /-- A backlog pointer whose success marker is gone. -/
  | danglingPointer (pointer marker : String)
  | unexpectedTrigger (what : String)
  | configuration (what : String)
  | warehouse (fault : WarehouseFault)
  | store (fault : StoreFault)
  deriving DecidableEq, Repr

namespace Failure

def message : Failure → String
  | .duplicate claim => "duplicate notification: " ++ claim ++ " already exists"
  | .patternMismatch key reason => "key " ++ key ++ " does not match the destination pattern: " ++ reason
  | .configMissing what => "missing config: " ++ what
  | .configConflict directory candidates =>
    "conflicting config files in " ++ directory ++ ": " ++ quotedList candidates
  | .noInput under => "no input files found under " ++ under
  | .jobFailed jobId reason => "job " ++ jobId ++ " failed: " ++ reason
  | .lockConflict lock found => "table lock " ++ lock ++ " changed concurrently: " ++ found
  | .danglingPointer pointer marker =>
    "backlog pointer " ++ pointer ++ " refers to missing success marker " ++ marker
  | .unexpectedTrigger what => "unexpected trigger: " ++ what
  | .configuration what => "configuration error: " ++ what
  | .warehouse fault => fault.message
  | .store fault => fault.message

/-- The name a failure is counted under. -/
def kind : Failure → String
  | .duplicate _ => "duplicate"
  | .patternMismatch _ _ => "pattern_mismatch"
  | .configMissing _ => "config_missing"
  | .configConflict _ _ => "config_conflict"
  | .noInput _ => "no_input"
  | .jobFailed _ _ => "job_failed"
  | .lockConflict _ _ => "backlog_conflict"
  | .danglingPointer _ _ => "backlog_invariant_violation"
  | .unexpectedTrigger _ => "unexpected_trigger"
  | .configuration _ => "configuration"
  | .warehouse _ => "warehouse"
  | .store _ => "storage"

/-- Somebody else does the work, so the invocation ends cleanly. -/
def isRecoverable : Failure → Bool
  | .duplicate _ => true
  | .lockConflict _ _ => true
  | _ => false

end Failure
end Intake
