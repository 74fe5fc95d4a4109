import Intake.Store.Fault
import Intake.Text.Blank
/-!
# LogFormat — how log lines look
-/
namespace Intake

/-- How log lines look. -/
inductive LogFormat where
  | json
  | pretty
  deriving DecidableEq, Repr

def LogFormat.name : LogFormat → String
  | .json => "json"
  | .pretty => "pretty"

def LogFormat.read (text : String) : Except StoreFault LogFormat :=
  match lowerAscii (trim text) with
  | "json" => .ok .json
  | "pretty" | "text" => .ok .pretty
  | other => .error (.invalidInput ("log format must be one of: json, pretty (got " ++ other ++ ")"))

end Intake
