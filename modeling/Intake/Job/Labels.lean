import Intake.Fields
import Intake.Json.Basic
/-!
# Job.Labels — what a job says about where it comes from
-/
namespace Intake

/-- The labels of a job, in the order of their names. -/
abbrev Labels := List (String × Json)

namespace Labels

/-- The longest value of a label, in characters. -/
def maxLength : Nat := 63

/-- A character of a label's value: small letters, digits, `_` and `-`. -/
def cleanChar (c : Char) : Char :=
  let c := c.toLower
  if ('a' ≤ c && c ≤ 'z') || ('0' ≤ c && c ≤ '9') || c == '_' || c == '-' then c else '_'

def clean (value : String) : String :=
  String.ofList ((value.toList.map cleanChar).take maxLength)

def ofJob (functionName bucket : String) (batch : Option String) : Labels :=
  Fields.ofList ([("component", .string "event-based-gcs-ingest"), ("function-name", .string (clean functionName)),
    ("bucket-id", .string (clean bucket))] ++ (batch.map fun b => ("batch-id", .string (clean b))).toList)

end Labels
end Intake
