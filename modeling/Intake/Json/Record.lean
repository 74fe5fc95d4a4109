import Intake.Json.Basic
/-!
# Json.Record — values with named parts

A record comes as an object, or as the array of its parts in their order.  Fields that are not known are passed over;
one that is known must not come twice.
-/
namespace Intake
namespace Json

/-- The values of the known fields, in the order of the names asked for; nothing if one of them comes twice. -/
def known? (names : List String) (fields : List (String × Json)) : Option (List (Option Json)) :=
  names.mapM fun name =>
    match fields.filter (·.1 == name) with
    | [] => some none
    | [(_, value)] => some (some value)
    | _ => none

/-- **The parts of a record**, in the order of the names asked for. -/
def record? (names : List String) : Json → Option (List (Option Json))
  | .object fields => known? names fields
  | .array items =>
    if items.length ≤ names.length then
      some (items.map some ++ List.replicate (names.length - items.length) none)
    else none
  | _ => none

def optional? {α : Type} (read : Json → Option α) : Option Json → Option (Option α)
  | none | some .null => some none
  | some value => (read value).map some

def required? {α : Type} (read : Json → Option α) : Option Json → Option α
  | none => none
  | some value => read value

/-- A list, which is empty if it is not there. -/
def listOf? {α : Type} (read : Json → Option α) : Option Json → Option (List α)
  | none => some []
  | some (.array items) => items.mapM read
  | some _ => none

end Json
end Intake
