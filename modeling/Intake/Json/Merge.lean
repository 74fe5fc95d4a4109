import Intake.Json.Basic
/-!
# Merge — one value laid over another

An object laid over an object is merged field by field, at every depth; anything else laid over a value replaces it.
-/
namespace Intake
namespace Json

mutual

/-- **`overlay` laid on `base`.** -/
def merge : (base overlay : Json) → Json
  | .object base, .object overlay => .object (mergeFields base overlay)
  | _, overlay => overlay

/-- Each field of the second list laid on the field of that name in the first, or put beside the others. -/
def mergeFields (base : List (String × Json)) : (overlay : List (String × Json)) → List (String × Json)
  | [] => base
  | (name, value) :: rest =>
    mergeFields (Fields.insert name
      (match Fields.get? name base with
        | some old => merge old value
        | none => value) base) rest

end

end Json
end Intake
