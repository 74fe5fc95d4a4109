import Intake.Fields
import Intake.Number.Binary64
/-!
# Json — values of the data format

A number is whole, from -2^63 to 2^64 - 1, or a number of the binary format.  An object is a list of fields; values that
the engine builds or reads as settings keep the fields in increasing order of their names (`sortFields`), while a
document fresh from its reader has them as they were written, repetitions included.
-/
namespace Intake

inductive Json where
  | null
  | bool (value : Bool)
  | whole (value : Int)
  | real (value : Binary64)
  | string (value : String)
  | array (items : List Json)
  | object (fields : List (String × Json))
  deriving Inhabited

namespace Json

def field? (name : String) : Json → Option Json
  | .object fields => Fields.get? name fields
  | _ => none

def string? : Json → Option String
  | .string s => some s
  | _ => none

/-- An object of the given fields, which stand in order. -/
def ofFields (fields : List (String × Json)) : Json :=
  .object (Fields.ofList fields)

def strings (texts : List String) : Json :=
  .array (texts.map .string)

mutual

/-- The same value with the fields of every object in order; the last of several fields of one name stays. -/
def sortFields : Json → Json
  | .array items => .array (sortItems items)
  | .object fields => .object (sortObject fields)
  | other => other

def sortItems : List Json → List Json
  | [] => []
  | item :: rest => sortFields item :: sortItems rest

def sortObject (fields : List (String × Json)) : List (String × Json) :=
  Fields.ofList (sortValues fields)

def sortValues : List (String × Json) → List (String × Json)
  | [] => []
  | (name, value) :: rest => (name, sortFields value) :: sortValues rest

end

end Json
end Intake
