import Intake.Failure
import Intake.Json.Reader
import Intake.Json.Record
/-!
# Notification — an object was written

Notifications come in three forms: a push message around a message, a message with attributes, and the resource of an
object.  The forms are tried in this order.
-/
namespace Intake

/-- An object was written, or something else happened to it. -/
structure Notification where
  bucket : String
  key : String
  event : Option String
  deriving DecidableEq, Repr

namespace Notification

def isFinalize (n : Notification) : Bool :=
  n.event.all (· == "OBJECT_FINALIZE")

def ofAttributes? (attributes : Json) : Option Notification := do
  match ← attributes.record? ["bucketId", "objectId", "eventType"] with
  | [some (.string bucket), some (.string key), event] => return ⟨bucket, key, ← Json.optional? Json.string? event⟩
  | _ => none

def ofMessage? (message : Json) : Option Notification := do
  match ← message.record? ["attributes"] with
  | [some attributes] => ofAttributes? attributes
  | _ => none

/-- A push message, which comes as an object. -/
def ofPush? : Json → Option Notification
  | .object fields => do
    match ← Json.known? ["message"] fields with
    | [some message] => ofMessage? message
    | _ => none
  | _ => none

def resource? (resource : Json) : Option (String × String × String) := do
  match ← resource.record? ["kind", "bucket", "name"] with
  | [some (.string kind), some (.string bucket), some (.string name)] => return (kind, bucket, name)
  | _ => none

def unrecognized (reason : String) : Failure :=
  .unexpectedTrigger ("unrecognized notification payload: " ++ reason)

def ofResource (kind bucket name : String) : Except Failure Notification :=
  if kind = "storage#object" then .ok ⟨bucket, name, none⟩
  else .error (.unexpectedTrigger ("unsupported resource kind " ++ kind))

/-- What a document says, if it has one of the forms. -/
def ofJson? (document : Json) : Option (Except Failure Notification) :=
  match (ofPush? document).or (ofMessage? document) with
  | some n => some (.ok n)
  | none => (resource? document).map fun (kind, bucket, name) => ofResource kind bucket name

/-- **Reads a notification.**  What follows the document is looked at only if it has one of the forms. -/
def read (payload : Octets) : Except Failure Notification := do
  let (document, rest) ← (Json.read payload).mapError fun fault => unrecognized fault.message
  match ofJson? document with
  | none => throw (unrecognized "data did not match any variant of untagged enum Envelope")
  | some result => if Json.skipSpace rest = [] then result else throw (unrecognized Json.Fault.trailing.message)

end Notification
end Intake
