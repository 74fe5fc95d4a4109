import Intake.Cloud
import Intake.Key
/-!
# Claim — a marker is taken once

An invocation claims a marker by creating an object beside it whose name holds the marker's creation time.  Only one
creation succeeds, so of several deliveries of one notification one goes on; a marker that is deleted and written again
has a new creation time and can be claimed again.
-/
namespace Intake
namespace Claim

def key (marker : String) (created : Timestamp) : String :=
  Key.join (Key.directory marker)
    (Key.claimStart ++ Key.name marker ++ "_created_at_" ++ created.compactText)

/-- **Claims a marker** that was seen; gives the key of the claim. -/
def takeObject (marker : ObjectInfo) : Invocation String := do
  let claim := key marker.key marker.created
  match ← Invocation.put claim [] .absent with
  | .written _ => return claim
  | .conflict _ => throw (.duplicate claim)

/-- Claims the marker under a key, if it is there. -/
def take (marker : String) : Invocation ObjectInfo := do
  match ← Invocation.head marker with
  | none => throw (.store (.objectNotFound marker))
  | some object =>
    let _ ← takeObject object
    return object

end Claim
end Intake
