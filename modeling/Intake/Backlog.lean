import Intake.Claim
import Intake.Context
/-!
# Backlog — the batches of a table that wait for their turn

A success marker that waits is represented by an empty object, its pointer, in the backlog folder of its table; the
order of the keys is the order of the batches.  The backfill marker at the table prefix says that somebody works on the
backlog: its creation starts a subscriber.  Where a gate is configured, the marker is created only if the gate object is
there.
-/
namespace Intake
namespace Backlog

/-- The folder of a table's pointers, with the slash. -/
def folder (tablePrefix : String) : String := Key.join tablePrefix Key.backlogFolder ++ "/"

def pointerFor (tablePrefix marker : String) : Except Failure String :=
  match (do dropStart? "/" (← dropStart? tablePrefix marker)).filter fun rest => !rest.isEmpty with
  | some rest => .ok (folder tablePrefix ++ rest)
  | none => .error (.patternMismatch marker ("not below table prefix " ++ tablePrefix))

def markerFor (pointer : String) : String := Key.withoutBacklog pointer

def push (tablePrefix marker : String) : Invocation String := do
  let pointer ← Invocation.ofExcept (pointerFor tablePrefix marker)
  let _ ← Invocation.put pointer [] .always
  return pointer

def next (tablePrefix : String) : Invocation (Option String) := do
  let listing ← Invocation.list (folder tablePrefix) none
  return listing.objects.head?.map (·.key)

def pop (tablePrefix : String) : Invocation (Option String) := do
  match ← next tablePrefix with
  | none => return none
  | some pointer =>
    let _ ← Invocation.delete pointer .always
    return some pointer

end Backlog

inductive PostOutcome where
  | posted (version : String)
  | alreadyPresent
  | gateClosed
  deriving DecidableEq, Repr

def PostOutcome.isPosted : PostOutcome → Bool
  | .posted _ => true
  | _ => false

/-- The backfill marker of a table, and the gate before it. -/
structure BackfillMarker where
  key : String
  gate : Option String

namespace BackfillMarker

def ofTable (tablePrefix : String) (gateName : Option String) : BackfillMarker where
  key := Key.join tablePrefix Key.backfillName
  gate := gateName.map (Key.join tablePrefix)

def head (marker : BackfillMarker) : Invocation (Option ObjectInfo) := Invocation.head marker.key

/-- There is no gate, or it is there. -/
def gateOpen (marker : BackfillMarker) : Invocation Bool :=
  match marker.gate with
  | none => return true
  | some gate => return (← Invocation.head gate).isSome

def write (marker : BackfillMarker) (precondition : Precondition) : Invocation PostOutcome := do
  match ← Invocation.put marker.key [] precondition with
  | .written version => return .posted version
  | .conflict _ => return .alreadyPresent

/-- **Posts the marker, if the gate is open and it is not there.** -/
def post (marker : BackfillMarker) : Invocation PostOutcome := do
  if ← marker.gateOpen then marker.write .absent else return .gateClosed

/-- Posts the marker anew in the place of one of its versions. -/
def repost (marker : BackfillMarker) (version : String) : Invocation PostOutcome :=
  marker.write (.version version)

def delete (marker : BackfillMarker) (version : String) : Invocation DeleteResult :=
  Invocation.delete marker.key (.version version)

end BackfillMarker

structure Enqueued where
  tablePrefix : String
  pointer : String
  backfill : PostOutcome

/-- **Claims a marker, puts it into the backlog of its table, and posts the backfill marker.** -/
def enqueue (ctx : Context) (marker : String) : Invocation Enqueued := do
  let tablePrefix ← Invocation.ofExcept (ctx.layout.tablePrefix marker)
  let _ ← Claim.take marker
  let pointer ← Backlog.push tablePrefix marker
  Invocation.count (.backlogOperations "push")
  let backfill ← (BackfillMarker.ofTable tablePrefix ctx.layout.gateName).post
  return ⟨tablePrefix, pointer, backfill⟩

end Intake
