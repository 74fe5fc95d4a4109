import Intake.Monitor
import Intake.Notification
import Intake.Subscriber
/-!
# Dispatch — what a notification sets off

The name of the object decides: a success marker is applied at once, or put into the backlog if its table is kept in
order; a pointer in the backlog has the monitor look; a backfill marker starts a subscriber; the gate object lets one
start.  Everything else is ignored.
-/
namespace Intake

inductive Trigger where
  | successMarker
  | backlogItem
  | backfill
  | startGate
  | ignored
  deriving DecidableEq, Repr

def Trigger.name : Trigger → String
  | .successMarker => "success_marker"
  | .backlogItem => "backlog_item"
  | .backfill => "backfill"
  | .startGate => "start_gate"
  | .ignored => "ignored"

inductive Outcome where
  | ignored
  | applied (applied : Applied)
  | enqueued (enqueued : Enqueued) (monitor : MonitorOutcome)
  | monitored (monitor : MonitorOutcome)
  | subscriber (outcome : SubscriberOutcome)
  | gateOpened (backfill : PostOutcome)

def Outcome.name : Outcome → String
  | .ignored => "ignored"
  | .applied _ => "applied"
  | .enqueued _ _ => "enqueued"
  | .monitored _ => "monitored"
  | .subscriber outcome => outcome.name
  | .gateOpened _ => "gate_opened"

namespace Dispatch

def classify (layout : Layout) (key : String) : Trigger :=
  let name := Key.name key
  if name = layout.successName then
    if Key.isBacklog key then .backlogItem else .successMarker
  else if name = Key.backfillName then .backfill
  else if layout.gateName = some name then .startGate
  else .ignored

/-- The directory of a key, if it is the table prefix. -/
def atTablePrefix? (layout : Layout) (key : String) : Option String :=
  match layout.destination key with
  | .ok destination => if destination.tablePrefix = Key.directory key then some destination.tablePrefix else none
  | .error _ => none

def applyNow (ctx : Context) (marker : String) : Invocation Applied := do
  let _ ← Claim.take marker
  let suffix ← (Invocation.ask .freshId : Invocation String)
  ExceptT.mk do
    let (result, _) ← (Submission.apply ctx marker (JobId.make ctx.settings.jobPrefix marker suffix) 0).run.run none
    return result

/-- A success marker: applied at once, or put into the backlog. -/
def successMarker (ctx : Context) (key : String) : Invocation Outcome := do
  let ordered ← if ctx.settings.alwaysOrdered then pure true else ConfigFiles.isOrdered key
  if ordered then
    let enqueued ← enqueue ctx key
    return .enqueued enqueued (← Monitor.ensureSubscriber ctx enqueued.tablePrefix)
  else return .applied (← applyNow ctx key)

/-- A backfill marker: it has to be at a table prefix. -/
def backfill (ctx : Context) (key : String) : Invocation Outcome :=
  match atTablePrefix? ctx.layout key with
  | some tablePrefix => return .subscriber (← Subscriber.run ctx tablePrefix)
  | none => throw (.unexpectedTrigger (key ++ " is not directly under a table prefix"))

/-- The gate object: elsewhere than at a table prefix it means nothing. -/
def startGate (ctx : Context) (key : String) : Invocation Outcome :=
  match atTablePrefix? ctx.layout key with
  | some tablePrefix => return .gateOpened (← (BackfillMarker.ofTable tablePrefix ctx.layout.gateName).post)
  | none => return .ignored

def backlogItem (ctx : Context) (key : String) : Invocation Outcome := do
  let tablePrefix ← Invocation.ofExcept (ctx.layout.tablePrefix key)
  return .monitored (← Monitor.ensureSubscriber ctx tablePrefix)

def act (ctx : Context) (key : String) : Trigger → Invocation Outcome
  | .ignored => return .ignored
  | .successMarker => successMarker ctx key
  | .backlogItem => backlogItem ctx key
  | .backfill => backfill ctx key
  | .startGate => startGate ctx key

/-- What a notification is about: nothing, unless an object was written. -/
def triggerOf (layout : Layout) (n : Notification) : Trigger :=
  if n.isFinalize then classify layout n.key else .ignored

/-- What is counted of how a notification ended. -/
def countResult : Except Failure Outcome → CloudProgram Unit
  | .ok _ => return ()
  | .error (.duplicate _) => CloudProgram.ask (.count .duplicates)
  | .error failure =>
    if failure.isRecoverable then return () else CloudProgram.ask (.count (.errors failure.kind))

/-- **Handles a notification.** -/
def handle (ctx : Context) (n : Notification) : Invocation Outcome :=
  let trigger := triggerOf ctx.layout n
  ExceptT.mk do
    let _ ← CloudProgram.ask (.count (.notifications trigger.name))
    let result ← ExceptT.run do
      -- what is ignored does not need a bucket
      if trigger ≠ .ignored then Invocation.store (CloudProgram.ask (.openBucket n.bucket))
      act { ctx with bucket := n.bucket } n.key trigger
    countResult result
    return result

end Dispatch
end Intake
