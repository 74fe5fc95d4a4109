import Intake.Backlog
import Intake.Submission
/-!
# Subscriber — working off the backlog of a table

A subscriber works for one generation of the backfill marker, which it claims.  Turn by turn it reads the lock, waits
for the job it names, takes the first pointer of the backlog away if that job was for its marker, and submits the next
marker.  It ends when the backlog is empty, or hands over to the next subscriber when its time runs out, leaving the
lock as it is.
-/
namespace Intake

inductive SubscriberOutcome where
  | drained
  | handoff
  | superseded
  deriving DecidableEq, Repr

def SubscriberOutcome.name : SubscriberOutcome → String
  | .drained => "drained"
  | .handoff => "handoff"
  | .superseded => "superseded"

namespace Subscriber

/-- The time that one turn is given beyond the wait for a job. -/
def turnMargin : Duration := .ofSeconds 1

structure Task where
  tablePrefix : String
  backfill : BackfillMarker
  /-- The version of the backfill marker it works for. -/
  version : String
  deadline : Duration

inductive Turn where
  /-- Another turn is due; the last pointer was taken away at this time. -/
  | again (lastPop : Duration)
  | ended (outcome : SubscriberOutcome)

/-- Waits for the job in the lock: true when it has ended well, false when it is still under way. -/
def awaitJob (ctx : Context) (jobId : String) : Leased Bool := do
  match ← JobWatch.wait ctx.patience jobId ctx.settings.jobWait ctx.settings.jobPoll with
  | .running => return false
  | .notFound =>
    Leased.recording (Leased.lift (JobWatch.missing jobId))
    return true
  | .done status =>
    Leased.recording (Leased.lift (JobWatch.check ctx.settings.failOnZeroRows status))
    return true

/-- The marker of a pointer, which has to be there. -/
def markerOf (pointer : String) : Invocation String := do
  let marker := Backlog.markerFor pointer
  match ← Invocation.head marker with
  | some _ => return marker
  | none => throw (.danglingPointer pointer marker)

def submitNext (ctx : Context) (pointer : String) : Leased Unit := do
  let marker ← (markerOf pointer : Leased String)
  let suffix ← (Invocation.ask .freshId : Leased String)
  let _ ← Submission.apply ctx marker (JobId.make ctx.settings.jobPrefix marker suffix) 0

def submitPart (ctx : Context) (pointer jobId : String) (part : Nat) : Leased Unit := do
  let marker ← (markerOf pointer : Leased String)
  let _ ← Submission.apply ctx marker jobId part

/-- Ends at an empty backlog: gives up the lock and deletes the backfill marker, and posts it again if the backlog has
been filled since. -/
def drain (ctx : Context) (task : Task) (lastPop : Duration) : Leased SubscriberOutcome := do
  Leased.releaseLock
  match ← (task.backfill.delete task.version : Leased DeleteResult) with
  | .conflict _ => return .drained
  | _ =>
    -- what was pushed since the last pop is young enough for its own monitor to find the marker gone
    if (← (Invocation.now : Leased Duration)) - lastPop < ctx.settings.subscriberWait then return .drained
    match ← (Backlog.next task.tablePrefix : Leased (Option String)) with
    | none => return .drained
    | some _ =>
      match ← (task.backfill.post : Leased PostOutcome) with
      | .posted _ => return .handoff
      | _ => return .drained

/-- Goes on with the first pointer of the backlog; with none, the work is done. -/
def advance (ctx : Context) (task : Task) (lastPop : Duration) : Option String → Leased Turn
  | none => return .ended (← drain ctx task lastPop)
  | some pointer => do
    submitNext ctx pointer
    return .again lastPop

/-- Goes on after a job has ended: its pointer is taken away, or its next part submitted. -/
def finish (ctx : Context) (task : Task) (lastPop : Duration) (jobId : String) : Leased Turn := do
  match ← (Backlog.next task.tablePrefix : Leased (Option String)) with
  | none => advance ctx task lastPop none
  | some pointer =>
    if JobId.isFor jobId ctx.settings.jobPrefix (Backlog.markerFor pointer) then
      match JobId.splitPart jobId with
      -- all parts but the last have a tag, so there is another one
      | (base, some index) =>
        let part ← (Invocation.fitted (Nat.pow 2 64) (JobId.nextIndex index) : Leased Nat)
        submitPart ctx pointer base part
        return .again lastPop
      | (_, none) =>
        let _ ← (Backlog.pop task.tablePrefix : Leased (Option String))
        (Invocation.count (.backlogOperations "pop") : Leased Unit)
        let lastPop ← (Invocation.now : Leased Duration)
        advance ctx task lastPop (← (Backlog.next task.tablePrefix : Leased (Option String)))
    -- the job was for another marker, so the first one is still to be submitted
    else advance ctx task lastPop (some pointer)

def turn (ctx : Context) (task : Task) (lastPop : Duration) : Leased Turn := do
  match ← Leased.readLock with
  | some (.manual _) =>
    (Invocation.sleep ctx.settings.jobWait : Leased Unit)
    return .again lastPop
  | some (.job jobId) =>
    if ← awaitJob ctx jobId then finish ctx task lastPop jobId else return .again lastPop
  | none => advance ctx task lastPop (← (Backlog.next task.tablePrefix : Leased (Option String)))

/-- Hands over to the next subscriber by posting the backfill marker anew. -/
def handOver (task : Task) : Invocation SubscriberOutcome := do
  let _ ← task.backfill.repost task.version
  return .handoff

/-- Turn after turn, while there is time for one. -/
def turns (ctx : Context) (task : Task) : (rounds : Nat) → (lastPop : Duration) → Leased SubscriberOutcome
  | 0, _ => Leased.lift (Invocation.halt .cutOff)
  | rounds + 1, lastPop => do
    if (← (Invocation.now : Leased Duration)) + (ctx.settings.jobWait + turnMargin) < task.deadline then
      match ← turn ctx task lastPop with
      | .again lastPop => turns ctx task rounds lastPop
      | .ended outcome => return outcome
    else handOver task

def work (ctx : Context) (tablePrefix : String) : Leased SubscriberOutcome := do
  let budget ← (Invocation.ofExcept ctx.settings.subscriberBudget : Leased Duration)
  let deadline ← (Invocation.after budget : Leased Duration)
  let backfill := BackfillMarker.ofTable tablePrefix ctx.layout.gateName
  match ← (backfill.head : Leased (Option ObjectInfo)) with
  | none => return .superseded
  | some trigger =>
    let _ ← (Claim.takeObject trigger : Leased String)
    -- the deadline counts from before the claim, the last pop from after it
    turns ctx ⟨tablePrefix, backfill, trigger.version, deadline⟩ ctx.patience
      (← (Invocation.now : Leased Duration))

/-- **Runs a subscriber of a table.** -/
def run (ctx : Context) (tablePrefix : String) : Invocation SubscriberOutcome := do
  let outcome ← ExceptT.mk do
    let (result, _) ← (work ctx tablePrefix).run.run (some (TableLock.ofTable tablePrefix ctx.settings.jobPrefix))
    return result
  Invocation.count (.subscriberOutcomes outcome.name)
  return outcome

end Subscriber
end Intake
