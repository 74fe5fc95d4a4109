import Intake.Backlog
/-!
# Monitor — a backlog does not stay without a subscriber

A subscriber that finds its backlog empty deletes the backfill marker; a marker that is enqueued at that moment finds
the backfill marker still there and does not post it.  So every enqueuing, and every notification of a pointer, looks
a while later whether a backlog is left without its marker, and posts it.  A backfill marker that is older than any
invocation can get is replaced.
-/
namespace Intake

inductive MonitorOutcome where
  | healthy
  | reposted
  | idle
  | gateClosed
  deriving DecidableEq, Repr

def MonitorOutcome.name : MonitorOutcome → String
  | .healthy => "healthy"
  | .reposted => "reposted"
  | .idle => "idle"
  | .gateClosed => "gate_closed"

namespace Monitor

def repost (backfill : BackfillMarker) (reason : String) : Invocation MonitorOutcome := do
  match ← backfill.post with
  | .posted _ =>
    Invocation.count (.monitorReposts reason)
    return .reposted
  | .alreadyPresent => return .healthy
  | .gateClosed => return .gateClosed

/-- Looks for the backfill marker again and again; true if it is there before the deadline has passed. -/
def appears (backfill : BackfillMarker) (deadline interval : Duration) : (rounds : Nat) → Invocation Bool
  | 0 => Invocation.halt .cutOff
  | rounds + 1 => do
    match ← backfill.head with
    | some _ => return true
    | none =>
      if deadline ≤ (← Invocation.now) then return false
      else
        Invocation.sleep interval
        appears backfill deadline interval rounds

/-- Waits for a subscriber to show up, and posts the backfill marker if none does although there is a backlog. -/
def watch (ctx : Context) (tablePrefix : String) (backfill : BackfillMarker) : Invocation MonitorOutcome := do
  let window := ctx.settings.subscriberWait
  Invocation.sleep window
  if ← appears backfill (← Invocation.after window) ctx.settings.jobPoll ctx.patience then return .healthy
  match ← Backlog.next tablePrefix with
  | none => return .idle
  | some _ => repost backfill "missing"

/-- **Sees to it that a backlog has a subscriber.** -/
def ensureSubscriber (ctx : Context) (tablePrefix : String) : Invocation MonitorOutcome := do
  let backfill := BackfillMarker.ofTable tablePrefix ctx.layout.gateName
  match ← backfill.head with
  | none => watch ctx tablePrefix backfill
  | some existing =>
    let instant ← (Invocation.ask .wallClock : Invocation Timestamp)
    if ctx.settings.timeout < instant.since existing.created then
      match ← backfill.delete existing.version with
      -- somebody has posted it anew
      | .conflict _ => return .healthy
      | _ => repost backfill "abandoned"
    else watch ctx tablePrefix backfill

end Monitor
end Intake
