import Intake.Job.Basic
import Intake.Metric
import Intake.Program
import Intake.Store.Basic
/-!
# Cloud — what the engine asks of its surroundings

The engine works on the objects of one bucket and on the jobs of a warehouse.  Besides these it reads two clocks,
sleeps, draws fresh ids and counts what it does.
-/
namespace Intake

/-- A call of the engine to its surroundings. -/
inductive CloudCall where
  /-- Turns to a bucket; the calls on objects are about this one. -/
  | openBucket (name : String)
  | get (key : String)
  | head (key : String)
  | put (key : String) (body : Octets) (precondition : Precondition)
  | delete (key : String) (precondition : Precondition)
  | list (start : String) (delimiter : Option String)
  | submit (job : Job)
  | job (id : String)
  | children (id : String)
  | sleep (span : Duration)
  /-- The time since some moment before the start. -/
  | now
  /-- The instant of the calendar. -/
  | wallClock
  /-- An id of 32 hexadecimal digits that was not drawn before. -/
  | freshId
  | count (metric : Metric)

abbrev CloudCall.Reply : CloudCall → Type
  | .openBucket _ => Except StoreFault Unit
  | .get _ => Except StoreFault Octets
  | .head _ => Except StoreFault (Option ObjectInfo)
  | .put _ _ _ => Except StoreFault PutResult
  | .delete _ _ => Except StoreFault DeleteResult
  | .list _ _ => Except StoreFault Listing
  | .submit _ => Except WarehouseFault JobStatus
  | .job _ => Except WarehouseFault (Option JobStatus)
  | .children _ => Except WarehouseFault (List JobStatus)
  | .sleep _ => Unit
  | .now => Duration
  | .wallClock => Timestamp
  | .freshId => String
  | .count _ => Unit

abbrev Cloud : Interface := ⟨CloudCall, CloudCall.Reply⟩

abbrev CloudProgram := Program Cloud

def CloudProgram.ask (call : CloudCall) : CloudProgram call.Reply := @Program.call Cloud call

/-- A computation of the engine that may fail. -/
abbrev Invocation := ExceptT Failure CloudProgram

namespace Invocation

variable {α : Type}

def ask (call : CloudCall) : Invocation call.Reply :=
  ExceptT.lift (CloudProgram.ask call)

def store (p : CloudProgram (Except StoreFault α)) : Invocation α :=
  ExceptT.mk (p >>= fun r => pure (r.mapError .store))

def warehouse (p : CloudProgram (Except WarehouseFault α)) : Invocation α :=
  ExceptT.mk (p >>= fun r => pure (r.mapError .warehouse))

def ofExcept (r : Except Failure α) : Invocation α := ExceptT.mk (pure r)

def halt (cause : Halt) : Invocation α := ExceptT.mk (.halt cause)

/-- A number, if there is room for it; the invocation breaks down if there is none. -/
def fitted (limit n : Nat) : Invocation Nat := if n < limit then return n else halt .overflow

def get (key : String) : Invocation Octets := store (CloudProgram.ask (.get key))

def get? (key : String) : Invocation (Option Octets) := do
  match ← ask (.get key) with
  | .ok body => return some body
  | .error fault => if fault.isNotFound then return none else throw (.store fault)

def head (key : String) : Invocation (Option ObjectInfo) := store (CloudProgram.ask (.head key))

def put (key : String) (body : Octets) (precondition : Precondition) : Invocation PutResult :=
  store (CloudProgram.ask (.put key body precondition))

def delete (key : String) (precondition : Precondition) : Invocation DeleteResult :=
  store (CloudProgram.ask (.delete key precondition))

def list (start : String) (delimiter : Option String) : Invocation Listing :=
  store (CloudProgram.ask (.list start delimiter))

def submit (job : Job) : Invocation JobStatus := warehouse (CloudProgram.ask (.submit job))

def job (id : String) : Invocation (Option JobStatus) := warehouse (CloudProgram.ask (.job id))

def children (id : String) : Invocation (List JobStatus) := warehouse (CloudProgram.ask (.children id))

def count (metric : Metric) : Invocation Unit := ask (.count metric)

def sleep (span : Duration) : Invocation Unit := ask (.sleep span)

def now : Invocation Duration := ask .now

/-- Times are before this one: the clock counts seconds in 63 bits, and has been running for an hour. -/
@[irreducible]
def clockLimit : Duration := .ofSeconds (Nat.pow 2 63 - 3600)

/-- The time that is a span from now. -/
def after (span : Duration) : Invocation Duration := do fitted clockLimit ((← now) + span)

end Invocation
end Intake
