import Intake.Cloud
import Intake.Sandbox.Bucket
import Intake.Warehouse.Scripted
/-!
# Sandbox.World — surroundings to try the engine in

A bucket and a warehouse in memory, on a clock that moves only when somebody sleeps.  While one sleeps, others act: what
they are going to do is planned ahead, each step at its time.
-/
namespace Intake

/-- A step of somebody other than the engine, or of the engine's observer. -/
inductive WorldStep where
  | get (key : String)
  | head (key : String)
  | put (key : String) (body : Octets) (precondition : Precondition)
  | delete (key : String) (precondition : Precondition)
  | list (start : String) (delimiter : Option String)
  | keys
  | contains (key : String)
  /-- Makes an object older, by nanoseconds. -/
  | backdate (key : String) (age : Int)
  /-- From now on, calls on keys that start with a text fail. -/
  | failUnder (start : String)
  | clearFailures
  | drainFinalized
  | drainCalls
  /-- Writes objects one after the other; the last one is the one to tell about. -/
  | produce (files : List (String × Octets)) (marker : Option String)
  | script (rules : List ScriptRule) (otherwise : JobScript)
  | submit (job : Job)
  | job (id : String)
  | children (id : String)
  | inFlight

inductive WorldReply where
  | none
  | ok
  | body (octets : Octets)
  | info (object : Option ObjectInfo)
  | put (result : PutResult)
  | delete (result : DeleteResult)
  | listing (listing : Listing)
  | keys (keys : List String)
  | key (key : String)
  | truth (value : Bool)
  | number (value : Nat)
  | calls (calls : List StoreCall)
  | status (status : Option JobStatus)
  | statuses (statuses : List JobStatus)
  | storeFault (fault : StoreFault)
  | warehouseFault (fault : WarehouseFault)

/-- Surroundings to try the engine in. -/
structure World where
  bucketName : String
  bucket : Bucket := {}
  warehouse : ScriptedWarehouse := {}
  tally : Tally := []
  elapsed : Duration := 0
  /-- How often the instant of the calendar was asked for. -/
  readings : Nat := 0
  idsDrawn : Nat := 0
  /-- What others are going to do, in the order of time. -/
  planned : List (Duration × WorldStep) := []
  replies : List WorldReply := []

namespace World

/-- The instant at which the clock starts: 2024-01-02T03:04:05Z. -/
def start : Timestamp := .ofUnix 1704164645 0

/-- The instant of the calendar.  Two readings are never the same: each is a millisecond on. -/
def instant (w : World) : Timestamp := start.later (w.elapsed + .ofMillis w.readings)

/-- Writes an object; a write that takes place reads the clock. -/
def put (w : World) (key : String) (body : Octets) (precondition : Precondition) :
    Except StoreFault PutResult × World :=
  let (result, bucket) := w.bucket.put key body precondition w.instant
  match result with
  | .ok (.written _) => (result, { w with bucket := bucket, readings := w.readings + 1 })
  | _ => (result, { w with bucket := bucket })

def putAll (w : World) : List (String × Octets) → World
  | [] => w
  | (key, body) :: rest => (w.put key body .always).2.putAll rest

def replyOf {α : Type} (f : α → WorldReply) : Except StoreFault α → WorldReply
  | .ok a => f a
  | .error fault => .storeFault fault

def jobReplyOf {α : Type} (f : α → WorldReply) : Except WarehouseFault α → WorldReply
  | .ok a => f a
  | .error fault => .warehouseFault fault

def perform (w : World) : WorldStep → WorldReply × World
  | .get key =>
    let (result, bucket) := w.bucket.get key
    (replyOf .body result, { w with bucket := bucket })
  | .head key =>
    let (result, bucket) := w.bucket.head key
    (replyOf .info result, { w with bucket := bucket })
  | .put key body precondition =>
    let (result, w) := w.put key body precondition
    (replyOf .put result, w)
  | .delete key precondition =>
    let (result, bucket) := w.bucket.delete key precondition
    (replyOf .delete result, { w with bucket := bucket })
  | .list start delimiter =>
    let (result, bucket) := w.bucket.list start delimiter
    (replyOf .listing result, { w with bucket := bucket })
  | .keys => (.keys w.bucket.store.keys, w)
  | .contains key => (.truth (w.bucket.store.get? key).isSome, w)
  | .backdate key age =>
    match w.bucket.store.backdate? key age with
    | some store => (.ok, { w with bucket := { w.bucket with store := store } })
    | none => (.storeFault (.objectNotFound key), w)
  | .failUnder start => (.none, { w with bucket := { w.bucket with failing := w.bucket.failing ++ [start] } })
  | .clearFailures => (.none, { w with bucket := { w.bucket with failing := [] } })
  | .drainFinalized => (.keys w.bucket.finalized, { w with bucket := { w.bucket with finalized := [] } })
  | .drainCalls => (.calls w.bucket.calls, { w with bucket := { w.bucket with calls := [] } })
  | .produce files marker => ((marker.map .key).getD .none, w.putAll files)
  | .script rules otherwise =>
    (.none, { w with warehouse := { w.warehouse with scriptOf := ScriptRule.choose rules otherwise } })
  | .submit job =>
    let (result, warehouse) := w.warehouse.submit job
    (jobReplyOf (fun s => .status (some s)) result, { w with warehouse := warehouse })
  | .job id =>
    let (status, warehouse) := w.warehouse.poll id
    (.status status, { w with warehouse := warehouse })
  | .children id => (jobReplyOf .statuses (w.warehouse.children id), w)
  | .inFlight => (.number w.warehouse.maxInFlight, w)

/-- Takes the planned steps up to a time, each at its time. -/
def catchUp (until_ : Duration) : List (Duration × WorldStep) → World → World
  | [], w => { w with planned := [] }
  | (time, step) :: rest, w =>
    if time ≤ until_ then
      let (reply, w) := { w with elapsed := time }.perform step
      catchUp until_ rest { w with replies := w.replies ++ [reply] }
    else { w with planned := (time, step) :: rest }

/-- **Sleeps**, while others act. -/
def sleep (w : World) (span : Duration) : World :=
  { catchUp (w.elapsed + span) w.planned w with elapsed := w.elapsed + span }

def idOf (n : Nat) : String := "00000000000040008000" ++ paddedHex 12 n

/-- **Answers a call of the engine.** -/
def answer : (call : CloudCall) → World → call.Reply × World
  | .openBucket name, w =>
    (if name = w.bucketName then .ok () else .error (.notFound ("bucket " ++ name)), w)
  | .get key, w =>
    let (result, bucket) := w.bucket.get key
    (result, { w with bucket := bucket })
  | .head key, w =>
    let (result, bucket) := w.bucket.head key
    (result, { w with bucket := bucket })
  | .put key body precondition, w => w.put key body precondition
  | .delete key precondition, w =>
    let (result, bucket) := w.bucket.delete key precondition
    (result, { w with bucket := bucket })
  | .list start delimiter, w =>
    let (result, bucket) := w.bucket.list start delimiter
    (result, { w with bucket := bucket })
  | .submit job, w =>
    let (result, warehouse) := w.warehouse.submit job
    (result, { w with warehouse := warehouse })
  | .job id, w =>
    let (status, warehouse) := w.warehouse.poll id
    (.ok status, { w with warehouse := warehouse })
  | .children id, w => (w.warehouse.children id, w)
  | .sleep span, w => ((), w.sleep span)
  | .now, w => (w.elapsed, w)
  | .wallClock, w => (w.instant, { w with readings := w.readings + 1 })
  | .freshId, w => (idOf (w.idsDrawn + 1), { w with idsDrawn := w.idsDrawn + 1 })
  | .count metric, w => ((), { w with tally := w.tally.add metric })

def run {α : Type} (w : World) (p : CloudProgram α) : Option α × World :=
  p.run answer w

end World
end Intake
