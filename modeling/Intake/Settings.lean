import Intake.Destination
import Intake.Retry
import Intake.Text.Blank
import Intake.Text.Decimal
/-!
# Settings — what an operator can choose

Every setting has a default, and a variable that overrides it when it is set to something other than blanks.
-/
namespace Intake

/-- What an operator can choose. -/
structure Settings where
  keyPattern : String := defaultKeyPattern
  /-- The name of the object that says that a batch is complete. -/
  successName : String := "_SUCCESS"
  /-- The name of the object that has to be there before a table's backlog is worked on. -/
  gateName : Option String := none
  alwaysOrdered : Bool := false
  /-- How long an invocation may take. -/
  timeout : Duration := .ofSeconds 60
  /-- The time kept for handing over to the next invocation. -/
  restartBuffer : Duration := .ofSeconds 30
  /-- How long to wait for a job at a time. -/
  jobWait : Duration := .ofSeconds 5
  jobPoll : Duration := .ofSeconds 1
  /-- How long the monitor gives a subscriber to show up. -/
  subscriberWait : Duration := .ofSeconds 5
  maxBatchBytes : Nat := 15000000000000
  maxBatchUris : Nat := 10000
  /-- What the ids of this engine's jobs start with. -/
  jobPrefix : String := "gcf-ingest-"
  failOnZeroRows : Bool := true
  maxRetries : Nat := 3
  /-- The project of tables whose key names none. -/
  defaultProject : Option String := none
  functionName : String := "landfall"

namespace Settings

/-- A variable that is set to something other than blanks. -/
def textVar (lookup : String → Option String) (name : String) : Option String :=
  ((lookup name).map trim).filter fun v => !v.isEmpty

def numberVar (lookup : String → Option String) (name : String) : Except Failure (Option Nat) :=
  match textVar lookup name with
  | none => .ok none
  | some v =>
    match readWord64 v with
    | .ok n => .ok (some n)
    | .error fault => .error (.configuration (name ++ " must be a u64: " ++ fault.message))

def truth? (v : String) : Option Bool :=
  match lowerAscii (trim v) with
  | "true" | "1" | "yes" | "y" => some true
  | "false" | "0" | "no" | "n" => some false
  | _ => none

def truthVar (lookup : String → Option String) (name : String) : Except Failure (Option Bool) :=
  match textVar lookup name with
  | none => .ok none
  | some v =>
    match truth? v with
    | some b => .ok (some b)
    | none => .error (.configuration (name ++ " must be a boolean (true/false/1/0)"))

def secondsVar (lookup : String → Option String) (name : String) : Except Failure (Option Duration) :=
  return (← numberVar lookup name).map .ofSeconds

def variableNames : List String :=
  ["ORDER_PER_TABLE", "FUNCTION_TIMEOUT_SEC", "RESTART_BUFFER_SECONDS", "WAIT_FOR_JOB_SECONDS",
    "JOB_POLL_INTERVAL_SECONDS", "ENSURE_SUBSCRIBER_SECONDS", "MAX_BATCH_BYTES", "MAX_SOURCE_URIS_PER_LOAD",
    "FAIL_ON_ZERO_DML_ROWS_AFFECTED", "BQ_API_MAX_RETRIES", "DESTINATION_REGEX", "SUCCESS_FILENAME",
    "START_BACKFILL_FILENAME", "JOB_PREFIX", "BQ_PROJECT", "FUNCTION_NAME"]

/-- **The settings that the variables ask for.** -/
def ofLookup (lookup : String → Option String) : Except Failure Settings := do
  let d : Settings := {}
  let alwaysOrdered ← truthVar lookup "ORDER_PER_TABLE"
  let timeout ← secondsVar lookup "FUNCTION_TIMEOUT_SEC"
  let restartBuffer ← secondsVar lookup "RESTART_BUFFER_SECONDS"
  let jobWait ← secondsVar lookup "WAIT_FOR_JOB_SECONDS"
  let jobPoll ← secondsVar lookup "JOB_POLL_INTERVAL_SECONDS"
  let subscriberWait ← secondsVar lookup "ENSURE_SUBSCRIBER_SECONDS"
  let maxBatchBytes ← numberVar lookup "MAX_BATCH_BYTES"
  let maxBatchUris ← numberVar lookup "MAX_SOURCE_URIS_PER_LOAD"
  let failOnZeroRows ← truthVar lookup "FAIL_ON_ZERO_DML_ROWS_AFFECTED"
  let maxRetries ← numberVar lookup "BQ_API_MAX_RETRIES"
  if maxRetries.any (Nat.pow 2 32 ≤ ·) then throw (.configuration "BQ_API_MAX_RETRIES is out of range")
  return {
    keyPattern := (textVar lookup "DESTINATION_REGEX").getD d.keyPattern
    successName := (textVar lookup "SUCCESS_FILENAME").getD d.successName
    gateName := textVar lookup "START_BACKFILL_FILENAME"
    alwaysOrdered := alwaysOrdered.getD d.alwaysOrdered
    timeout := timeout.getD d.timeout
    restartBuffer := restartBuffer.getD d.restartBuffer
    jobWait := jobWait.getD d.jobWait
    jobPoll := jobPoll.getD d.jobPoll
    subscriberWait := subscriberWait.getD d.subscriberWait
    maxBatchBytes := maxBatchBytes.getD d.maxBatchBytes
    maxBatchUris := maxBatchUris.getD d.maxBatchUris
    jobPrefix := (textVar lookup "JOB_PREFIX").getD d.jobPrefix
    failOnZeroRows := failOnZeroRows.getD d.failOnZeroRows
    maxRetries := maxRetries.getD d.maxRetries
    defaultProject := textVar lookup "BQ_PROJECT"
    functionName := (textVar lookup "FUNCTION_NAME").getD d.functionName }

/-- How long a subscriber may work before it hands over: longer than one wait for a job. -/
def subscriberBudget (s : Settings) : Except Failure Duration :=
  let budget := s.timeout - s.restartBuffer
  if budget ≤ s.jobWait then
    .error (.configuration ("invocation timeout " ++ decimal s.timeout.seconds ++ "s minus restart buffer " ++
      decimal s.restartBuffer.seconds ++ "s must exceed the job wait window " ++
      decimal s.jobWait.seconds ++ "s"))
  else .ok budget

/-- **Checks the settings, and reads their pattern.** -/
def validate (s : Settings) : Except Failure KeyPattern := do
  let pattern ← KeyPattern.read s.keyPattern
  if s.successName.isEmpty || holdsText "/" s.successName then
    throw (.configuration "SUCCESS_FILENAME must be a non-empty basename")
  if s.gateName.any (holdsText "/") then
    throw (.configuration "START_BACKFILL_FILENAME must be a basename")
  if s.jobPrefix.isEmpty then throw (.configuration "JOB_PREFIX must not be empty")
  if s.maxBatchBytes = 0 ∨ s.maxBatchUris = 0 then
    throw (.configuration "MAX_BATCH_BYTES and MAX_SOURCE_URIS_PER_LOAD must be positive")
  if s.jobPoll = 0 then throw (.configuration "JOB_POLL_INTERVAL_SECONDS must be positive")
  let _ ← s.subscriberBudget
  return pattern

def retryPolicy (s : Settings) : RetryPolicy := { maxRetries := s.maxRetries }

end Settings
end Intake
