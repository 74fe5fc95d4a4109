import Intake.Http.Basic
import Intake.Job.Basic
import Intake.Json.Printer
import Intake.Json.Reader
import Intake.Json.Record
import Intake.Remote.Objects
import Intake.Retry
import Intake.Url.Reader
import Intake.Warehouse.Fault
/-!
# Remote.Jobs — the warehouse over the wire

The ids of jobs are chosen here, so a job that is handed in twice is refused the second time and never runs twice.
-/
namespace Intake

structure JobService where
  endpoint : String := "https://bigquery.googleapis.com"
  project : String
  location : Option String := none
  retry : RetryPolicy := {}
  /-- The number of pages after which a listing is cut off. -/
  patience : Nat

structure JobPage where
  jobs : List JobStatus
  next : Option String

/-- A computation on the remote warehouse. -/
abbrev JobCall := ExceptT WarehouseFault WireProgram

namespace JobService

/-- What the tokens are for. -/
def scope : String := "https://www.googleapis.com/auth/bigquery"

/-- The fields of a value, none if it is no object. -/
def fieldsOf : Json → List (String × Json)
  | .object fields => fields
  | _ => []

def tableResource (service : JobService) (table : TableRef) : Json :=
  .ofFields [("projectId", .string (table.project.getD service.project)), ("datasetId", .string table.dataset),
    ("tableId", .string table.tableId)]

def configuration (service : JobService) (job : Job) : Json :=
  match job.work with
  | .load config =>
    let load := Fields.insert "sourceUris" (.strings job.uris)
      (Fields.insert "destinationTable" (service.tableResource job.destination) (fieldsOf config))
    .ofFields [("labels", .object job.labels), ("load", .object load)]
  | .query sql table config =>
    let definition := Fields.insert "sourceUris" (.strings job.uris) (fieldsOf config)
    let table := if table.isEmpty then externalTableName else table
    .ofFields [("labels", .object job.labels),
      ("query", .ofFields [("query", .string sql), ("useLegacySql", .bool false),
        ("tableDefinitions", .object [(table, .object definition)])])]

/-- **A job as it is handed in.** -/
def resource (service : JobService) (job : Job) : Json :=
  .ofFields [
    ("jobReference", .ofFields ([("projectId", .string service.project), ("jobId", .string job.id)] ++
      (service.location.map fun location => ("location", Json.string location)).toList)),
    ("configuration", service.configuration job)]

def error? (value : Json) : Option String := do
  match ← value.record? ["reason", "message"] with
  | [reason, message] =>
    return match ← Json.optional? Json.string? reason, ← Json.optional? Json.string? message with
      | some reason, some message => reason ++ ": " ++ message
      | none, some message => message
      | some reason, none => reason
      | none, none => "unknown error"
  | _ => none

def state? (value : Json) : Option (String × Option String) := do
  match ← value.record? ["state", "errorResult"] with
  | [state, error] => return (← Json.required? Json.string? state, ← Json.optional? error? error)
  | _ => none

/-- The kind of a query's statement, and the number of rows that it has changed. -/
def query? (value : Json) : Option (Option String × Option Nat) := do
  match ← value.record? ["statementType", "numDmlAffectedRows"] with
  | [kind, rows] =>
    return (← Json.optional? Json.string? kind,
      (← Json.optional? Json.string? rows).bind fun text => (readWord64 text).toOption)
  | _ => none

def statistics? (value : Json) : Option (Option (Option String × Option Nat)) := do
  match ← value.record? ["query"] with
  | [query] => Json.optional? query? query
  | _ => none

def jobId? (value : Json) : Option String := do
  match ← value.record? ["jobId"] with
  | [id] => Json.required? Json.string? id
  | _ => none

def stateOf : String → JobState
  | "DONE" => .done
  | "RUNNING" => .running
  | _ => .pending

/-- **How a job stands, from its resource.**  In a list of jobs the state stands outside of the status. -/
def status? (value : Json) : Option JobStatus := do
  match ← value.record? ["jobReference", "status", "state", "errorResult", "statistics"] with
  | [reference, status, state, error, statistics] =>
    let id ← Json.required? jobId? reference
    let status ← Json.optional? state? status
    let outer := ((← Json.optional? Json.string? state).getD "", ← Json.optional? error? error)
    let (state, error) := status.getD outer
    let query := (← Json.optional? statistics? statistics).join
    return {
      jobId := id
      state := stateOf state
      error := error
      statementType := query.bind (·.1)
      affectedRows := query.bind (·.2) }
  | _ => none

def page? (value : Json) : Option JobPage := do
  match ← value.record? ["jobs", "nextPageToken"] with
  | [jobs, next] => return ⟨← Json.listOf? status? jobs, ← Json.optional? Json.string? next⟩
  | _ => none

def connect (service : JobService) : JobCall JobService := do
  match ← ExceptT.lift (WireProgram.ask .signIn) with
  | .ok () => return { service with endpoint := trimEndpoint service.endpoint }
  | .error reason => throw (.api (WireProgram.noCredentials reason) false)

def jobsUrl (service : JobService) : Except WarehouseFault Url := do
  let url ← (Url.read (service.endpoint ++ "/bigquery/v2/projects")).mapError fun fault =>
    .api ("invalid BigQuery endpoint: " ++ fault.message) false
  match url.pushAll? [service.project, "jobs"] with
  | some url => return url
  | none => throw (.api "BigQuery endpoint cannot be a base" false)

def jobUrl (service : JobService) (id : String) : Except WarehouseFault Url := do
  match (← service.jobsUrl).push? id with
  | some url => return url.withPairs (service.location.map (("location", ·))).toList
  | none => throw (.api "BigQuery endpoint cannot be a base" false)

def send (method : HttpMethod) (url : Url) (body : Option Json) : JobCall HttpResponse := do
  match ← ExceptT.lift (WireProgram.exchange scope method url
      (body.map fun value => ("application/json", Utf8.encode value.render))) with
  | .ok response => return response
  | .error (.noToken reason) => throw (.api (ExchangeFault.noToken reason).message true)
  | .error fault => throw (.api ("BigQuery request failed: " ++ fault.message) fault.isTransient)

def refused (response : HttpResponse) (call : String) : WarehouseFault :=
  .api (response.refusal "BigQuery" call) (isTransientStatus response.status)

def decode {α : Type} (read : Json → Option α) (response : HttpResponse) : JobCall α :=
  match (Json.readAll response.body).toOption.bind read with
  | some a => return a
  | none => throw (.response "error decoding response body")

def submitOnce (service : JobService) (resource : Json) : JobCall JobStatus := do
  let response ← send .post (← service.jobsUrl) (some resource)
  if response.isSuccess then decode status? response
  else throw (refused response "jobs.insert")

def jobOnce (service : JobService) (id : String) : JobCall (Option JobStatus) := do
  let response ← send .get (← service.jobUrl id) none
  if response.status = 404 then return none
  else if response.isSuccess then return some (← decode status? response)
  else throw (refused response "jobs.get")

def pageOnce (service : JobService) (id : String) (token : Option String) : JobCall JobPage := do
  let pairs := [("parentJobId", id), ("projection", "full")] ++ (token.map (("pageToken", ·))).toList
  let response ← send .get ((← service.jobsUrl).withPairs pairs) none
  if response.isSuccess then decode page? response
  else throw (refused response "jobs.list")

/-- Makes a call, again if it fails for a passing reason. -/
def retrying {α : Type} (service : JobService) (call : JobCall α) : JobCall α :=
  ExceptT.mk (service.retry.run (fun span => WireProgram.ask (.sleep span)) WarehouseFault.isTransient
    fun _ => call.run)

/-- **Hands in a job.** -/
def submit (service : JobService) (job : Job) : JobCall JobStatus :=
  service.retrying (service.submitOnce (service.resource job))

def job (service : JobService) (id : String) : JobCall (Option JobStatus) := service.retrying (service.jobOnce id)

/-- The pages of the jobs that a script has started, from a token on. -/
def pagesFrom (service : JobService) (id : String) :
    (patience : Nat) → (token : Option String) → JobCall (List JobPage)
  | 0, _ => ExceptT.mk (.halt .cutOff)
  | patience + 1, token => do
    let page ← service.retrying (service.pageOnce id token)
    match page.next with
    | none | some "" => return [page]
    | some next => return page :: (← service.pagesFrom id patience (some next))

/-- **The jobs that a script has started.** -/
def children (service : JobService) (id : String) : JobCall (List JobStatus) := do
  return (← service.pagesFrom id service.patience none).flatMap (·.jobs)

end JobService
end Intake
