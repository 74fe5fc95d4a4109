import Intake.Http.Basic
import Intake.Json.Reader
import Intake.Json.Record
import Intake.Retry
import Intake.Store.Basic
import Intake.Text.Quoted
import Intake.Timestamp.Reader
import Intake.Url.Reader
/-!
# Remote.Objects — the object store over the wire

Every precondition travels with its request as the generation that has to be there, 0 for none; the answer that it is
not is a result, not a fault.  Calls that fail for a passing reason are made again.
-/
namespace Intake

structure ObjectService where
  endpoint : String := "https://storage.googleapis.com"
  retry : RetryPolicy := {}
  /-- The number of pages after which a listing is cut off. -/
  patience : Nat

structure RemoteBucket where
  service : ObjectService
  name : String

structure ObjectPage where
  objects : List ObjectInfo
  folders : List String
  next : Option String
  deriving DecidableEq, Repr

/-- An endpoint without the slashes at its end. -/
def trimEndpoint (endpoint : String) : String :=
  String.ofList ((endpoint.toList.reverse.dropWhile (· == '/')).reverse)

abbrev ObjectCall := ExceptT StoreFault WireProgram

namespace ObjectService

/-- What the tokens are for. -/
def scope : String := "https://www.googleapis.com/auth/devstorage.read_write"

def connect (service : ObjectService) : ObjectCall ObjectService := do
  match ← ExceptT.lift (WireProgram.ask .signIn) with
  | .ok () => return { service with endpoint := trimEndpoint service.endpoint }
  | .error reason => throw (.storage (WireProgram.noCredentials reason) false)

def openBucket (service : ObjectService) (name : String) : Except StoreFault RemoteBucket :=
  if name.isEmpty || holdsText "/" name then .error (.invalidInput ("invalid bucket name: " ++ quoted name))
  else .ok ⟨service, name⟩

def objectInfo? (resource : Json) : Option ObjectInfo := do
  match ← resource.record? ["name", "size", "generation", "timeCreated", "updated"] with
  | [name, size, generation, created, updated] =>
    let created ← (← Json.required? Json.string? created) |> Timestamp.read?
    let updated ← Json.optional? (fun value => value.string?.bind Timestamp.read?) updated
    let size ← Json.optional? Json.string? size
    return {
      key := ← Json.required? Json.string? name
      size := (size.bind fun text => (readWord64 text).toOption).getD 0
      version := ← Json.required? Json.string? generation
      created := created
      updated := updated.getD created }
  | _ => none

def page? (resource : Json) : Option ObjectPage := do
  match ← resource.record? ["items", "prefixes", "nextPageToken"] with
  | [items, folders, next] =>
    return ⟨← Json.listOf? objectInfo? items, ← Json.listOf? Json.string? folders, ← Json.optional? Json.string? next⟩
  | _ => none

end ObjectService

namespace RemoteBucket

/-- The address of the objects, for reading or for writing. -/
def objectsUrl (b : RemoteBucket) (upload : Bool) : Except StoreFault Url := do
  let base := b.service.endpoint ++ (if upload then "/upload/storage/v1/b" else "/storage/v1/b")
  let url ← (Url.read base).mapError fun fault => .invalidInput ("invalid GCS endpoint: " ++ fault.message)
  match url.pushAll? [b.name, "o"] with
  | some url => return url
  | none => throw (.invalidInput "GCS endpoint cannot be a base")

def objectUrl (b : RemoteBucket) (key : String) : Except StoreFault Url := do
  match (← b.objectsUrl false).push? key with
  | some url => return url
  | none => throw (.invalidInput "GCS endpoint cannot be a base")

/-- A precondition as it travels with a request. -/
def preconditionPairs : Precondition → List (String × String)
  | .absent => [("ifGenerationMatch", "0")]
  | .version v => [("ifGenerationMatch", v)]
  | .always => []

def send (method : HttpMethod) (url : Url) (body : Option Octets) : ObjectCall HttpResponse := do
  match ← ExceptT.lift (WireProgram.exchange ObjectService.scope method url
      (body.map (("application/octet-stream", ·)))) with
  | .ok response => return response
  | .error (.noToken reason) => throw (.storage (ExchangeFault.noToken reason).message true)
  | .error fault => throw (.storage "GCS request failed" fault.isTransient)

def refused (response : HttpResponse) (call : String) : StoreFault :=
  .storage (response.refusal "GCS" call) (isTransientStatus response.status)

def decode {α : Type} (what : String) (read : Json → Option α) (response : HttpResponse) : ObjectCall α :=
  match (Json.readAll response.body).toOption.bind read with
  | some a => return a
  | none => throw (.serialization ("parse " ++ what ++ ": error decoding response body"))

def getOnce (b : RemoteBucket) (key : String) : ObjectCall Octets := do
  let url ← b.objectUrl key
  let response ← send .get (url.withPair "alt" "media") none
  if response.status = 404 then throw (.objectNotFound key)
  else if response.isSuccess then return response.body
  else throw (refused response "get")

def headOnce (b : RemoteBucket) (key : String) : ObjectCall (Option ObjectInfo) := do
  let response ← send .get (← b.objectUrl key) none
  if response.status = 404 then return none
  else if response.isSuccess then
    return some (← decode "object metadata" ObjectService.objectInfo? response)
  else throw (refused response "head")

/-- The generation that is there, 0 for none. -/
def currentVersion (b : RemoteBucket) (key : String) : ObjectCall String := do
  return ((← b.headOnce key).map (·.version)).getD "0"

def putOnce (b : RemoteBucket) (key : String) (body : Octets) (precondition : Precondition) :
    ObjectCall PutResult := do
  let url ← b.objectsUrl true
  let pairs := [("uploadType", "media"), ("name", key)] ++ preconditionPairs precondition
  let response ← send .post (url.withPairs pairs) (some body)
  if response.status = 412 then return .conflict (← b.currentVersion key)
  else if response.isSuccess then
    return .written (← decode "upload response" ObjectService.objectInfo? response).version
  else throw (refused response "put")

def deleteOnce (b : RemoteBucket) (key : String) (precondition : Precondition) : ObjectCall DeleteResult := do
  let url ← b.objectUrl key
  let response ← send .delete (url.withPairs (preconditionPairs precondition)) none
  if response.status = 404 then return .notFound
  else if response.status = 412 then return .conflict (← b.currentVersion key)
  else if response.isSuccess then return .deleted
  else throw (refused response "delete")

def pageOnce (b : RemoteBucket) (start : String) (delimiter token : Option String) : ObjectCall ObjectPage := do
  let url ← b.objectsUrl false
  let pairs := [("prefix", start)] ++ (delimiter.map (("delimiter", ·))).toList ++
    (token.map (("pageToken", ·))).toList
  let response ← send .get (url.withPairs pairs) none
  if response.isSuccess then decode "list response" ObjectService.page? response
  else throw (refused response "list")

/-- Makes a call, again if it fails for a passing reason. -/
def retrying {α : Type} (b : RemoteBucket) (call : ObjectCall α) : ObjectCall α :=
  ExceptT.mk (b.service.retry.run (fun span => WireProgram.ask (.sleep span)) StoreFault.isTransient fun _ => call.run)

def get (b : RemoteBucket) (key : String) : ObjectCall Octets := b.retrying (b.getOnce key)

def head (b : RemoteBucket) (key : String) : ObjectCall (Option ObjectInfo) := b.retrying (b.headOnce key)

def put (b : RemoteBucket) (key : String) (body : Octets) (precondition : Precondition) : ObjectCall PutResult :=
  b.retrying (b.putOnce key body precondition)

def delete (b : RemoteBucket) (key : String) (precondition : Precondition) : ObjectCall DeleteResult :=
  b.retrying (b.deleteOnce key precondition)

/-- The pages of a listing from a token on. -/
def pagesFrom (b : RemoteBucket) (start : String) (delimiter : Option String) :
    (patience : Nat) → (token : Option String) → ObjectCall (List ObjectPage)
  | 0, _ => ExceptT.mk (.halt .cutOff)
  | patience + 1, token => do
    let page ← b.retrying (b.pageOnce start delimiter token)
    match page.next with
    | none | some "" => return [page]
    | some next => return page :: (← b.pagesFrom start delimiter patience (some next))

/-- **The objects whose keys start with a text**, by the order of the keys. -/
def list (b : RemoteBucket) (start : String) (delimiter : Option String) : ObjectCall Listing := do
  let pages ← b.pagesFrom start delimiter b.service.patience none
  return {
    objects := (pages.flatMap (·.objects)).mergeSort (fun x y => x.key ≤ y.key)
    folders := (pages.flatMap (·.folders)).mergeSort (· ≤ ·) }

end RemoteBucket
end Intake
