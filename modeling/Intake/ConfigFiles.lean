import Intake.Cloud
import Intake.Json.Merge
import Intake.Json.Reader
import Intake.Key
import Intake.Text.Blank
/-!
# ConfigFiles — what producers say about their data

Beside the data, and in every directory above it, there may be a configuration folder.  JSON files of one name are
laid over each other from the root to the data, so that the nearest has the last word.  Of a transformation in SQL,
and of the file that asks for order, the nearest counts alone.
-/
namespace Intake

structure ConfigFile where
  key : String
  body : Octets

namespace ConfigFiles

/-- The texts before the slashes of a key, the shortest first. -/
def directoriesOf : List Char → List (List Char)
  | [] => []
  | c :: rest =>
    let deeper := (directoriesOf rest).map (c :: ·)
    if c = '/' then [] :: deeper else deeper

/-- The configuration folders that a key looks into, the nearest first. -/
def folders (key : String) : List String :=
  -- the empty text before a leading slash would be the root once more
  let above := (directoriesOf key.toList).filter fun dir => !dir.isEmpty
  (above.reverse ++ [[]]).map fun dir => Key.join (String.ofList dir) Key.configFolder

/-- A name fits one with a star for any text. -/
def fits (shape name : String) : Bool :=
  match cutText? "*" shape with
  | none => shape == name
  | some (start, finish) =>
    -- the two ends of the shape may not share characters of the name
    start.utf8ByteSize + finish.utf8ByteSize ≤ name.utf8ByteSize && startsWith start name &&
      finish.toList.isSuffixOf name.toList

/-- The file of a name in a folder; with a star in the name there must not be several. -/
def findIn (folder name : String) : Invocation (Option ConfigFile) :=
  if !holdsText "*" name then do
    let key := Key.join folder name
    return (← Invocation.get? key).map fun body => ⟨key, body⟩
  else do
    let listing ← Invocation.list (folder ++ "/") (some "/")
    match (listing.objects.map (·.key)).filter fun key => fits name (Key.name key) with
    | [] => return none
    | [key] => return some ⟨key, ← Invocation.get key⟩
    | several => throw (.configConflict folder several)

/-- The files of a name in some folders, those of the later folders first. -/
def findAllIn (name : String) : List String → Invocation (List ConfigFile)
  | [] => return []
  | folder :: rest => do
    let here ← findIn folder name
    let beyond ← findAllIn name rest
    return beyond ++ here.toList

/-- The files of a name that count for a key, from the root on. -/
def findAll (key name : String) : Invocation (List ConfigFile) := findAllIn name (folders key)

def findFirstIn (name : String) : List String → Invocation (Option ConfigFile)
  | [] => return none
  | folder :: rest => do
    match ← findIn folder name with
    | some file => return some file
    | none => findFirstIn name rest

def findNearest (key name : String) : Invocation (Option ConfigFile) := findFirstIn name (folders key)

def readObject (file : ConfigFile) : Except Failure Json := do
  let value ← (Json.readAll file.body).mapError fun fault =>
    .store (.serialization (file.key ++ " is not valid JSON: " ++ fault.message))
  match value.sortFields with
  | .object fields => return .object fields
  | _ => throw (.store (.serialization (file.key ++ " must contain a JSON object")))

/-- Files laid over a value, one after the other. -/
def layOver (base : Json) : List ConfigFile → Except Failure Json
  | [] => .ok base
  | file :: rest => do layOver (base.merge (← readObject file)) rest

/-- The configuration of a load, before any file. -/
def baseLoadConfig (labels : Labels) : Json :=
  .ofFields [("writeDisposition", .string "WRITE_APPEND"), ("labels", .object labels)]

def defaultLoadConfig : Json :=
  .ofFields [("sourceFormat", .string "CSV"), ("fieldDelimiter", .string ",")]

def defaultExternalConfig : Json := .ofFields [("sourceFormat", .string "PARQUET")]

/-- **The configuration of a load**, over a base. -/
def loadConfig (key : String) (base : Json) : Invocation Json := do
  match ← findAll key "load.json" with
  | [] => return base.merge defaultLoadConfig
  | files => Invocation.ofExcept (layOver base files)

/-- **The configuration of an external table.**  It has to name the format of the files. -/
def externalConfig (key : String) : Invocation Json := do
  let files ← findAll key "external.json"
  let config ← Invocation.ofExcept (layOver defaultExternalConfig files)
  match (config.field? "sourceFormat").bind Json.string? with
  | some format =>
    if isBlankText format then throw missing else return config
  | none => throw missing
where
  /-- No format is named. -/
  missing : Failure := .configMissing ("external.json for " ++ key ++ " leaves sourceFormat unset")

/-- **The transformation in SQL**, if there is one. -/
def transformSql (key : String) : Invocation (Option String) := do
  match ← findNearest key "*.sql" with
  | none => return none
  | some file =>
    match Utf8.decode file.body with
    | .error fault => throw (.store (.serialization (file.key ++ " is not UTF-8: " ++ fault.message)))
    | .ok sql =>
      if isBlankText sql then throw (.configMissing ("transform " ++ file.key ++ " is empty"))
      else return some sql

/-- The places of SQL that name the destination, filled in. -/
def renderSql (sql dataset table : String) : String :=
  replaceText "\x7bdest_table\x7d" table (replaceText "\x7bdest_dataset\x7d" dataset sql)

def orderedIn : List String → Invocation Bool
  | [] => return false
  | folder :: rest => do
    match ← Invocation.head (Key.join folder Key.orderName) with
    | some _ => return true
    | none => orderedIn rest

/-- **Batches under a key are to be applied in order.** -/
def isOrdered (key : String) : Invocation Bool := orderedIn (folders key)

end ConfigFiles
end Intake
