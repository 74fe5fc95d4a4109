import Intake.Failure
import Intake.Key
import Intake.Pattern.Match
import Intake.Pattern.Reader
/-!
# Destination — the table an object belongs to

The key of an object says which table it is for: a pattern with the groups `dataset` and `table`, and if it likes
`project`, `partition`, the parts of a date, and `batch`, is matched against it.  The key up to the end of the table is
the table's prefix, under which the table's own objects are kept.
-/
namespace Intake

/-- A table, or one partition of it. -/
structure TableRef where
  project : Option String
  dataset : String
  table : String
  partition : Option String
  deriving DecidableEq, Repr

namespace TableRef

/-- The table with its partition. -/
def tableId (t : TableRef) : String := t.table ++ t.partition.getD ""

def text (t : TableRef) : String :=
  ((t.project.map (· ++ ".")).getD "") ++ t.dataset ++ "." ++ t.tableId

end TableRef

structure Destination where
  tablePrefix : String
  table : TableRef
  batchId : Option String
  deriving DecidableEq, Repr

/-- A rule that gives a key its destination. -/
abbrev Resolver := String → Except Failure Destination

def defaultKeyPattern : String :=
  "^(?P<dataset>[\\w\\-\\.]+)/(?P<table>[\\w\\-]+)/?(?:incremental|history)?/?(?P<partition>\\$[0-9]+)?/?" ++
  "(?P<yyyy>[0-9]\x7b4\x7d)?/?(?P<mm>[0-9]\x7b2\x7d)?/?(?P<dd>[0-9]\x7b2\x7d)?/?(?P<hh>[0-9]\x7b2\x7d)?/?" ++
  "(?P<batch>[\\w\\-]+)?/"

/-- A pattern of keys: it has the groups that a destination needs. -/
structure KeyPattern where
  pattern : Pattern
  deriving DecidableEq

namespace KeyPattern

def read (source : String) : Except Failure KeyPattern := do
  let pattern ← (Pattern.read source).mapError fun fault =>
    .configuration ("invalid destination pattern: " ++ fault.message)
  match ["dataset", "table"].find? fun group => !pattern.names.contains (some group) with
  | some group => throw (.configuration ("destination pattern must capture `" ++ group ++ "`"))
  | none => return ⟨pattern⟩

/-- The partition that a match names: itself, or the parts of a date. -/
def partitionOf (part : String → Option String) : Option String :=
  match part "partition" with
  | some p => some (if startsWith "$" p then p else "$" ++ p)
  | none => (part "yyyy").map fun year =>
    "$" ++ year ++ (part "mm").getD "" ++ (part "dd").getD "" ++ (part "hh").getD ""

/-- **The destination of a key.**  A group that matched the empty text counts as not matched. -/
def resolve (keys : KeyPattern) : Resolver := fun key => do
  let mismatch (reason : String) : Failure := .patternMismatch key reason
  let some found := keys.pattern.find? key | throw (mismatch "no match")
  let capture (group : String) : Option Capture := (found.capture? group).filter fun c => !c.text.isEmpty
  let part (group : String) : Option String := (capture group).map (·.text)
  let some dataset := part "dataset" | throw (mismatch "no dataset captured")
  let some table := capture "table" | throw (mismatch "no table captured")
  return {
    tablePrefix := String.ofList (key.toList.take table.finish)
    table := {
      project := part "project"
      dataset := dataset
      table := table.text
      partition := partitionOf part }
    batchId := part "batch" }

end KeyPattern
end Intake
