import Intake.Settings
/-!
# Layout — what the keys of a bucket mean

A layout knows the rule from keys to destinations and the names of the objects that drive the engine.
-/
namespace Intake

/-- What the keys of a bucket mean. -/
structure Layout where
  resolver : Resolver
  successName : String
  gateName : Option String
  defaultProject : Option String

namespace Layout

def withResolver (resolver : Resolver) (s : Settings) : Layout :=
  ⟨resolver, s.successName, s.gateName, s.defaultProject⟩

def ofSettings (s : Settings) : Except Failure Layout :=
  return withResolver (← s.validate).resolve s

/-- The name is one of an object that stands at a table prefix. -/
def isTableLevel (layout : Layout) (name : String) : Bool :=
  name == Key.backfillName || name == Key.lockName || layout.gateName == some name

/-- The destination of a key.  A backlog pointer has that of its marker. -/
def destination (layout : Layout) (key : String) : Except Failure Destination := do
  let found ← layout.resolver (Key.withoutBacklog key)
  return { found with table := { found.table with project := found.table.project.or layout.defaultProject } }

def tablePrefix (layout : Layout) (key : String) : Except Failure String :=
  if layout.isTableLevel (Key.name key) then .ok (Key.directory key)
  else return (← layout.destination key).tablePrefix

end Layout
end Intake
