import Intake.Text.Cut
/-!
# Key — the names of objects

A key is a text with segments divided by slashes.  The last segment is its name, what stands before it its directory.
Some names and folders belong to the engine.
-/
namespace Intake
namespace Key

/-- Posted at a table prefix to start a subscriber. -/
def backfillName : String := "_BACKFILL"

def lockName : String := "_bqlock"

def backlogFolder : String := "_backlog"

def configFolder : String := "_config"

/-- The configuration file that asks for batches to be applied in order. -/
def orderName : String := "ORDERME"

def claimStart : String := "_claimed_"

/-- The last segment of a key. -/
def name (key : String) : String :=
  ((cutTextLast? "/" key).map (·.2)).getD key

/-- What stands before the last slash of a key; empty when there is none. -/
def directory (key : String) : String :=
  ((cutTextLast? "/" key).map (·.1)).getD ""

def join (dir name : String) : String :=
  if dir.isEmpty then name else dir ++ "/" ++ name

def isBacklog (key : String) : Bool :=
  startsWith "_backlog/" key || holdsText "/_backlog/" key

/-- The key without its first inner backlog folder. -/
def withoutBacklog (key : String) : String :=
  match cutText? "/_backlog/" key with
  | some (before, after) => before ++ "/" ++ after
  | none => key

def uri (bucket key : String) : String := "gs://" ++ bucket ++ "/" ++ key

end Key
end Intake
