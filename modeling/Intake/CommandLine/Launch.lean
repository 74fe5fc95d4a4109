import Intake.CommandLine.Basic
import Intake.Dispatch
import Intake.Sandbox.World
/-!
# CommandLine.Launch — what becomes of a start

The program ends with 0 when it has done its work or has shown its help, with 1 when it has failed, and with 2 when it
was called in a way it does not know.
-/
namespace Intake

inductive LaunchFault where
  | failure (failure : Failure)
  /-- Nothing says which project runs the jobs. -/
  | noProject

def LaunchFault.message : LaunchFault → String
  | .failure f => f.message
  | .noProject => "BQ_STORAGE_PROJECT or BQ_PROJECT is required"

structure Ending where
  code : Nat
  /-- The outcome of a notification, as log lines of JSON show it. -/
  outcome : Option Outcome := none
  /-- What is said of a failure. -/
  complaint : Option String := none

namespace Ending

def failed (fault : LaunchFault) : Ending := { code := 1, complaint := some ("Error: " ++ fault.message) }

def ofStop : ReadingStop → Ending
  | .help | .version => { code := 0 }
  | .misuse => { code := 2 }

/-- A notification was handled, or not.  A failure after which a later notification finds its way is none. -/
def ofResult (format : LogFormat) : Except Failure Outcome → Ending
  | .ok outcome => { code := 0, outcome := if format = .json then some outcome else none }
  | .error f => if f.isRecoverable then { code := 0 } else failed (.failure f)

end Ending

namespace CommandLine

/-- The clients of the remote services are not part of this program. -/
def remoteUnavailable : Failure :=
  .store (.storage ("GcsProvider requires the 'gcp' feature to be enabled. " ++
    "Add `landfall-core = \x7b features = [\"gcp\"] \x7d` to your Cargo.toml.") false)

/-- **The context that the program works in**, for a bucket. -/
def context (line : CommandLine) (lookup : String → Option String) (bucket : String) (patience : Nat) :
    Except LaunchFault Context := do
  let settings ← (Settings.ofLookup lookup).mapError .failure
  if line.inMemory then (Context.ofSettings settings bucket patience).mapError .failure
  else if (line.storageProject.or settings.defaultProject).isNone then throw .noProject
  else throw (.failure remoteUnavailable)

/-- **Handles a single notification** in empty surroundings; nothing if the host's patience has run out. -/
def handleOnce (line : CommandLine) (lookup : String → Option String) (bucket key : String) (patience : Nat) :
    Option Ending :=
  match line.context lookup bucket patience with
  | .error fault => some (.failed fault)
  | .ok ctx =>
    let world : World := { bucketName := bucket }
    (world.run (Dispatch.handle ctx ⟨bucket, key, none⟩).run).1.map (Ending.ofResult line.logFormat)

end CommandLine
end Intake
