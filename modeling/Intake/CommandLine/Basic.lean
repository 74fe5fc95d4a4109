import Intake.CommandLine.Options
import Intake.LogFormat
import Intake.Text.Decimal
/-!
# CommandLine — what the program is started for

The program serves notifications, or handles a single one.  Options that hold for both may stand before the command or
after it; the one after it wins.
-/
namespace Intake

inductive Command where
  | serve (port : Nat) (reportErrors : Bool)
  | handle (bucket key : String)
  deriving DecidableEq, Repr

structure CommandLine where
  logFormat : LogFormat
  /-- Objects and jobs are kept in memory. -/
  inMemory : Bool
  /-- The project that runs the jobs. -/
  storageProject : Option String
  location : Option String
  command : Command
  deriving DecidableEq, Repr

namespace CommandLine

/-- The variable of a switch says whether it is on. -/
def isTruth (text : String) : Bool := text == "true" || text == "false"

def port? (text : String) : Option Nat :=
  match readSigned64? text with
  | some n => if 0 ≤ n ∧ n ≤ 65535 then some n.toNat else none
  | none => none

def helpOption : OptionSpec := { name := "help", letter := some 'h', kind := .help }

def sharedOptions : List OptionSpec := [
  { name := "log-format", variableName := some "LANDFALL_LOG_FORMAT", accepts := fun s => (LogFormat.read s).toBool },
  { name := "in-memory", kind := .switch, variableName := some "LANDFALL_IN_MEMORY", accepts := isTruth },
  { name := "storage-project", variableName := some "BQ_STORAGE_PROJECT" },
  { name := "location", variableName := some "BQ_LOCATION" },
  helpOption]

/-- The options in front of the command. -/
def rootOptions : List OptionSpec := sharedOptions ++ [{ name := "version", letter := some 'V', kind := .version }]

def serveOptions : List OptionSpec := sharedOptions ++ [
  { name := "port", variableName := some "PORT", accepts := fun s => (port? s).isSome },
  { name := "report-errors", kind := .switch, variableName := some "LANDFALL_REPORT_ERRORS", accepts := isTruth }]

def handleOptions : List OptionSpec := sharedOptions ++ [{ name := "bucket" }, { name := "key" }]

def commands : List String := ["serve", "handle", "help"]

/-- The variables that stand in for options. -/
def variableNames : List String := serveOptions.filterMap (·.variableName)

def helpOn : List String → ReadingStop
  | [] => .help
  | [name] => if commands.contains name then .help else .misuse
  | _ => .misuse

def readAfter (specs : List OptionSpec) (lookup : String → Option String) (args : List String) :
    Except ReadingStop Options := do
  let (options, _) ← Options.read specs [] {} args
  options.checkVariables specs lookup
  return options

/-- The value of an option: after the command, in front of it, or from its variable. -/
def valueOf? (specs : List OptionSpec) (lookup : String → Option String) (front after : Options) (name : String) :
    Option String :=
  (after.get? name).or ((front.get? name).or (Options.standIn? specs lookup name))

/-- **Reads the arguments of the program.** -/
def read (lookup : String → Option String) (args : List String) : Except ReadingStop CommandLine := do
  let (front, command?) ← Options.read rootOptions commands {} args
  let some (name, rest) := command? | throw .misuse
  if name = "help" then throw (helpOn rest)
  let specs := if name = "serve" then serveOptions else handleOptions
  let after ← readAfter specs lookup rest
  let value := valueOf? specs lookup front after
  let command ← if name = "serve" then
      pure (.serve (((value "port").bind port?).getD 8080) (value "report-errors" == some "true"))
    else
      match value "bucket", value "key" with
      | some bucket, some key => pure (.handle bucket key)
      | _, _ => throw .misuse
  let front ← front.settle
  front.checkVariables rootOptions lookup
  let value := valueOf? specs lookup front after
  return {
    logFormat := ((value "log-format").bind fun s => (LogFormat.read s).toOption).getD .json
    inMemory := value "in-memory" == some "true"
    storageProject := value "storage-project"
    location := value "location"
    command := command }

end CommandLine
end Intake
