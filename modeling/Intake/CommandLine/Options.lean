import Intake.Text.Cut
/-!
# CommandLine.Options — the options of a command

A command is followed by its options, in any order, and perhaps by a command of its own.  An option that is not among
the arguments can be given by a variable of the surroundings.  Asking for help ends the reading at once.
-/
namespace Intake

inductive OptionKind where
  | switch
  | value
  | help
  | version
  deriving DecidableEq, Repr

structure OptionSpec where
  name : String
  letter : Option Char := none
  kind : OptionKind := .value
  /-- The variable that stands in for the option. -/
  variableName : Option String := none
  accepts : String → Bool := fun _ => true

/-- Why arguments are not read to their end. -/
inductive ReadingStop where
  | help
  | version
  | misuse
  deriving DecidableEq, Repr

/-- The options read so far.  A value that stands apart from its option is looked at only when something follows. -/
structure Options where
  given : List (String × String) := []
  /-- An option whose value is still to come. -/
  awaiting : Option OptionSpec := none
  /-- An option and its value, not yet looked at. -/
  unsettled : Option (OptionSpec × String) := none

namespace Options

def get? (options : Options) (name : String) : Option String :=
  (options.given.find? (·.1 == name)).map (·.2)

/-- Gives an option its value, unless it has one or does not take this one. -/
def give (options : Options) (spec : OptionSpec) (value : String) : Except ReadingStop Options :=
  if (options.get? spec.name).isSome ∨ ¬ spec.accepts value then .error .misuse
  else .ok { options with given := options.given ++ [(spec.name, value)] }

def settle (options : Options) : Except ReadingStop Options :=
  match options.awaiting, options.unsettled with
  | some _, _ => .error .misuse
  | none, some (spec, value) => { options with unsettled := none }.give spec value
  | none, none => .ok options

def takeBare (options : Options) (spec : OptionSpec) : Except ReadingStop Options := do
  let options ← options.settle
  match spec.kind with
  | .switch => options.give spec "true"
  | .value => return { options with awaiting := some spec }
  | .help => throw .help
  | .version => throw .version

def takeAttached (options : Options) (spec : OptionSpec) (value : String) : Except ReadingStop Options := do
  match spec.kind with
  | .value => (← options.settle).give spec value
  | _ => throw .misuse

def takeNamed (specs : List OptionSpec) (options : Options) (text : String) : Except ReadingStop Options :=
  let (name, value) := match cutText? "=" text with
    | some (name, value) => (name, some value)
    | none => (text, none)
  match specs.find? (·.name == name), value with
  | some spec, some value => options.takeAttached spec value
  | some spec, none => options.takeBare spec
  | none, _ => .error .misuse

def takeLetters (specs : List OptionSpec) : Options → List Char → Except ReadingStop Options
  | options, [] => .ok options
  | options, letter :: rest =>
    match specs.find? (·.letter == some letter) with
    | none => .error .misuse
    | some spec => do takeLetters specs (← options.takeBare spec) rest

/-- Takes an argument that is no command. -/
def take (specs : List OptionSpec) (options : Options) (arg : String) : Except ReadingStop Options :=
  match arg.toList with
  | '-' :: '-' :: name => takeNamed specs options (String.ofList name)
  | '-' :: letter :: rest => takeLetters specs options (letter :: rest)
  | _ =>
    match options.awaiting with
    | some spec => .ok { options with awaiting := none, unsettled := some (spec, arg) }
    | none => .error .misuse

/-- **Reads arguments** up to their end or to a command, and gives the command with the arguments that follow it. -/
def read (specs : List OptionSpec) (commands : List String) :
    Options → List String → Except ReadingStop (Options × Option (String × List String))
  | options, [] => return (← options.settle, none)
  | options, arg :: rest =>
    if options.awaiting.isNone && commands.contains arg then .ok (options, some (arg, rest))
    else if arg = "--" then
      if rest.isEmpty then return (← options.settle, none) else .error .misuse
    else do read specs commands (← take specs options arg) rest

def checkVariables (specs : List OptionSpec) (lookup : String → Option String) (options : Options) :
    Except ReadingStop Unit :=
  specs.forM fun spec =>
    match spec.variableName.bind lookup with
    | none => pure ()
    | some value =>
      if (options.get? spec.name).isSome || spec.accepts value then pure () else throw .misuse

def standIn? (specs : List OptionSpec) (lookup : String → Option String) (name : String) : Option String :=
  ((specs.find? (·.name == name)).bind (·.variableName)).bind lookup

end Options
end Intake
