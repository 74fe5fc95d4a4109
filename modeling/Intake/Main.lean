import Intake.CommandLine.Launch
import Intake.Endpoint
import Intake.Json.Printer
import Intake.Sandbox.Provider
/-!
# Main — the program

The listener is the host's: it hands over the payloads of notifications on standard input, one to a line, and each is
answered by the status and the body of its response.
-/
namespace Intake

def usage : String :=
  "Usage: [--log-format FORMAT] [--in-memory] [--storage-project PROJECT] [--location LOCATION] COMMAND\n" ++
  "  serve [--port PORT] [--report-errors]\n" ++
  "  handle --bucket BUCKET --key KEY"

/-- The number of rounds after which a waiting loop is cut off. -/
def mainPatience : Nat := 1000000000

def bodyText : ResponseBody → String
  | .empty => ""
  | .text text => text
  | .json value => value.render

/-- Answers the payloads on standard input, one to a line. -/
partial def serveLines (ctx : Context) (reportErrors : Bool) (input : IO.FS.Stream) (provider : Provider) :
    IO Unit := do
  let line ← input.getLine
  unless line.isEmpty do
    let payload := Utf8.encode line
    let bucket := ((Notification.read payload).toOption.map (·.bucket)).getD ""
    let (response, provider) := provider.run bucket (Endpoint.notify ctx reportErrors payload)
    match response with
    | some r => IO.println (decimal r.status ++ " " ++ bodyText r.body)
    | none => IO.println "503"
    serveLines ctx reportErrors input provider

def finish (ending : Ending) : IO UInt32 := do
  match ending.outcome with
  | some outcome =>
    IO.println (Json.ofFields [("message", .string "notification handled"), ("outcome", .string outcome.name)]).render
  | none => pure ()
  match ending.complaint with
  | some complaint => IO.eprintln complaint
  | none => pure ()
  return ending.code.toUInt32

/-- Does what the program was started for. -/
def start (lookup : String → Option String) (args : List String) : IO UInt32 := do
  match CommandLine.read lookup args with
  | .error stop =>
    if stop = .misuse then IO.eprintln usage else IO.println usage
    finish (Ending.ofStop stop)
  | .ok line =>
    match line.command with
    | .handle bucket key =>
      match line.handleOnce lookup bucket key mainPatience with
      | some ending => finish ending
      | none => return 1
    | .serve _ reportErrors =>
      match line.context lookup "" mainPatience with
      | .error fault => finish (Ending.failed fault)
      | .ok ctx =>
        serveLines ctx reportErrors (← IO.getStdin) {}
        return 0

end Intake

def main (args : List String) : IO UInt32 := do
  let names := Intake.CommandLine.variableNames ++ Intake.Settings.variableNames
  let values ← names.filterMapM fun name => do return (← IO.getEnv name).map ((name, ·))
  Intake.start (fun name => (values.find? (·.1 == name)).map (·.2)) args
