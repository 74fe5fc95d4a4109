import Intake.Dispatch
/-!
# Endpoint — the engine behind HTTP

Notifications are posted to the root.  One that ends well, or in a recoverable failure, is answered with 200; any other
failure with 500, so that the notification is delivered again, unless failures are only to be reported.  There is a
health check, and the counts are published.
-/
namespace Intake

inductive ResponseBody where
  | empty
  | text (text : String)
  | json (value : Json)

structure Response where
  status : Nat
  contentType : Option String
  body : ResponseBody

namespace Response

def bare (status : Nat) : Response := ⟨status, none, .empty⟩

def json (status : Nat) (value : Json) : Response := ⟨status, some "application/json", .json value⟩

def text (status : Nat) (text : String) : Response := ⟨status, some "text/plain; charset=utf-8", .text text⟩

/-- The answer to a request for the head alone: the same without its content. -/
def headOnly (r : Response) : Response := { r with body := .empty }

end Response

namespace Endpoint

def answerOf (reportErrors : Bool) : Except Failure Outcome → Response
  | .ok outcome => .json 200 (.ofFields [("outcome", .string outcome.name)])
  | .error failure =>
    .json (if failure.isRecoverable || reportErrors then 200 else 500)
      (.ofFields [("outcome", .string failure.kind), ("error", .string failure.message)])

/-- **Handles a posted notification.** -/
def notify (ctx : Context) (reportErrors : Bool) (payload : Octets) : CloudProgram Response :=
  match Notification.read payload with
  | .error failure => return answerOf reportErrors (.error failure)
  | .ok n => do return answerOf reportErrors (← (Dispatch.handle ctx n).run)

def health : Response := .json 200 (.ofFields [("status", .string "ok")])

/-- The published counts, if there are any to publish. -/
def metrics : Option Tally → Response
  | some tally => .text 200 ("\n".intercalate tally.lines)
  | none => .text 503 "Metrics not initialized"

/-- The answer of a page that can only be fetched. -/
def fetched (method : String) (page : Response) : Response :=
  if method = "GET" then page else if method = "HEAD" then page.headOnly else .bare 405

/-- **Answers a request.**  What follows a question mark in the target does not matter. -/
def serve (ctx : Context) (reportErrors : Bool) (tally : Option Tally) (method target : String) (payload : Octets) :
    CloudProgram Response :=
  match ((cutText? "?" target).map (·.1)).getD target with
  | "/" => if method = "POST" then notify ctx reportErrors payload else return .bare 405
  | "/health" => return fetched method health
  | "/metrics" => return fetched method (metrics tally)
  | _ => return .bare 404

end Endpoint
end Intake
