import Intake.Duration
import Intake.Program
import Intake.Text.Decimal
import Intake.Text.Utf8
import Intake.Url.Basic
/-!
# Http — requests, responses, and the wire between

A client reaches the services of the cloud over a wire: it finds its credentials, asks for tokens, sends requests and
sleeps between attempts.  A request may stay without a response; an address that is not of the web is not even tried.
-/
namespace Intake

inductive HttpMethod where
  | get
  | post
  | delete
  deriving DecidableEq, Repr

def HttpMethod.name : HttpMethod → String
  | .get => "GET"
  | .post => "POST"
  | .delete => "DELETE"

structure HttpRequest where
  method : HttpMethod
  url : Url
  token : String
  /-- The kind of the body, and the body. -/
  content : Option (String × Octets) := none

structure HttpResponse where
  status : Nat
  body : Octets
  deriving DecidableEq, Repr

namespace HttpResponse

def isSuccess (r : HttpResponse) : Bool := 200 ≤ r.status && r.status < 300

def reason? : Nat → Option String
  | 100 => "Continue" | 101 => "Switching Protocols" | 102 => "Processing" | 103 => "Early Hints"
  | 200 => "OK" | 201 => "Created" | 202 => "Accepted" | 203 => "Non Authoritative Information"
  | 204 => "No Content" | 205 => "Reset Content" | 206 => "Partial Content" | 207 => "Multi-Status"
  | 208 => "Already Reported" | 226 => "IM Used"
  | 300 => "Multiple Choices" | 301 => "Moved Permanently" | 302 => "Found" | 303 => "See Other"
  | 304 => "Not Modified" | 305 => "Use Proxy" | 307 => "Temporary Redirect" | 308 => "Permanent Redirect"
  | 400 => "Bad Request" | 401 => "Unauthorized" | 402 => "Payment Required" | 403 => "Forbidden"
  | 404 => "Not Found" | 405 => "Method Not Allowed" | 406 => "Not Acceptable"
  | 407 => "Proxy Authentication Required" | 408 => "Request Timeout" | 409 => "Conflict" | 410 => "Gone"
  | 411 => "Length Required" | 412 => "Precondition Failed" | 413 => "Payload Too Large" | 414 => "URI Too Long"
  | 415 => "Unsupported Media Type" | 416 => "Range Not Satisfiable" | 417 => "Expectation Failed"
  | 418 => "I'm a teapot" | 421 => "Misdirected Request" | 422 => "Unprocessable Entity" | 423 => "Locked"
  | 424 => "Failed Dependency" | 425 => "Too Early" | 426 => "Upgrade Required" | 428 => "Precondition Required"
  | 429 => "Too Many Requests" | 431 => "Request Header Fields Too Large" | 451 => "Unavailable For Legal Reasons"
  | 500 => "Internal Server Error" | 501 => "Not Implemented" | 502 => "Bad Gateway" | 503 => "Service Unavailable"
  | 504 => "Gateway Timeout" | 505 => "HTTP Version Not Supported" | 506 => "Variant Also Negotiates"
  | 507 => "Insufficient Storage" | 508 => "Loop Detected" | 510 => "Not Extended"
  | 511 => "Network Authentication Required"
  | _ => none

def statusLine (r : HttpResponse) : String :=
  decimal r.status ++ " " ++ (reason? r.status).getD "<unknown status code>"

/-- **What is said of a response that refuses a request.** -/
def refusal (r : HttpResponse) (service call : String) : String :=
  service ++ " " ++ call ++ " failed: " ++ r.statusLine ++ " - " ++ Utf8.decodeLossy r.body

end HttpResponse

/-- A call of a client to the wire. -/
inductive WireCall where
  /-- Finds the credentials with which tokens are asked for. -/
  | signIn
  | token (scope : String)
  /-- Sends a request; there may be no response. -/
  | send (request : HttpRequest)
  | sleep (span : Duration)

abbrev WireCall.Reply : WireCall → Type
  | .signIn => Except String Unit
  | .token _ => Except String String
  | .send _ => Option HttpResponse
  | .sleep _ => Unit

abbrev Wire : Interface := ⟨WireCall, WireCall.Reply⟩

abbrev WireProgram := Program Wire

def WireProgram.ask (call : WireCall) : WireProgram call.Reply := @Program.call Wire call

/-- Why there is no response. -/
inductive ExchangeFault where
  | noToken (reason : String)
  /-- No request can be made to the address. -/
  | unsendable (url : Url)
  /-- The request has not come through, or the response has not. -/
  | lost (url : Url)

namespace ExchangeFault

def message : ExchangeFault → String
  | .noToken reason => "failed to get GCP access token: " ++ reason
  | .unsendable url => "builder error for url (" ++ url.text ++ ")"
  | .lost url => "error sending request for url (" ++ url.text ++ ")"

def isTransient : ExchangeFault → Bool
  | .noToken _ | .lost _ => true
  | .unsendable _ => false

end ExchangeFault

namespace WireProgram

def noCredentials (reason : String) : String := "failed to initialize GCP auth: " ++ reason

/-- **Sends a request with a fresh token**, if its address is of the web.  A user named in the address stays at home. -/
def exchange (scope : String) (method : HttpMethod) (url : Url) (content : Option (String × Octets)) :
    WireProgram (Except ExchangeFault HttpResponse) := do
  match ← ask (.token scope) with
  | .error reason => return .error (.noToken reason)
  | .ok token =>
    let url := url.withoutUser
    if url.scheme = "http" ∨ url.scheme = "https" then
      match ← ask (.send ⟨method, url, token, content⟩) with
      | some response => return .ok response
      | none => return .error (.lost url)
    else return .error (.unsendable url)

end WireProgram
end Intake
