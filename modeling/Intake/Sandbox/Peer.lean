import Intake.Http.Basic
/-!
# Sandbox.Peer — a peer at the other end of the wire

The peer gives responses that were laid out beforehand, one for each request, and keeps the requests.  A peer that
cannot be reached sees none.
-/
namespace Intake

inductive PeerReply where
  | respond (response : HttpResponse)
  /-- Reads the request and hangs up. -/
  | hangUp

/-- A peer at the other end of the wire. -/
structure Peer where
  reachable : Bool := true
  replies : List PeerReply := []
  requests : List HttpRequest := []
  /-- Why there are no credentials. -/
  noCredentials : Option String := none
  /-- How many tokens will still be refused. -/
  refusedTokens : Nat := 0

namespace Peer

def exhausted : HttpResponse := ⟨400, Utf8.encode "no more responses"⟩

/-- A response as it comes through: some statuses have no body. -/
def delivered (response : HttpResponse) : HttpResponse :=
  if response.status = 204 ∨ response.status = 304 then { response with body := [] } else response

def answer : (call : WireCall) → Peer → call.Reply × Peer
  | .signIn, p =>
    match p.noCredentials with
    | some reason => (.error reason, p)
    | none => (.ok (), p)
  | .token scope, p =>
    match p.refusedTokens with
    | 0 => (.ok scope, p)
    | left + 1 => (.error "token unavailable", { p with refusedTokens := left })
  | .send request, p =>
    if p.reachable then
      let p := { p with requests := p.requests ++ [request] }
      match p.replies with
      | [] => (some exhausted, p)
      | .respond response :: rest => (some (delivered response), { p with replies := rest })
      | .hangUp :: rest => (none, { p with replies := rest })
    else (none, p)
  | .sleep _, p => ((), p)

def run {α : Type} (p : Peer) (program : WireProgram α) : Option α × Peer :=
  program.run answer p

end Peer
end Intake
