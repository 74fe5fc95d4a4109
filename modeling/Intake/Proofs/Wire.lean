import Intake.Proofs.Surroundings
import Intake.Remote.Objects
/-!
# Wire — calls that are made over the wire, and made again

A program over one interface becomes a program over another when each of its calls is answered by such a program
(`Program.through`).  A program that is never cut off and keeps to its surroundings ends, with the promised result,
whoever answers it as the surroundings may (`Program.Keeps.run`).  A call that is made again while it fails for a passing
reason promises what one attempt promises, if an attempt that failed leaves what the next one starts from
(`RetryPolicy.keeps_runFrom`).
-/
namespace Intake

namespace Program

variable {I J : Interface} {α β σ τ : Type}

/-- **The program with its calls answered by programs over another interface.** -/
def through (reply : (c : I.Call) → Program J (I.Reply c)) : Program I α → Program J α
  | .done a => .done a
  | .ask c next => (reply c).bind fun r => (next r).through reply
  | .halt cause => .halt cause

/-- The program is not cut off, whatever it is answered. -/
def Finishes : Program I α → Prop
  | .done _ => True
  | .ask _ next => ∀ reply, (next reply).Finishes
  | .halt _ => False

theorem Finishes.bind {f : α → Program I β} : ∀ {p : Program I α}, p.Finishes → (∀ a, (f a).Finishes) →
    (p.bind f).Finishes
  | .done a, _, hf => hf a
  | .ask _ _, hp, hf => fun reply => Finishes.bind (hp reply) hf
  | .halt _, hp, _ => hp.elim

/-- Somebody with a state of their own answers as the surroundings may, seen through a view of that state. -/
def Plays (env : Surroundings I σ) (view : τ → σ) (answer : (c : I.Call) → τ → I.Reply c × τ) : Prop :=
  ∀ c s, env.answers c (view s) (answer c s).1 (view (answer c s).2)

/-- **A program that is not cut off ends as it promises.** -/
theorem Keeps.run {env : Surroundings I σ} {view : τ → σ} {answer : (c : I.Call) → τ → I.Reply c × τ}
    {post : α → σ → Prop} (hplays : Plays env view answer) :
    ∀ {p : Program I α} {s : τ}, p.Keeps env post (view s) → p.Finishes →
      ∃ a s', p.run answer s = (some a, s') ∧ post a (view s')
  | .done a, s, hp, _ => ⟨a, s, rfl, hp⟩
  | .ask c next, s, hp, hf =>
    Keeps.run (p := next (answer c s).1) (s := (answer c s).2) hplays (hp.2 _ _ (hplays c s)) (hf (answer c s).1)
  | .halt _, _, _, hf => hf.elim

section Fallible

variable {ε : Type} {env : Surroundings I σ} {s : σ}

theorem keeps_bind_run {mid : Except ε α → σ → Prop} {post : Except ε β → σ → Prop} {x : ExceptT ε (Program I) α}
    {f : α → ExceptT ε (Program I) β} (hx : Keeps env mid x.run s)
    (herror : ∀ e s, mid (.error e) s → post (.error e) s)
    (hok : ∀ a s, mid (.ok a) s → Keeps env post (f a).run s) : Keeps env post (x >>= f).run s := by
  refine Keeps.bind hx fun r s hr => ?_
  cases r with
  | error e => exact herror e s hr
  | ok a => exact hok a s hr

theorem keeps_liftM_bind {post : Except ε β → σ → Prop} {r : Except ε α} {f : α → ExceptT ε (Program I) β}
    (herror : ∀ e, post (.error e) s) (hok : ∀ a, Keeps env post (f a).run s) :
    Keeps env post ((liftM r : ExceptT ε (Program I) α) >>= f).run s := by
  cases r with
  | error e => exact herror e
  | ok a => exact hok a

theorem finishes_bind_run {x : ExceptT ε (Program I) α} {f : α → ExceptT ε (Program I) β} (hx : Finishes x.run)
    (hf : ∀ a, Finishes (f a).run) : Finishes (x >>= f).run := by
  refine Finishes.bind hx fun r => ?_
  cases r with
  | error e => trivial
  | ok a => exact hf a

theorem finishes_liftM_bind {r : Except ε α} {f : α → ExceptT ε (Program I) β} (hf : ∀ a, Finishes (f a).run) :
    Finishes ((liftM r : ExceptT ε (Program I) α) >>= f).run := by
  cases r with
  | error e => trivial
  | ok a => exact hf a

variable {answer : (c : I.Call) → τ → I.Reply c × τ} {t t' : τ}

theorem run_bind_ok {x : ExceptT ε (Program I) α} {f : α → ExceptT ε (Program I) β} {a : α}
    (hx : x.run.run answer t = (some (.ok a), t')) : (x >>= f).run.run answer t = (f a).run.run answer t' :=
  run_bind_some hx

theorem run_bind_error {x : ExceptT ε (Program I) α} {f : α → ExceptT ε (Program I) β} {e : ε}
    (hx : x.run.run answer t = (some (.error e), t')) : (x >>= f).run.run answer t = (some (.error e), t') :=
  run_bind_some hx

end Fallible
end Program

namespace RetryPolicy

open Program

variable {I : Interface} {α ε σ : Type} {env : Surroundings I σ} {policy : RetryPolicy} {sleep : Duration → Program I Unit}
  {isTransient : ε → Bool} {call : Nat → Program I (Except ε α)} {start : σ → Prop} {post : Except ε α → σ → Prop}

/-- **A call that is made again promises what one attempt promises**, if an attempt that fails for a passing reason, and
the sleep after it, leave what an attempt starts from. -/
theorem keeps_runFrom (hcall : ∀ attempt s, start s → (call attempt).Keeps env post s)
    (hsleep : ∀ fault span s, isTransient fault = true → post (.error fault) s →
      (sleep span).Keeps env (fun _ s => start s) s) :
    ∀ (left attempt : Nat) {s : σ}, start s → (policy.runFrom sleep isTransient call left attempt).Keeps env post s := by
  intro left
  induction left with
  | zero =>
    intro attempt s hs
    rw [runFrom]
    refine (hcall attempt s hs).bind fun r s hr => ?_
    cases r <;> exact hr
  | succ left ih =>
    intro attempt s hs
    rw [runFrom]
    refine (hcall attempt s hs).bind fun r s hr => ?_
    cases r with
    | ok a => exact hr
    | error fault =>
      by_cases htransient : isTransient fault = true
      · simp only [htransient, if_true]
        exact (hsleep fault _ s htransient hr).bind fun _ s hs => ih (attempt + 1) hs
      · simp only [htransient]
        exact hr

theorem finishes_runFrom (hcall : ∀ attempt, (call attempt).Finishes) (hsleep : ∀ span, (sleep span).Finishes) :
    ∀ left attempt : Nat, (policy.runFrom sleep isTransient call left attempt).Finishes := by
  intro left
  induction left with
  | zero =>
    intro attempt
    rw [runFrom]
    refine (hcall attempt).bind fun r => ?_
    cases r <;> trivial
  | succ left ih =>
    intro attempt
    rw [runFrom]
    refine (hcall attempt).bind fun r => ?_
    cases r with
    | ok a => trivial
    | error fault =>
      by_cases htransient : isTransient fault = true
      · simp only [htransient, if_true]
        exact (hsleep _).bind fun _ => ih (attempt + 1)
      · simp only [htransient]
        trivial

section Run

variable {τ : Type} {answer : (c : I.Call) → τ → I.Reply c × τ} {t t' t'' : τ} {left attempt : Nat} {fault : ε}

theorem run_runFrom_ok {a : α} (h : (call attempt).run answer t = (some (.ok a), t')) :
    (policy.runFrom sleep isTransient call left attempt).run answer t = (some (.ok a), t') := by
  unfold runFrom
  exact run_bind_some h

/-- A fault that does not pass, and one with no retries left, is the last. -/
theorem run_runFrom_error (h : (call attempt).run answer t = (some (.error fault), t'))
    (hlast : left = 0 ∨ isTransient fault = false) :
    (policy.runFrom sleep isTransient call left attempt).run answer t = (some (.error fault), t') := by
  unfold runFrom
  refine (run_bind_some h).trans ?_
  cases left with
  | zero => rfl
  | succ left =>
    simp only [hlast.resolve_left (Nat.succ_ne_zero left), Bool.false_eq_true, if_false]
    rfl

/-- After a fault that passes, and a sleep, the call is made again. -/
theorem run_runFrom_again (h : (call attempt).run answer t = (some (.error fault), t'))
    (hpasses : isTransient fault = true) (hsleep : (sleep (policy.backoff attempt)).run answer t' = (some (), t'')) :
    (policy.runFrom sleep isTransient call (left + 1) attempt).run answer t =
      (policy.runFrom sleep isTransient call left (attempt + 1)).run answer t'' := by
  rw [runFrom]
  refine (run_bind_some h).trans ?_
  simp only [hpasses, if_true]
  exact run_bind_some hsleep

end Run
end RetryPolicy

/-! ## Requests -/

theorem not_isTransientStatus_of_isSuccess {response : HttpResponse} (h : response.isSuccess = true) :
    isTransientStatus response.status = false := by
  simp only [HttpResponse.isSuccess, Bool.and_eq_true, decide_eq_true_eq] at h
  simp only [isTransientStatus, Bool.or_eq_false_iff, Bool.and_eq_false_iff, beq_eq_false_iff_ne, decide_eq_false_iff_not]
  omega

namespace WireProgram

open Program

variable {ε σ : Type} {env : Surroundings Wire σ} {s : σ} {scope : String} {method : HttpMethod} {url : Url}
  {content : Option (String × Octets)}

/-- **What may come of a request that is made once there is a token**: it was not sent, or there is no response, or there
is one. -/
inductive Sending (env : Surroundings Wire σ) (scope : String) (request : String → HttpRequest) (s : σ) :
    Except ε HttpResponse → σ → Prop
  | unsent {reply : Except String String} {fault : ε} {s' : σ} (htoken : env.answers (.token scope) s reply s') :
    Sending env scope request s (.error fault) s'
  | lost {token : String} {fault : ε} {mid s' : σ} (htoken : env.answers (.token scope) s (.ok token) mid)
    (hsend : env.answers (.send (request token)) mid none s') : Sending env scope request s (.error fault) s'
  | response {token : String} {response : HttpResponse} {mid s' : σ}
    (htoken : env.answers (.token scope) s (.ok token) mid)
    (hsend : env.answers (.send (request token)) mid (some response) s') :
    Sending env scope request s (.ok response) s'

theorem Sending.error {ε' : Type} {request : String → HttpRequest} {fault : ε} {s' : σ}
    (h : Sending env scope request s (.error fault) s') (fault' : ε') :
    Sending env scope request s (.error fault') s' := by
  cases h with
  | unsent htoken => exact .unsent htoken
  | lost htoken hsend => exact .lost htoken hsend

theorem Sending.ok {ε' : Type} {request : String → HttpRequest} {response : HttpResponse} {s' : σ}
    (h : Sending env scope request s (Except.ok response : Except ε HttpResponse) s') :
    Sending env scope request s (Except.ok response : Except ε' HttpResponse) s' := by
  cases h with
  | response htoken hsend => exact .response htoken hsend

theorem keeps_exchange (htoken : env.admits (.token scope) s)
    (hsend : ∀ token mid, env.admits (.send ⟨method, url.withoutUser, token, content⟩) mid) :
    (exchange scope method url content).Keeps env
      (Sending env scope (fun token => ⟨method, url.withoutUser, token, content⟩) s) s := by
  refine ⟨htoken, fun reply mid hreply => ?_⟩
  cases reply with
  | error reason => exact .unsent hreply
  | ok token =>
    show Keeps env _ (ite (url.withoutUser.scheme = "http" ∨ url.withoutUser.scheme = "https") _ _) mid
    split
    · refine ⟨hsend token mid, fun reply s' hsent => ?_⟩
      cases reply with
      | none => exact .lost hreply hsent
      | some response => exact .response hreply hsent
    · exact .unsent hreply

theorem finishes_exchange : (exchange scope method url content).Finishes := by
  intro reply
  cases reply with
  | error reason => trivial
  | ok token =>
    show Finishes (ite (url.withoutUser.scheme = "http" ∨ url.withoutUser.scheme = "https") _ _)
    split
    · intro reply
      cases reply <;> trivial
    · trivial

section Run

variable {answer : (c : WireCall) → σ → c.Reply × σ} {s₁ s₂ : σ} {token : String}

theorem run_ask_bind {α : Type} {c : WireCall} {f : c.Reply → WireProgram α} {reply : c.Reply}
    (h : answer c s = (reply, s₁)) : ((ask c).bind f).run answer s = (f reply).run answer s₁ :=
  run_bind_some (congrArg (fun r => (some r.1, r.2)) h)

theorem run_exchange_noToken {reason : String} (htoken : answer (.token scope) s = (.error reason, s₁)) :
    (exchange scope method url content).run answer s = (some (.error (.noToken reason)), s₁) :=
  run_ask_bind htoken

theorem run_exchange_sent {reply : Option HttpResponse} (htoken : answer (.token scope) s = (.ok token, s₁))
    (hweb : url.scheme = "http" ∨ url.scheme = "https")
    (hsend : answer (.send ⟨method, url.withoutUser, token, content⟩) s₁ = (reply, s₂)) :
    (exchange scope method url content).run answer s = (some (reply.elim (.error (.lost url.withoutUser)) .ok), s₂) := by
  have hweb' : url.withoutUser.scheme = "http" ∨ url.withoutUser.scheme = "https" := hweb
  refine (run_ask_bind htoken).trans ?_
  show (ite (url.withoutUser.scheme = "http" ∨ url.withoutUser.scheme = "https") _ _ : WireProgram _).run answer s₁ = _
  rw [if_pos hweb']
  refine (run_ask_bind hsend).trans ?_
  cases reply <;> rfl

end Run

/-- **The call is one request**, and says of what went wrong a fault of its own. -/
def Sends (scope : String) (method : HttpMethod) (url : Url) (content : Option (String × Octets))
    (judge : ExchangeFault → ε) (x : ExceptT ε WireProgram HttpResponse) : Prop :=
  x.run = (exchange scope method url content).bind fun r => .done (r.mapError judge)

namespace Sends

variable {judge : ExchangeFault → ε} {x : ExceptT ε WireProgram HttpResponse}

theorem keeps (hx : Sends scope method url content judge x) (htoken : env.admits (.token scope) s)
    (hsend : ∀ token mid, env.admits (.send ⟨method, url.withoutUser, token, content⟩) mid) :
    Keeps env (Sending env scope (fun token => ⟨method, url.withoutUser, token, content⟩) s) x.run s := by
  rw [show x.run = _ from hx]
  refine Keeps.bind (keeps_exchange htoken hsend) fun r s' hr => ?_
  cases r with
  | ok response => exact hr.ok
  | error fault => exact hr.error _

theorem finishes (hx : Sends scope method url content judge x) : Finishes x.run := by
  rw [show x.run = _ from hx]
  exact finishes_exchange.bind fun _ => trivial

variable {answer : (c : WireCall) → σ → c.Reply × σ} {s₁ s₂ : σ} {token : String}

theorem run_noToken (hx : Sends scope method url content judge x) {reason : String}
    (htoken : answer (.token scope) s = (.error reason, s₁)) :
    x.run.run answer s = (some (.error (judge (.noToken reason))), s₁) := by
  rw [show x.run = _ from hx]
  exact run_bind_some (run_exchange_noToken htoken)

theorem run_lost (hx : Sends scope method url content judge x) (htoken : answer (.token scope) s = (.ok token, s₁))
    (hweb : url.scheme = "http" ∨ url.scheme = "https")
    (hsend : answer (.send ⟨method, url.withoutUser, token, content⟩) s₁ = (none, s₂)) :
    x.run.run answer s = (some (.error (judge (.lost url.withoutUser))), s₂) := by
  rw [show x.run = _ from hx]
  exact run_bind_some (run_exchange_sent htoken hweb hsend)

theorem run_response (hx : Sends scope method url content judge x) {response : HttpResponse}
    (htoken : answer (.token scope) s = (.ok token, s₁)) (hweb : url.scheme = "http" ∨ url.scheme = "https")
    (hsend : answer (.send ⟨method, url.withoutUser, token, content⟩) s₁ = (some response, s₂)) :
    x.run.run answer s = (some (.ok response), s₂) := by
  rw [show x.run = _ from hx]
  exact run_bind_some (run_exchange_sent htoken hweb hsend)

end Sends
end WireProgram

namespace RemoteBucket

open Program WireProgram

/-- A request to the service of objects as it goes over the wire. -/
def request (method : HttpMethod) (url : Url) (body : Option Octets) (token : String) : HttpRequest :=
  ⟨method, url.withoutUser, token, body.map (("application/octet-stream", ·))⟩

def sendFault : ExchangeFault → StoreFault
  | .noToken reason => .storage (ExchangeFault.noToken reason).message true
  | fault => .storage "GCS request failed" fault.isTransient

theorem sends_send (method : HttpMethod) (url : Url) (body : Option Octets) :
    Sends ObjectService.scope method url (body.map (("application/octet-stream", ·))) sendFault (send method url body) := by
  rw [Sends, send, ExceptT.run_bind_lift]
  congr
  funext r
  cases r with
  | ok response => rfl
  | error fault => cases fault <;> rfl

end RemoteBucket
end Intake
