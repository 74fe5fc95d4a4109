/-!
# Program — computations that ask their surroundings

An interface lists the calls that can be made and, for each, the type of its reply.  A program over it is a result, or a
call with what to do next, or it has stopped and does nothing more.  Programs are data: `run` answers
the calls one after the other with a state in hand, and whoever wants to interleave several programs takes them apart
call by call.
-/
namespace Intake

/-- The calls that can be made, and what they give back. -/
structure Interface where
  Call : Type
  Reply : Call → Type

/-- Why a program does nothing more. -/
inductive Halt where
  /-- Its host has cut it off. -/
  | cutOff
  /-- A number has no room where it is to be kept, and the program breaks down. -/
  | overflow
  deriving DecidableEq, Repr

/-- A computation that makes calls of an interface. -/
inductive Program (I : Interface) (α : Type) where
  | done (result : α)
  | ask (call : I.Call) (next : I.Reply call → Program I α)
  | halt (cause : Halt)

namespace Program

variable {I : Interface} {α β σ : Type}

def bind : Program I α → (α → Program I β) → Program I β
  | .done a, f => f a
  | .ask call next, f => .ask call fun reply => (next reply).bind f
  | .halt cause, _ => .halt cause

instance : Monad (Program I) where
  pure := .done
  bind := bind

def call (c : I.Call) : Program I (I.Reply c) := .ask c .done

/-- **Runs a program**: each call is answered from a state and leaves the next one.  No result if it halts. -/
def run (answer : (c : I.Call) → σ → I.Reply c × σ) : Program I α → σ → Option α × σ
  | .done a, s => (some a, s)
  | .ask c next, s =>
    let (reply, s) := answer c s
    (next reply).run answer s
  | .halt _, s => (none, s)

@[simp]
theorem pure_eq (a : α) : (pure a : Program I α) = .done a := rfl

@[simp]
theorem bind_eq (p : Program I α) (f : α → Program I β) : (p >>= f) = p.bind f := rfl

theorem bind_done (p : Program I α) : p.bind .done = p := by
  induction p with
  | done => rfl
  | ask c next ih => simp only [bind]; congr; funext reply; exact ih reply
  | halt => rfl

theorem bind_assoc {γ : Type} (p : Program I α) (f : α → Program I β) (g : β → Program I γ) :
    (p.bind f).bind g = p.bind fun a => (f a).bind g := by
  induction p with
  | done => rfl
  | ask c next ih => simp only [bind]; congr; funext reply; exact ih reply
  | halt => rfl

instance : LawfulMonad (Program I) :=
  LawfulMonad.mk' (Program I) (fun p => bind_done p) (fun _ _ => rfl) (fun p f g => bind_assoc p f g)

section Run

variable {answer : (c : I.Call) → σ → I.Reply c × σ} {s s' : σ}

theorem run_bind_some {a : α} {f : α → Program I β} {p : Program I α} (h : p.run answer s = (some a, s')) :
    (p.bind f).run answer s = (f a).run answer s' := by
  induction p generalizing s with
  | done b =>
    cases h
    rfl
  | ask c next ih => exact ih _ h
  | halt => cases h

theorem run_bind_none {f : α → Program I β} {p : Program I α} (h : (p.run answer s).1 = none) :
    ((p.bind f).run answer s).1 = none := by
  induction p generalizing s with
  | done b => cases h
  | ask c next ih => exact ih _ h
  | halt => rfl

end Run
end Program
end Intake
