import Intake.Proofs.Reading
import Intake.Proofs.Trial
/-!
# Course — the calls that a program makes in the sandbox

A program takes its course there: call by call it comes to what it does next, in another world (`World.Leads`).  What is
put together from parts makes the calls of the parts (`Leads.bind`).  A part that only looks at the store gives what the
store says (`Invocation.Reads.leads`).
-/
namespace Intake

namespace World

variable {α β : Type} {ids : Nat → String} {w w' w₁ w₂ : World} {p p₁ p₂ : CloudProgram α}
  {calls more : List CloudCall} {c : CloudCall}

/-- Answers a call of the engine, with ids from a supply. -/
def answerFrom (ids : Nat → String) : (call : CloudCall) → World → call.Reply × World
  | .freshId, w => (ids (w.idsDrawn + 1), { w with idsDrawn := w.idsDrawn + 1 })
  | c, w => answer c w

def runFrom (ids : Nat → String) (w : World) (p : CloudProgram α) : Option α × World :=
  p.run (answerFrom ids) w

/-- **After some calls** a program has come to another one, in another world. -/
inductive Leads (ids : Nat → String) : World → CloudProgram α → List CloudCall → World → CloudProgram α → Prop
  | refl (w : World) (p : CloudProgram α) : Leads ids w p [] w p
  | step {w w₁ w' : World} {c : CloudCall} {next : c.Reply → CloudProgram α} {reply : c.Reply} {calls : List CloudCall}
    {p : CloudProgram α} (hanswer : answerFrom ids c w = (reply, w₁)) (h : Leads ids w₁ (next reply) calls w' p) :
    Leads ids w (Program.ask (I := Cloud) c next) (c :: calls) w' p

theorem Leads.call {next : c.Reply → CloudProgram α} {reply : c.Reply} (hanswer : answerFrom ids c w = (reply, w₁)) :
    w.Leads ids (Program.ask (I := Cloud) c next) [c] w₁ (next reply) :=
  .step hanswer (.refl _ _)

theorem Leads.trans (h : w.Leads ids p calls w₁ p₁) (h' : w₁.Leads ids p₁ more w₂ p₂) :
    w.Leads ids p (calls ++ more) w₂ p₂ := by
  induction h with
  | refl => exact h'
  | step hanswer _ ih => exact .step hanswer (ih h')

/-- The calls of a part are made, whatever is done after it. -/
theorem Leads.bind (h : w.Leads ids p calls w₁ p₁) (f : α → CloudProgram β) :
    w.Leads ids (p.bind f) calls w₁ (p₁.bind f) := by
  induction h with
  | refl => exact .refl _ _
  | step hanswer _ ih => exact .step hanswer ih

theorem Leads.runFrom (h : w.Leads ids p calls w₁ p₁) : w.runFrom ids p = w₁.runFrom ids p₁ := by
  induction h with
  | refl => rfl
  | step hanswer _ ih =>
    rw [World.runFrom, Program.run, hanswer]
    exact ih

/-! ## What the calls are answered -/

def noted (w : World) (call : StoreCall) : World := { w with bucket := w.bucket.noted call }

section Served

variable (hserved : w.bucket.failing = [])

include hserved

theorem fault?_of_served (key : String) : w.bucket.fault? key = none := by
  rw [Bucket.fault?, hserved]
  rfl

theorem answerFrom_head (ids : Nat → String) (key : String) :
    answerFrom ids (.head key) w = (.ok (w.bucket.store.head? key), w.noted (.head key)) := by
  simp only [answerFrom, answer, Bucket.head, fault?_of_served hserved, noted]

theorem answerFrom_get (ids : Nat → String) (key : String) : answerFrom ids (.get key) w =
    ((match w.bucket.store.get? key with
      | some object => .ok object.body
      | none => .error (.objectNotFound key)), w.noted (.get key)) := by
  simp only [answerFrom, answer, Bucket.get, fault?_of_served hserved, noted]
  cases w.bucket.store.get? key <;> rfl

theorem answerFrom_list (ids : Nat → String) (start : String) (delimiter : Option String) :
    answerFrom ids (.list start delimiter) w = (.ok (w.bucket.store.list start delimiter), w.noted (.list start)) := by
  simp only [answerFrom, answer, Bucket.list, fault?_of_served hserved, noted]

theorem answerFrom_put (ids : Nat → String) (key : String) (body : Octets) (precondition : Precondition) : ∃ w',
    answerFrom ids (.put key body precondition) w = (.ok (w.bucket.store.put key body precondition w.instant).1, w') ∧
      w'.bucket.store = (w.bucket.store.put key body precondition w.instant).2 ∧ w'.bucket.failing = [] ∧
      w'.elapsed = w.elapsed ∧ w'.warehouse = w.warehouse ∧ w'.idsDrawn = w.idsDrawn := by
  simp only [answerFrom, answer, put, Bucket.put, fault?_of_served hserved]
  rcases w.bucket.store.put_cases key body precondition w.instant with ⟨current, hput⟩ | ⟨-, hput⟩
  · rw [hput]
    exact ⟨_, rfl, rfl, hserved, rfl, rfl, rfl⟩
  · rw [hput]
    exact ⟨_, rfl, rfl, hserved, rfl, rfl, rfl⟩

/-- A call that looks at the store is replied what the store says, and changes nothing. -/
theorem answerFrom_reading (ids : Nat → String) (h : c.IsReading) : ∃ reply call,
    answerFrom ids c w = (reply, w.noted call) ∧ w.bucket.store.reply? c = some reply := by
  cases c with
  | get key => exact ⟨_, _, answerFrom_get hserved ids key, rfl⟩
  | head key => exact ⟨_, _, answerFrom_head hserved ids key, rfl⟩
  | list start delimiter => exact ⟨_, _, answerFrom_list hserved ids start delimiter, rfl⟩
  | _ => exact h.elim

end Served

/-- Nothing has happened since but calls that look at the store. -/
structure Unmoved (w w' : World) : Prop where
  served : w'.bucket.failing = []
  store : w'.bucket.store = w.bucket.store
  elapsed : w'.elapsed = w.elapsed
  warehouse : w'.warehouse = w.warehouse
  idsDrawn : w'.idsDrawn = w.idsDrawn

theorem Unmoved.refl (h : w.bucket.failing = []) : w.Unmoved w := ⟨h, rfl, rfl, rfl, rfl⟩

theorem Unmoved.trans (h : w.Unmoved w₁) (h' : w₁.Unmoved w₂) : w.Unmoved w₂ :=
  ⟨h'.served, h'.store.trans h.store, h'.elapsed.trans h.elapsed, h'.warehouse.trans h.warehouse,
    h'.idsDrawn.trans h.idsDrawn⟩

theorem Unmoved.noted (h : w.Unmoved w₁) (call : StoreCall) : w.Unmoved (w₁.noted call) :=
  ⟨h.served, h.store, h.elapsed, h.warehouse, h.idsDrawn⟩

end World

open World

variable {α β : Type} {ids : Nat → String} {w w₁ w₂ : World} {held held₁ : Option TableLock}
  {calls more : List CloudCall}

/-- A program that only looks at the store. -/
theorem Program.Reads.leads (ids : Nat → String) {p : CloudProgram (Except Failure α)} (hp : p.Reads)
    (hserved : w.bucket.failing = []) : ∃ calls r w',
      (∀ c ∈ calls, c.IsReading) ∧ w.Leads ids p calls w' (.done r) ∧ w.bucket.store.readOff p = some r ∧ w.Unmoved w' := by
  induction p generalizing w with
  | done r => exact ⟨[], r, w, fun _ hc => (List.not_mem_nil hc).elim, .refl _ _, rfl, .refl hserved⟩
  | halt => exact hp.elim
  | ask c next ih =>
    obtain ⟨reply, call, hanswer, hreply⟩ := answerFrom_reading hserved ids hp.1
    obtain ⟨calls, r, w', hreading, hleads, hread, hunmoved⟩ := ih reply (hp.2 reply).1 (w := w.noted call) hserved
    refine ⟨c :: calls, r, w', List.forall_mem_cons.2 ⟨hp.1, hreading⟩, .step hanswer hleads, ?_,
      ((Unmoved.refl hserved).noted call).trans hunmoved⟩
    rw [Store.readOff, hreply]
    exact hread

namespace Invocation

theorem leads_bind {x : Invocation α} {f : α → Invocation β} {a : α} {p : CloudProgram (Except Failure β)}
    (hx : w.Leads ids x.run calls w₁ (.done (.ok a))) (hf : w₁.Leads ids (f a).run more w₂ p) :
    w.Leads ids (x >>= f).run (calls ++ more) w₂ p :=
  (hx.bind (ExceptT.bindCont f)).trans hf

/-- **An invocation that only looks at the store gives what the store says.** -/
theorem Reads.leads (ids : Nat → String) {x : Invocation α} (hx : x.Reads) (hserved : w.bucket.failing = []) :
    ∃ calls r w', (∀ c ∈ calls, c.IsReading) ∧ w.Leads ids x.run calls w' (.done r) ∧
      (∀ a, r = .ok a ↔ w.bucket.store.gives x = some a) ∧ w.Unmoved w' := by
  obtain ⟨calls, r, w', hreading, hleads, hread, hunmoved⟩ := Program.Reads.leads ids hx.run hserved
  refine ⟨calls, r, w', hreading, hleads, fun a => ?_, hunmoved⟩
  rw [Store.gives, hread]
  cases r with
  | error e => exact ⟨fun h => (by cases h), fun h => by cases h⟩
  | ok b => exact ⟨fun h => by cases h; rfl, fun h => by cases h; rfl⟩

/-- A time that the clock does not reach breaks the invocation down. -/
theorem leads_after_overflow {span : Duration} (h : clockLimit ≤ w.elapsed + span) :
    w.Leads ids (after span).run [.now] w (.halt .overflow) := by
  have hnow : w.Leads ids (after span).run [.now] w (fitted clockLimit (w.elapsed + span)).run :=
    .call (c := .now) rfl
  rwa [fitted_of_le h] at hnow

theorem leads_after {span : Duration} (h : w.elapsed + span < clockLimit) :
    w.Leads ids (after span).run [.now] w (.done (.ok (w.elapsed + span))) := by
  have hnow : w.Leads ids (after span).run [.now] w (fitted clockLimit (w.elapsed + span)).run :=
    .call (c := .now) rfl
  rwa [fitted_of_lt h] at hnow

end Invocation

namespace Leased

variable {x : Leased α} {f : α → Leased β}

theorem leads_bind {a : α} {p : CloudProgram (Except Failure β × Option TableLock)}
    (hx : w.Leads ids (x.run.run held) calls w₁ (.done (.ok a, held₁)))
    (hf : w₁.Leads ids ((f a).run.run held₁) more w₂ p) : w.Leads ids ((x >>= f).run.run held) (calls ++ more) w₂ p := by
  rw [run_bind]
  exact (hx.bind _).trans hf

theorem leads_bind_error {e : Failure} (hx : w.Leads ids (x.run.run held) calls w₁ (.done (.error e, held₁))) :
    w.Leads ids ((x >>= f).run.run held) calls w₁ (.done (.error e, held₁)) := by
  rw [run_bind]
  exact hx.bind _

/-- The calls of the first part are made, whether or not it ends. -/
theorem leads_bind_left {p : CloudProgram (Except Failure α × Option TableLock)}
    (hx : w.Leads ids (x.run.run held) calls w₁ p) : ∃ p', w.Leads ids ((x >>= f).run.run held) calls w₁ p' := by
  rw [run_bind]
  exact ⟨_, hx.bind _⟩

theorem leads_lift {x : Invocation α} {r : Except Failure α} (hx : w.Leads ids x.run calls w₁ (.done r)) :
    w.Leads ids ((lift x).run.run held) calls w₁ (.done (r, held)) :=
  hx.bind _

theorem leads_now (x : Duration → Leased α) :
    w.Leads ids ((do x (← (Invocation.now : Leased Duration)) : Leased α).run.run held) [.now] w
      ((x w.elapsed).run.run held) :=
  .call (c := .now) rfl

end Leased
end Intake
