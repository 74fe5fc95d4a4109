import Intake.Proofs.Reading
import Intake.Proofs.Wire
import Intake.Subscriber
/-!
# Patience — programs that their host may cut off

Whether a loop comes to its end is a question of the rounds that its host grants it.  A program meets its promise if it
makes admitted calls only, ends as promised, and is cut off only under a condition (`Program.Meets`); where the condition
is not given, a run of it ends (`Program.Meets.run`).  Most of what a subscriber does takes no time and is no loop
(`Invocation.Plain`).
-/
namespace Intake

namespace Program

variable {I : Interface} {α β σ : Type} {env : Surroundings I σ} {cut : Prop} {s : σ}

/-- **The program makes admitted calls only, promises something when it ends, and is cut off only under a condition.** -/
def Meets (env : Surroundings I σ) (cut : Prop) (post : α → σ → Prop) : Program I α → σ → Prop
  | .done a, s => post a s
  | .ask c next, s => env.admits c s ∧ ∀ reply s', env.answers c s reply s' → (next reply).Meets env cut post s'
  | .halt _, _ => cut

theorem Meets.mono {post post' : α → σ → Prop} (h : ∀ a s, post a s → post' a s) :
    ∀ {p : Program I α} {s : σ}, p.Meets env cut post s → p.Meets env cut post' s
  | .done a, s, hp => h a s hp
  | .ask _ _, _, hp => ⟨hp.1, fun reply s' hr => Meets.mono h (hp.2 reply s' hr)⟩
  | .halt _, _, hp => hp

theorem Meets.bind {mid : α → σ → Prop} {post : β → σ → Prop} {f : α → Program I β} :
    ∀ {p : Program I α} {s : σ}, p.Meets env cut mid s → (∀ a s, mid a s → (f a).Meets env cut post s) →
      (p.bind f).Meets env cut post s
  | .done a, s, hp, hf => hf a s hp
  | .ask _ _, _, hp, hf => ⟨hp.1, fun reply s' hr => Meets.bind (hp.2 reply s' hr) hf⟩
  | .halt _, _, hp, _ => hp

theorem Keeps.meets {post : α → σ → Prop} :
    ∀ {p : Program I α} {s : σ}, p.Keeps env post s → p.Finishes → p.Meets env cut post s
  | .done _, _, hp, _ => hp
  | .ask _ _, _, hp, hf => ⟨hp.1, fun reply s' hr => Keeps.meets (hp.2 reply s' hr) (hf reply)⟩
  | .halt _, _, _, hf => hf.elim

/-- **A run of the program ends as promised, or was cut off under the condition**; either way it has kept what every
admitted call keeps. -/
theorem Meets.run {answer : (c : I.Call) → σ → I.Reply c × σ} {post : α → σ → Prop} {inv : σ → Prop}
    (hanswers : ∀ c s, env.answers c s (answer c s).1 (answer c s).2)
    (hinv : ∀ c s, env.admits c s → inv s → inv (answer c s).2) :
    ∀ {p : Program I α} {s : σ}, p.Meets env cut post s → inv s → inv (p.run answer s).2 ∧
      (∀ a, (p.run answer s).1 = some a → post a (p.run answer s).2) ∧ ((p.run answer s).1 = none → cut)
  | .done a, _, hp, hs => ⟨hs, fun _ e => Option.some.inj e ▸ hp, fun e => by cases e⟩
  | .ask c next, s, hp, hs =>
    Meets.run (p := next (answer c s).1) hanswers hinv (hp.2 _ _ (hanswers c s)) (hinv c s hp.1 hs)
  | .halt _, _, hp, hs => ⟨hs, fun _ e => (by cases e), fun _ => hp⟩

end Program

namespace Invocation

variable {α β σ : Type} {env : Surroundings Cloud σ} {cut : Prop} {good : α → σ → Prop} {s : σ}

/-- The invocation makes admitted calls only, promises something if it succeeds, and is cut off only under a condition. -/
def Meets (env : Surroundings Cloud σ) (cut : Prop) (good : α → σ → Prop) (x : Invocation α) (s : σ) : Prop :=
  Program.Meets env cut (fun r s => ∀ a, r = .ok a → good a s) x.run s

theorem Meets.mono {good' : α → σ → Prop} {x : Invocation α} (h : x.Meets env cut good s)
    (hg : ∀ a s, good a s → good' a s) : x.Meets env cut good' s :=
  Program.Meets.mono (fun _ s hr a e => hg a s (hr a e)) h

theorem meets_pure {a : α} (h : good a s) : (pure a : Invocation α).Meets env cut good s :=
  fun _ e => by cases e; exact h

theorem meets_ofExcept {r : Except Failure α} (h : ∀ a, r = .ok a → good a s) : (ofExcept r).Meets env cut good s := h

theorem meets_halt (cause : Halt) (h : cut) : (halt cause : Invocation α).Meets env cut good s := h

theorem meets_fitted {limit n : Nat} (hroom : ¬ n < limit → cut) :
    (fitted limit n).Meets env cut (fun m s' => m = n ∧ s' = s) s := by
  unfold fitted
  split
  · exact meets_pure ⟨rfl, rfl⟩
  · rename_i hnone
    exact meets_halt .overflow (hroom hnone)

theorem Meets.bind {mid : α → σ → Prop} {good : β → σ → Prop} {x : Invocation α} {f : α → Invocation β}
    (hx : x.Meets env cut mid s) (hf : ∀ a s, mid a s → (f a).Meets env cut good s) :
    (x >>= f).Meets env cut good s := by
  refine Program.Meets.bind hx fun r s hr => ?_
  cases r with
  | ok a => exact hf a s (hr a rfl)
  | error e => exact fun _ h => by cases h

theorem Keeps.meets {x : Invocation α} (h : x.Keeps env good s) (hf : Program.Finishes (I := Cloud) x.run) :
    x.Meets env cut good s :=
  Program.Keeps.meets h hf

end Invocation

namespace TableLock

open Program (Finishes)

theorem finishes_read (lock : TableLock) : Finishes (I := Cloud) lock.read := by
  intro reply
  cases reply with
  | error fault => trivial
  | ok found =>
    cases found with
    | none => trivial
    | some seen =>
      intro reply
      cases reply with
      | ok body => trivial
      | error fault =>
        show Finishes (if fault.isNotFound = true then _ else _)
        split <;> trivial

theorem finishes_write (lock : TableLock) (text : String) : Finishes (I := Cloud) (lock.write text) := by
  intro reply
  cases reply with
  | error fault => trivial
  | ok result => cases result <;> trivial

theorem finishes_release (lock : TableLock) : Finishes (I := Cloud) lock.release := by
  unfold release
  cases lock.version with
  | none => trivial
  | some version =>
    intro reply
    cases reply with
    | error fault => trivial
    | ok result => cases result <;> trivial

end TableLock

namespace Leased

open Program (bind_assoc)

variable {α β σ : Type} {env : Surroundings Cloud σ} {cut : Prop} {lock : TableLock}
  {good : α → Option String → σ → Prop} {version : Option String} {s : σ}

/-- The same of an invocation with a handle on a lock. -/
def Meets (env : Surroundings Cloud σ) (cut : Prop) (lock : TableLock) (good : α → Option String → σ → Prop)
    (x : Leased α) (version : Option String) (s : σ) : Prop :=
  Program.Meets env cut (fun r s => ∃ version', r.2 = some (lock.seen version') ∧ ∀ a, r.1 = .ok a → good a version' s)
    (x.run.run (some (lock.seen version))) s

theorem Meets.mono {good' : α → Option String → σ → Prop} {x : Leased α} (h : x.Meets env cut lock good version s)
    (hg : ∀ a v s, good a v s → good' a v s) : x.Meets env cut lock good' version s := by
  refine Program.Meets.mono (fun r s hr => ?_) h
  obtain ⟨v, e, hr⟩ := hr
  exact ⟨v, e, fun a e => hg a v s (hr a e)⟩

theorem meets_pure {a : α} (h : good a version s) : (pure a : Leased α).Meets env cut lock good version s :=
  ⟨version, rfl, fun _ e => by cases e; exact h⟩

theorem meets_throw (e : Failure) : (throw e : Leased α).Meets env cut lock good version s :=
  ⟨version, rfl, fun _ h => by cases h⟩

theorem Meets.bind {mid : α → Option String → σ → Prop} {good : β → Option String → σ → Prop} {x : Leased α}
    {f : α → Leased β} (hx : x.Meets env cut lock mid version s)
    (hf : ∀ a v s, mid a v s → (f a).Meets env cut lock good v s) : (x >>= f).Meets env cut lock good version s := by
  unfold Meets
  rw [run_bind]
  refine Program.Meets.bind hx fun r s hr => ?_
  obtain ⟨r, held⟩ := r
  obtain ⟨v, rfl, hr⟩ := hr
  cases r with
  | ok a => exact hf a v s (hr a rfl)
  | error e => exact ⟨v, rfl, fun _ h => by cases h⟩

theorem meets_lift {x : Invocation α} {fact : α → σ → Prop} (h : x.Meets env cut fact s) :
    (lift x).Meets env cut lock (fun a _ s => fact a s) version s :=
  Program.Meets.bind h fun _ _ hr => ⟨version, rfl, hr⟩

theorem Meets.recording {x : Leased α} (hadmits : ∀ key body precondition s, env.admits (.put key body precondition) s)
    (h : x.Meets env cut lock good version s) : (recording x).Meets env cut lock good version s := by
  unfold Meets
  rw [run_recording]
  refine Program.Meets.bind h fun r s hr => ?_
  obtain ⟨r, held⟩ := r
  obtain ⟨v, rfl, hr⟩ := hr
  cases r with
  | ok a => exact ⟨v, rfl, fun b e => by cases e; exact hr a rfl⟩
  | error e =>
    simp only [run_bind, run_recordError, bind_assoc]
    have hwrite : ((lock.seen v).write (lock.errorText e.message)).Keeps env (fun r _ => ∃ v, r.2 = lock.seen v ∧
        (r.1 = .ok () → True) ∧ ∀ e, r.1 = .error e → True) s :=
      keeps_write (hadmits _ _ _ s) (fun _ _ _ => trivial) fun _ _ _ => trivial
    refine Program.Meets.bind (hwrite.meets (TableLock.finishes_write _ _)) fun r s hr => ?_
    obtain ⟨r, held⟩ := r
    obtain ⟨v', rfl, -⟩ := hr
    exact ⟨v', rfl, fun _ h => by cases h⟩

theorem Meets.life {x : Leased α} (h : x.Meets env cut lock good version s) :
    Invocation.Meets env cut (fun a s => ∃ v, good a v s) (ExceptT.mk do
      let (result, _) ← x.run.run (some (lock.seen version))
      return result) s := by
  refine Program.Meets.bind h fun r s hr => ?_
  obtain ⟨r, held⟩ := r
  obtain ⟨v, -, hgood⟩ := hr
  exact fun a e => ⟨v, hgood a e⟩

/-- The invocation is not cut off, whatever it is answered. -/
def Finishes (x : Leased α) : Prop := ∀ held, Program.Finishes (I := Cloud) (x.run.run held)

theorem Keeps.meets {x : Leased α} {bad : Option String → σ → Prop} (h : x.Keeps env lock good version s bad)
    (hf : x.Finishes) : x.Meets env cut lock good version s := by
  refine Program.Meets.mono (fun r s hr => ?_) (Program.Keeps.meets h (hf _))
  obtain ⟨v, e, hr, -⟩ := hr
  exact ⟨v, e, hr⟩

theorem finishes_pure (a : α) : (pure a : Leased α).Finishes := fun _ => trivial

theorem Finishes.bind {x : Leased α} {f : α → Leased β} (hx : x.Finishes) (hf : ∀ a, (f a).Finishes) :
    (x >>= f).Finishes := by
  intro held
  rw [run_bind]
  refine Program.Finishes.bind (hx held) fun r => ?_
  obtain ⟨r, held⟩ := r
  cases r with
  | ok a => exact hf a held
  | error e => trivial

theorem finishes_withLock {p : TableLock → CloudProgram (Except Failure α × TableLock)}
    (hp : ∀ lock, Program.Finishes (I := Cloud) (p lock)) : (withLock p).Finishes := by
  intro held
  cases held with
  | none => trivial
  | some lock => exact Program.Finishes.bind (hp lock) fun _ => trivial

theorem finishes_readLock : readLock.Finishes :=
  (finishes_withLock TableLock.finishes_read).bind fun _ => finishes_pure _

theorem finishes_claimLock (id : String) : (claimLock id).Finishes :=
  (finishes_withLock fun lock => lock.finishes_write id).bind fun _ => finishes_pure _

theorem finishes_releaseLock : releaseLock.Finishes :=
  (finishes_withLock TableLock.finishes_release).bind fun _ => finishes_pure _

end Leased

/-! ## Calls of a kind -/

/-- The call takes no time. -/
def CloudCall.IsPrompt : CloudCall → Prop
  | .sleep _ => False
  | _ => True

/-- The call takes no time and leaves the objects and the jobs as they are. -/
def CloudCall.IsIdle : CloudCall → Prop
  | .put .. | .delete .. | .submit _ | .job _ | .sleep _ => False
  | _ => True

theorem CloudCall.IsIdle.isPrompt {c : CloudCall} (h : c.IsIdle) : c.IsPrompt := by
  cases c with
  | sleep => exact h.elim
  | _ => trivial

theorem CloudCall.IsReading.isIdle {c : CloudCall} (h : c.IsReading) : c.IsIdle := by
  cases c with
  | get | head | list => trivial
  | _ => exact h.elim

theorem Program.Reads.finishes {α : Type} :
    ∀ {p : CloudProgram (Except Failure α)}, p.Reads → Program.Finishes (I := Cloud) p
  | Program.done _, _ => trivial
  | Program.ask _ _, hp => fun reply => finishes (hp.2 reply).1
  | Program.halt _, hp => hp.elim

namespace Invocation

variable {α β σ : Type} {ok : CloudCall → Prop} {env : Surroundings Cloud σ} {cut : Prop} {s : σ}

/-- **The invocation makes calls of a kind only, and comes to its end whatever it is answered.** -/
structure Plain (ok : CloudCall → Prop) (x : Invocation α) : Prop where
  only : x.Only ok
  finishes : Program.Finishes (I := Cloud) x.run

theorem plain_pure (a : α) : (pure a : Invocation α).Plain ok := ⟨trivial, trivial⟩

theorem plain_throw (e : Failure) : (throw e : Invocation α).Plain ok := ⟨trivial, trivial⟩

theorem Plain.bind {x : Invocation α} {f : α → Invocation β} (hx : x.Plain ok) (hf : ∀ a, (f a).Plain ok) :
    (x >>= f).Plain ok := by
  refine ⟨hx.only.bind fun a => (hf a).only, Program.Finishes.bind hx.finishes fun r => ?_⟩
  cases r with
  | ok a => exact (hf a).finishes
  | error e => trivial

theorem Plain.mono {ok' : CloudCall → Prop} {x : Invocation α} (h : ∀ c, ok c → ok' c) (hx : x.Plain ok) :
    x.Plain ok' :=
  ⟨hx.only.mono h, hx.finishes⟩

/-- Calls of a kind keep what each of them keeps. -/
theorem Plain.meets {inv : σ → Prop} {x : Invocation α} (hadmits : ∀ c s, ok c → env.admits c s)
    (hkept : ∀ c s reply s', ok c → inv s → env.answers c s reply s' → inv s') (hx : x.Plain ok) (hs : inv s) :
    x.Meets env cut (fun _ => inv) s :=
  (hx.only.keeps (fun c s hc _ => hadmits c s hc) hkept hs).meets hx.finishes

theorem Reads.idle {x : Invocation α} (h : x.Reads) : x.Plain CloudCall.IsIdle :=
  ⟨h.only.mono fun _ => CloudCall.IsReading.isIdle, h.run.finishes⟩

theorem idle_count (metric : Metric) : (count metric).Plain CloudCall.IsIdle := ⟨only_ask trivial, fun _ => trivial⟩

theorem Plain.prompt {x : Invocation α} (h : x.Plain CloudCall.IsIdle) : x.Plain CloudCall.IsPrompt :=
  h.mono fun _ => CloudCall.IsIdle.isPrompt

theorem prompt_now : now.Plain CloudCall.IsPrompt := ⟨only_ask trivial, fun _ => trivial⟩

theorem prompt_put (key : String) (body : Octets) (precondition : Precondition) :
    (put key body precondition).Plain CloudCall.IsPrompt :=
  ⟨only_store (only_call trivial), fun _ => trivial⟩

theorem prompt_delete (key : String) (precondition : Precondition) : (delete key precondition).Plain CloudCall.IsPrompt :=
  ⟨only_store (only_call trivial), fun _ => trivial⟩

end Invocation

open Invocation

namespace BackfillMarker

theorem prompt_gateOpen (marker : BackfillMarker) : marker.gateOpen.Plain CloudCall.IsPrompt := by
  unfold gateOpen
  split
  · exact plain_pure _
  · exact (reads_head _).idle.prompt.bind fun _ => plain_pure _

theorem prompt_write (marker : BackfillMarker) (precondition : Precondition) :
    (marker.write precondition).Plain CloudCall.IsPrompt := by
  refine (prompt_put ..).bind fun result => ?_
  split <;> exact plain_pure _

theorem prompt_post (marker : BackfillMarker) : marker.post.Plain CloudCall.IsPrompt := by
  refine marker.prompt_gateOpen.bind fun isOpen => ?_
  split
  · exact marker.prompt_write _
  · exact plain_pure _

end BackfillMarker

theorem Subscriber.prompt_handOver (task : Task) : (handOver task).Plain CloudCall.IsPrompt :=
  (task.backfill.prompt_write _).bind fun _ => plain_pure _

end Intake
