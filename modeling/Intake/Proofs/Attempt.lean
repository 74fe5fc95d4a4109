import Intake.Proofs.Dispatching
import Intake.Proofs.Site
/-!
# Attempt — a success marker is claimed before anything is done for it

Until a notification of a success marker has claimed the marker it only looks.  It claims what it has just seen of the
marker, and if that does not succeed there is nothing left for it to do but to count its failure and to return it
(`Program.Gated`).  This is so whether the marker is applied at once or put into the backlog.
-/
namespace Intake

namespace Program

variable {α β : Type}

/-- **Nothing is left to do but to count**, and then to return a result. -/
def Ends (a : α) : CloudProgram α → Prop
  | Program.done b => b = a
  | Program.ask c next => (∃ metric, c = .count metric) ∧ ∀ reply, (next reply).Ends a
  | Program.halt _ => False

theorem Ends.bind {a : α} {b : β} {f : α → CloudProgram β} : ∀ {p : CloudProgram α}, p.Ends a → (f a).Ends b →
    Ends b (Program.bind p f)
  | Program.done _, hp, hf => by
    cases hp
    exact hf
  | Program.ask _ _, hp, hf => ⟨hp.1, fun reply => Ends.bind (hp.2 reply) hf⟩

/-- The reply says this of the marker. -/
inductive Sighting (marker : String) (info : ObjectInfo) : (c : CloudCall) → c.Reply → Prop where
  | head : Sighting marker info (.head marker) (.ok (some info))

/-- **The program is about to claim what was seen of a marker**, and ends if it does not succeed. -/
def Claims (info : ObjectInfo) (p : CloudProgram (Except Failure α)) : Prop :=
  ∃ next : Except StoreFault PutResult → CloudProgram (Except Failure α),
    p = Program.ask (I := Cloud) (.put (Claim.key info.key info.created) [] .absent) next ∧
    (∀ current, Ends (.error (.duplicate (Claim.key info.key info.created))) (next (.ok (.conflict current)))) ∧
    ∀ fault, Ends (.error (.store fault)) (next (.error fault))

/-- **The program only looks until it claims a marker**, and if it returns before that it has failed. -/
def Gated (marker : String) : CloudProgram (Except Failure α) → Prop
  | Program.done r => ∃ e, r = .error e
  | Program.ask c next => c.IsPassive ∧ ∀ reply,
    (next reply).Gated marker ∨ ∃ info, Sighting marker info c reply ∧ (next reply).Claims info
  | Program.halt _ => True

variable {marker : String}

theorem Ends.gated {e : Failure} : ∀ {p : CloudProgram (Except Failure α)}, p.Ends (.error e) → p.Gated marker
  | Program.done _, h => ⟨e, h⟩
  | Program.ask c _, h => by
    have hpassive : c.IsPassive := by
      obtain ⟨metric, rfl⟩ := h.1
      trivial
    exact ⟨hpassive, fun reply => .inl (h.2 reply).gated⟩

theorem Claims.bind {info : ObjectInfo} {p : CloudProgram (Except Failure α)}
    {f : Except Failure α → CloudProgram (Except Failure β)} (hf : ∀ e, (f (.error e)).Ends (.error e))
    (hp : p.Claims info) : Claims info (Program.bind p f) := by
  obtain ⟨next, rfl, hconflict, hfault⟩ := hp
  exact ⟨fun reply => (next reply).bind f, rfl, fun current => (hconflict current).bind (hf _),
    fun fault => (hfault fault).bind (hf _)⟩

/-- What comes after a gated program is as it may be, if it leaves failures as they are. -/
theorem Gated.bind {f : Except Failure α → CloudProgram (Except Failure β)} (hf : ∀ e, (f (.error e)).Ends (.error e)) :
    ∀ {p : CloudProgram (Except Failure α)}, p.Gated marker → Gated marker (Program.bind p f)
  | Program.done _, hp => by
    obtain ⟨e, rfl⟩ := hp
    exact (hf e).gated
  | Program.ask _ _, hp => by
    refine ⟨hp.1, fun reply => ?_⟩
    rcases hp.2 reply with hgated | ⟨info, hsighting, hclaims⟩
    · exact .inl (Gated.bind hf hgated)
    · exact .inr ⟨info, hsighting, hclaims.bind hf⟩
  | Program.halt _, _ => trivial

/-- Looking first leaves a program gated. -/
theorem Gated.after {f : β → CloudProgram (Except Failure α)} (hf : ∀ b, (f b).Gated marker) :
    ∀ {p : CloudProgram β}, Only (I := Cloud) CloudCall.IsPassive p → Gated marker (Program.bind p f)
  | Program.done b, _ => hf b
  | Program.ask _ _, hp => ⟨hp.1, fun reply => .inl (Gated.after hf (hp.2 reply))⟩
  | Program.halt _, _ => trivial

end Program

namespace Invocation

variable {α β : Type} {marker : String}

def Gated (marker : String) (x : Invocation α) : Prop := Program.Gated marker x.run

theorem Gated.bind {x : Invocation α} (hx : x.Gated marker) (f : α → Invocation β) : (x >>= f).Gated marker := by
  have hfails : ∀ e, Program.Ends (.error e) (ExceptT.bindCont f (.error e)) := fun _ => rfl
  exact Program.Gated.bind hfails hx

theorem Gated.after {x : Invocation α} {f : α → Invocation β} (hx : x.Only CloudCall.IsPassive)
    (hf : ∀ a, (f a).Gated marker) : (x >>= f).Gated marker := by
  refine Program.Gated.after (fun r => ?_) hx
  cases r with
  | ok a => exact hf a
  | error e => exact ⟨e, rfl⟩

end Invocation

open Invocation

theorem Claim.gated_take (marker : String) : (take marker).Gated marker := by
  refine ⟨trivial, fun reply => ?_⟩
  match reply with
  | .error fault => exact .inl ⟨_, rfl⟩
  | .ok none => exact .inl ⟨_, rfl⟩
  | .ok (some info) => exact .inr ⟨info, .head, _, rfl, fun current => rfl, fun fault => rfl⟩

theorem gated_enqueue (ctx : Context) (marker : String) : (enqueue ctx marker).Gated marker :=
  .after (only_ofExcept _) fun _ => (Claim.gated_take marker).bind _

namespace Dispatch

theorem gated_successMarker (ctx : Context) (marker : String) : (successMarker ctx marker).Gated marker := by
  rw [successMarker_eq]
  refine .after (reads_isOrdered ctx marker).passive fun ordered => ?_
  unfold deliver
  split
  · exact (gated_enqueue ctx marker).bind _
  · exact ((Claim.gated_take marker).bind _).bind _

/-- A failure is counted, at most, and returned. -/
theorem ends_countResult (e : Failure) :
    Program.Ends (α := Except Failure Outcome) (.error e)
      (Program.bind (countResult (.error e)) fun _ => .done (.error e)) := by
  unfold countResult
  split
  · rename_i h
    cases h
  · exact ⟨⟨_, rfl⟩, fun _ => rfl⟩
  · split
    · rfl
    · exact ⟨⟨_, rfl⟩, fun _ => rfl⟩

/-- **A notification of a success marker only looks until it claims the marker.** -/
theorem gated_handle {ctx : Context} {n : Notification} (h : triggerOf ctx.layout n = .successMarker) :
    (handle ctx n).Gated n.key := by
  have hact : Invocation.Gated n.key (do
      if triggerOf ctx.layout n ≠ .ignored then Invocation.store (CloudProgram.ask (.openBucket n.bucket))
      act { ctx with bucket := n.bucket } n.key (triggerOf ctx.layout n)) := by
    rw [h]
    exact .after (only_store (only_call trivial)) fun _ => gated_successMarker _ n.key
  exact Program.Gated.after (fun _ => Program.Gated.bind ends_countResult hact) (only_call trivial)

end Dispatch
end Intake
