import Intake.Monitor
import Intake.Proofs.Outline
/-!
# Modest — enqueuings and monitors keep away from the lock

Putting a marker into the backlog and looking after the backlog write claims, pointers and the backfill marker, and delete
nothing but the backfill marker.
-/
namespace Intake

open Invocation

/-- The call writes only claims, pointers and the backfill marker of a table, and deletes only the latter. -/
def CloudCall.IsModest (tablePrefix : String) : CloudCall → Prop
  | .put key _ _ => (∃ marker created, key = Claim.key marker created) ∨
    startsWith (Backlog.folder tablePrefix) key = true ∨ key = BackfillMarker.keyOf tablePrefix
  | .delete key _ => key = BackfillMarker.keyOf tablePrefix
  | .submit _ => False
  | _ => True

theorem CloudCall.IsFree.isModest {c : CloudCall} {tablePrefix : String} (h : c.IsFree tablePrefix) :
    c.IsModest tablePrefix := by
  cases c with
  | put key =>
    rcases h with rfl | ⟨created, rfl⟩
    · exact .inr (.inr rfl)
    · exact .inl ⟨_, created, rfl⟩
  | delete key => exact h
  | submit job => exact h
  | _ => trivial

variable {tablePrefix : String}

theorem Invocation.Only.modest {α : Type} {x : Invocation α} (h : x.Only (CloudCall.IsFree tablePrefix)) :
    x.Only (CloudCall.IsModest tablePrefix) :=
  h.mono fun _ hc => hc.isModest

/-! ## Enqueuing -/

theorem Claim.modest_take (marker : String) : (take marker).Only (CloudCall.IsModest tablePrefix) :=
  only_take trivial fun _ => .inl ⟨_, _, rfl⟩

theorem Backlog.modest_push (marker : String) : (push tablePrefix marker).Only (CloudCall.IsModest tablePrefix) := by
  refine only_ofExcept_bind fun pointer h => ?_
  obtain ⟨rest, -, -, rfl⟩ := pointerFor_eq_ok h
  exact (only_store (only_call (.inr (.inl (startsWith_iff.2 ⟨rest, rfl⟩))))).bind fun _ => only_pure _

theorem modest_enqueue {ctx : Context} {marker : String} (h : ctx.layout.tablePrefix marker = .ok tablePrefix) :
    (enqueue ctx marker).Only (CloudCall.IsModest tablePrefix) := by
  refine only_ofExcept_bind fun found hfound => ?_
  obtain rfl : tablePrefix = found := Except.ok.inj (h.symm.trans hfound)
  refine (Claim.modest_take marker).bind fun _ => (Backlog.modest_push marker).bind fun pointer => ?_
  exact (only_ask trivial).bind fun _ => (BackfillMarker.posting_post _).free.modest.bind fun _ => only_pure _

/-! ## Monitoring -/

namespace Monitor

theorem passive_appears (backfill : BackfillMarker) (deadline interval : Duration) : ∀ rounds,
    (appears backfill deadline interval rounds).Only CloudCall.IsPassive
  | 0 => only_halt _
  | rounds + 1 => by
    refine (only_store (only_call trivial)).bind fun found => ?_
    split
    · exact only_pure _
    · refine passive_now.bind fun time => ?_
      split
      · exact only_pure _
      · exact (passive_sleep _).bind fun _ => passive_appears backfill deadline interval rounds

section Keeps

variable {σ : Type} {env : Surroundings Cloud σ} {ctx : Context}

theorem keeps_repost {backfill : BackfillMarker} (hpassive : ∀ {c s}, CloudCall.IsPassive c → env.admits c s)
    (hposts : ∀ {s}, backfill.post.Keeps env (fun _ _ => True) s) (reason : String) (s : σ) :
    (repost backfill reason).Keeps env (fun _ _ => True) s := by
  refine hposts.bind fun outcome s _ => ?_
  split
  · exact ((passive_count _).keeps_all hpassive).bind fun _ _ _ => keeps_pure trivial
  · exact keeps_pure trivial
  · exact keeps_pure trivial

theorem keeps_watch {backfill : BackfillMarker} (hpassive : ∀ {c s}, CloudCall.IsPassive c → env.admits c s)
    (hposts : ∀ {s}, backfill.post.Keeps env (fun _ _ => True) s) (s : σ) :
    (watch ctx tablePrefix backfill).Keeps env (fun _ _ => True) s := by
  refine ((passive_sleep _).keeps_all hpassive).bind fun _ s _ => ?_
  refine ((passive_after _).keeps_all hpassive).bind fun deadline s _ => ?_
  refine ((passive_appears ..).keeps_all hpassive).bind fun found s _ => ?_
  split
  · exact keeps_pure trivial
  · refine ((Backlog.reads_next tablePrefix).passive.keeps_all hpassive).bind fun next s _ => ?_
    split
    · exact keeps_pure trivial
    · exact keeps_repost hpassive hposts _ s

/-- **The monitor only looks**, but for deleting the backfill marker and posting it. -/
theorem keeps_ensureSubscriber (hpassive : ∀ {c s}, CloudCall.IsPassive c → env.admits c s)
    (hclears : ∀ {version s}, env.admits (.delete (BackfillMarker.keyOf tablePrefix) (.version version)) s)
    (hposts : ∀ {s}, (BackfillMarker.ofTable tablePrefix ctx.layout.gateName).post.Keeps env (fun _ _ => True) s)
    (s : σ) : (ensureSubscriber ctx tablePrefix).Keeps env (fun _ _ => True) s := by
  refine ((reads_head _).passive.keeps_all hpassive).bind fun found s _ => ?_
  split
  · exact keeps_watch hpassive hposts s
  · have hclock : (Invocation.ask .wallClock).Only CloudCall.IsPassive := only_ask trivial
    refine (hclock.keeps_all hpassive).bind fun instant s _ => ?_
    split
    · refine Invocation.Keeps.bind (keeps_store ⟨hclears, fun _ _ _ _ _ => trivial⟩) fun result s _ => ?_
      split
      · exact keeps_pure trivial
      · exact keeps_repost hpassive hposts _ s
    · exact keeps_watch hpassive hposts s

end Keeps

theorem modest_ensureSubscriber (ctx : Context) :
    (ensureSubscriber ctx tablePrefix).Only (CloudCall.IsModest tablePrefix) := by
  have hposts : (BackfillMarker.ofTable tablePrefix ctx.layout.gateName).post.Keeps
      (.wild (CloudCall.IsModest tablePrefix)) (fun _ _ => True) () :=
    (BackfillMarker.posting_post _).free.modest.keeps_all id
  exact Program.only_of_wild (keeps_ensureSubscriber (fun hc => (hc.isFree tablePrefix).isModest) rfl hposts ())

end Monitor

/-! ## One after the other -/

section Keeps

variable {σ : Type} {env : Surroundings Cloud σ} {ctx : Context} {marker : String} {s : σ}

theorem Backlog.keeps_push (hpushes : ∀ {key s}, startsWith (folder tablePrefix) key = true →
      env.admits (.put key [] .always) s) : (push tablePrefix marker).Keeps env (fun _ _ => True) s := by
  have hpointer : (ofExcept (pointerFor tablePrefix marker)).Keeps env
      (fun pointer _ => startsWith (folder tablePrefix) pointer = true) s := keeps_ofExcept fun pointer e => by
    obtain ⟨rest, -, -, rfl⟩ := pointerFor_eq_ok e
    exact startsWith_iff.2 ⟨rest, rfl⟩
  refine hpointer.bind fun pointer s h => ?_
  exact Invocation.Keeps.bind (keeps_store ⟨hpushes h, fun _ _ _ _ _ => trivial⟩) fun _ _ _ => keeps_pure trivial

/-- **A marker is claimed, and put into the backlog of its own table**, whose backfill marker is posted. -/
theorem keeps_enqueue (hpassive : ∀ {c s}, CloudCall.IsPassive c → env.admits c s)
    (htakes : (Claim.take marker).Keeps env (fun _ _ => True) s)
    (hpushes : ∀ {tablePrefix key s}, ctx.layout.tablePrefix marker = .ok tablePrefix →
      startsWith (Backlog.folder tablePrefix) key = true → env.admits (.put key [] .always) s)
    (hposts : ∀ {tablePrefix s}, ctx.layout.tablePrefix marker = .ok tablePrefix →
      (BackfillMarker.ofTable tablePrefix ctx.layout.gateName).post.Keeps env (fun _ _ => True) s) :
    (enqueue ctx marker).Keeps env (fun enqueued _ => ctx.layout.tablePrefix marker = .ok enqueued.tablePrefix) s := by
  have hfound : (ofExcept (ctx.layout.tablePrefix marker)).Keeps env
      (fun found t => ctx.layout.tablePrefix marker = .ok found ∧ t = s) s := keeps_ofExcept fun _ e => ⟨e, rfl⟩
  refine hfound.bind fun found t h => ?_
  obtain ⟨htable, rfl⟩ := h
  refine htakes.bind fun _ s _ => ?_
  refine (Backlog.keeps_push (hpushes htable)).bind fun pointer s _ => ?_
  refine ((passive_count _).keeps_all hpassive).bind fun _ s _ => ?_
  exact (hposts htable).bind fun _ _ _ => keeps_pure htable

/-- Enqueuing a marker and then looking after its table. -/
theorem keeps_enqueue_ensureSubscriber (hadmits : ∀ {c s}, c.IsModest tablePrefix → env.admits c s)
    (h : ctx.layout.tablePrefix marker = .ok tablePrefix) :
    (do Monitor.ensureSubscriber ctx (← enqueue ctx marker).tablePrefix : Invocation MonitorOutcome).Keeps env
      (fun _ _ => True) s := by
  have hown : ∀ {found}, ctx.layout.tablePrefix marker = .ok found → found = tablePrefix := fun hfound =>
    Except.ok.inj (hfound.symm.trans h)
  have henqueue : (enqueue ctx marker).Keeps env
      (fun enqueued _ => ctx.layout.tablePrefix marker = .ok enqueued.tablePrefix) s :=
    keeps_enqueue (fun hc => hadmits (hc.isFree tablePrefix).isModest) ((Claim.modest_take marker).keeps_all hadmits)
      (fun hfound hkey => hadmits (.inr (.inl (hown hfound ▸ hkey))))
      fun hfound => hown hfound ▸ (BackfillMarker.posting_post _).free.modest.keeps_all hadmits
  refine henqueue.bind fun enqueued s hfound => ?_
  rw [hown hfound]
  exact (Monitor.modest_ensureSubscriber ctx).keeps_all hadmits

end Keeps
end Intake
