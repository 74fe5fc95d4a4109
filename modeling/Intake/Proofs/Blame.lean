import Intake.Proofs.Dispatching
/-!
# Blame — who says that somebody else was first

That somebody else has changed the lock is a failure of the handle on it, and that somebody else has claimed the marker is
one of claiming it.  Everything else fails for other reasons, whatever it is answered, unless the rule that gives keys
their destinations says so itself (`Failure.IsForeign`).
-/
namespace Intake

/-- What somebody else may be first to do. -/
inductive Race where
  | lock
  | claim

/-- The race that was lost, if that is the failure. -/
def Failure.race? : Failure → Option Race
  | .lockConflict .. => some .lock
  | .duplicate _ => some .claim
  | _ => none

/-- **The failure comes from elsewhere**: it is not that this race was lost, or the layout says that it was. -/
def Failure.IsForeign (race : Race) (layout : Layout) (e : Failure) : Prop :=
  e.race? = some race → ∃ key, layout.resolver key = .error e

theorem Failure.isForeign_of_race? {e : Failure} (h : e.race? = none) (race : Race) (layout : Layout) :
    e.IsForeign race layout :=
  fun hlost => by rw [h] at hlost; cases hlost

/-- Where every call is admitted and nothing is promised, there is nothing to keep to. -/
theorem Program.keeps_any {α : Type} : ∀ p : CloudProgram α, p.Keeps (.wild fun _ => True) (fun _ _ => True) ()
  | Program.done _ => trivial
  | Program.ask _ next => ⟨trivial, fun reply _ _ => keeps_any (next reply)⟩
  | Program.halt _ => trivial

namespace Invocation

variable {α β : Type} {race : Race} {layout : Layout}

/-- Whatever it is answered, the invocation fails for reasons that come from elsewhere. -/
structure FailsForeign (race : Race) (layout : Layout) (x : Invocation α) : Prop where
  run : Program.Keeps (.wild fun _ => True) (fun r _ => ∀ e, r = .error e → e.IsForeign race layout) x.run ()

theorem foreign_pure (a : α) : (pure a : Invocation α).FailsForeign race layout := ⟨nofun⟩

theorem foreign_halt (cause : Halt) : (halt cause : Invocation α).FailsForeign race layout := ⟨trivial⟩

theorem foreign_throw {e : Failure} (h : e.race? = none) : (throw e : Invocation α).FailsForeign race layout :=
  ⟨fun _ he => by cases he; exact Failure.isForeign_of_race? h _ _⟩

theorem foreign_ofExcept {r : Except Failure α} (h : ∀ e, r = .error e → e.IsForeign race layout) :
    (ofExcept r).FailsForeign race layout :=
  ⟨h⟩

theorem FailsForeign.bind {x : Invocation α} {f : α → Invocation β} (hx : x.FailsForeign race layout)
    (hf : ∀ a, (f a).FailsForeign race layout) : (x >>= f).FailsForeign race layout := by
  refine ⟨Program.Keeps.bind hx.run fun r _ hr => ?_⟩
  cases r with
  | ok a => exact (hf a).run
  | error e => exact fun e' he => Except.error.inj he ▸ hr e rfl

theorem foreign_ask (c : CloudCall) : (ask c).FailsForeign race layout := ⟨trivial, fun _ _ _ => nofun⟩

theorem foreign_fitted (limit n : Nat) : (fitted limit n).FailsForeign race layout := by
  unfold fitted
  split
  · exact foreign_pure _
  · exact foreign_halt _

theorem foreign_after (span : Duration) : (after span).FailsForeign race layout :=
  (foreign_ask _).bind fun _ => foreign_fitted _ _

theorem foreign_store (p : CloudProgram (Except StoreFault α)) : (store p).FailsForeign race layout := by
  refine ⟨Program.Keeps.bind p.keeps_any fun r _ _ e he => ?_⟩
  cases r with
  | ok a => cases he
  | error fault =>
    cases he
    exact Failure.isForeign_of_race? rfl _ _

theorem foreign_warehouse (p : CloudProgram (Except WarehouseFault α)) : (warehouse p).FailsForeign race layout := by
  refine ⟨Program.Keeps.bind p.keeps_any fun r _ _ e he => ?_⟩
  cases r with
  | ok a => cases he
  | error fault =>
    cases he
    exact Failure.isForeign_of_race? rfl _ _

theorem foreign_get? (key : String) : (get? key).FailsForeign race layout := by
  refine (foreign_ask _).bind fun reply => ?_
  cases reply with
  | ok body => exact foreign_pure _
  | error fault =>
    dsimp only
    split
    · exact foreign_pure _
    · exact foreign_throw rfl

end Invocation

open Invocation

variable {race : Race} {layout : Layout}

namespace ConfigFiles

theorem foreign_findIn (folder name : String) : (findIn folder name).FailsForeign race layout := by
  unfold findIn
  split
  · exact (foreign_get? _).bind fun _ => foreign_pure _
  · refine (foreign_store _).bind fun listing => ?_
    split
    · exact foreign_pure _
    · exact (foreign_store _).bind fun _ => foreign_pure _
    · exact foreign_throw rfl

theorem foreign_findAllIn (name : String) : ∀ folders, (findAllIn name folders).FailsForeign race layout
  | [] => foreign_pure _
  | _ :: rest => (foreign_findIn _ _).bind fun _ => (foreign_findAllIn name rest).bind fun _ => foreign_pure _

theorem foreign_findFirstIn (name : String) : ∀ folders, (findFirstIn name folders).FailsForeign race layout
  | [] => foreign_pure _
  | folder :: rest => by
    refine (foreign_findIn folder name).bind fun found => ?_
    cases found with
    | some file => exact foreign_pure _
    | none => exact foreign_findFirstIn name rest

theorem foreign_orderedIn : ∀ folders, (orderedIn folders).FailsForeign race layout
  | [] => foreign_pure _
  | folder :: rest => by
    refine (foreign_store _).bind fun found => ?_
    cases found with
    | some object => exact foreign_pure _
    | none => exact foreign_orderedIn rest

theorem race?_of_readObject {file : ConfigFile} {e : Failure} (h : readObject file = .error e) :
    e.race? = none := by
  unfold readObject at h
  cases hread : Json.readAll file.body with
  | error fault =>
    rw [hread] at h
    cases h
    rfl
  | ok value =>
    simp only [hread, Except.mapError, bind, Except.bind] at h
    cases hsorted : value.sortFields with
    | object fields =>
      rw [hsorted] at h
      cases h
    | _ =>
      rw [hsorted] at h
      cases h
      rfl

theorem race?_of_layOver {e : Failure} : ∀ {base : Json} {files : List ConfigFile},
    layOver base files = .error e → e.race? = none
  | _, [], h => by cases h
  | base, file :: rest, h => by
    unfold layOver at h
    cases hread : readObject file with
    | error e' =>
      rw [hread] at h
      cases h
      exact race?_of_readObject hread
    | ok value =>
      rw [hread] at h
      exact race?_of_layOver h

theorem foreign_layOver (base : Json) (files : List ConfigFile) : (ofExcept (layOver base files)).FailsForeign race layout :=
  foreign_ofExcept fun _ h => Failure.isForeign_of_race? (race?_of_layOver h) _ _

theorem foreign_loadConfig (key : String) (base : Json) : (loadConfig key base).FailsForeign race layout := by
  refine (foreign_findAllIn _ _).bind fun files => ?_
  split
  · exact foreign_pure _
  · exact foreign_layOver _ _

theorem foreign_externalConfig (key : String) : (externalConfig key).FailsForeign race layout := by
  refine (foreign_findAllIn _ _).bind fun files => (foreign_layOver _ _).bind fun config => ?_
  split
  · split
    · exact foreign_throw rfl
    · exact foreign_pure _
  · exact foreign_throw rfl

theorem foreign_transformSql (key : String) : (transformSql key).FailsForeign race layout := by
  refine (foreign_findFirstIn _ _).bind fun found => ?_
  split
  · exact foreign_pure _
  · split
    · exact foreign_throw rfl
    · split
      · exact foreign_throw rfl
      · exact foreign_pure _

end ConfigFiles

theorem Layout.isForeign_of_destination {key : String} {e : Failure} (h : layout.destination key = .error e) :
    e.IsForeign race layout := by
  unfold Layout.destination at h
  cases hresolver : layout.resolver (Key.withoutBacklog key) with
  | error e' =>
    rw [hresolver] at h
    cases h
    exact fun _ => ⟨_, hresolver⟩
  | ok found =>
    rw [hresolver] at h
    cases h

theorem Layout.isForeign_of_tablePrefix {key : String} {e : Failure} (h : layout.tablePrefix key = .error e) :
    e.IsForeign race layout := by
  unfold Layout.tablePrefix at h
  split at h
  · cases h
  · cases hdestination : layout.destination key with
    | error e' =>
      rw [hdestination] at h
      cases h
      exact isForeign_of_destination hdestination
    | ok destination =>
      rw [hdestination] at h
      cases h

namespace Submission

theorem foreign_gather (bucket start successName : String) (limits : BatchLimits) :
    (gather bucket start successName limits).FailsForeign race layout := by
  refine (foreign_store _).bind fun listing => ?_
  split
  · exact foreign_throw rfl
  · exact foreign_pure _

theorem foreign_plan (ctx : Context) (marker : String) : (plan ctx marker).FailsForeign race ctx.layout := by
  refine (foreign_ofExcept fun _ h => Layout.isForeign_of_destination h).bind fun destination => ?_
  refine (foreign_gather ..).bind fun batches => ?_
  refine (ConfigFiles.foreign_transformSql marker).bind fun sql => ?_
  cases sql with
  | some sql => exact (ConfigFiles.foreign_externalConfig marker).bind fun _ => foreign_pure _
  | none => exact (ConfigFiles.foreign_loadConfig marker _).bind fun _ => foreign_pure _

end Submission

namespace JobWatch

theorem foreign_waitUntil (jobId : String) (deadline interval : Duration) :
    ∀ rounds, (waitUntil jobId deadline interval rounds).FailsForeign race layout
  | 0 => foreign_halt _
  | rounds + 1 => by
    refine (foreign_warehouse _).bind fun status => ?_
    split
    · exact foreign_pure _
    · split
      · exact foreign_pure _
      · refine (foreign_after interval).bind fun time => ?_
        split
        · exact foreign_pure _
        · exact (foreign_ask _).bind fun _ => foreign_waitUntil jobId deadline interval rounds

theorem foreign_wait (patience : Nat) (jobId : String) (window interval : Duration) :
    (wait patience jobId window interval).FailsForeign race layout :=
  (foreign_after window).bind fun _ => foreign_waitUntil ..

theorem foreign_check (failOnZeroRows : Bool) (status : JobStatus) :
    (check failOnZeroRows status).FailsForeign race layout := by
  unfold check
  split
  · exact (foreign_ask _).bind fun _ => foreign_throw rfl
  · split
    · have hnothing : (changedNothing status).FailsForeign race layout := by
        unfold changedNothing
        split
        · exact foreign_pure _
        · split
          · exact (foreign_warehouse _).bind fun _ => (foreign_fitted _ _).bind fun _ => foreign_pure _
          · exact foreign_pure _
      refine hnothing.bind fun nothing => ?_
      split
      · exact (foreign_ask _).bind fun _ => foreign_throw rfl
      · exact foreign_pure _
    · exact foreign_pure _

theorem foreign_missing (jobId : String) : (missing jobId).FailsForeign race layout :=
  (foreign_ask _).bind fun _ => foreign_throw rfl

end JobWatch

theorem Submission.foreign_submitAndWatch (ctx : Context) (job : Job) :
    (submitAndWatch ctx job).FailsForeign race layout := by
  refine (foreign_warehouse _).bind fun _ => (foreign_ask _).bind fun _ => (JobWatch.foreign_wait ..).bind fun seen => ?_
  split
  · exact JobWatch.foreign_check ..
  all_goals exact foreign_pure _

namespace Backlog

theorem foreign_next (tablePrefix : String) : (next tablePrefix).FailsForeign race layout :=
  (foreign_store _).bind fun _ => foreign_pure _

theorem foreign_pop (tablePrefix : String) : (pop tablePrefix).FailsForeign race layout := by
  refine (foreign_next _).bind fun pointer => ?_
  cases pointer with
  | none => exact foreign_pure _
  | some pointer => exact (foreign_store _).bind fun _ => foreign_pure _

theorem race?_of_pointerFor {tablePrefix marker : String} {e : Failure} (h : pointerFor tablePrefix marker = .error e) :
    e.race? = none := by
  unfold pointerFor at h
  split at h
  · cases h
  · cases h
    rfl

theorem foreign_push (tablePrefix marker : String) : (push tablePrefix marker).FailsForeign race layout :=
  (foreign_ofExcept fun _ h => Failure.isForeign_of_race? (race?_of_pointerFor h) _ _).bind fun _ =>
    (foreign_store _).bind fun _ => foreign_pure _

end Backlog

namespace BackfillMarker

theorem foreign_write (marker : BackfillMarker) (precondition : Precondition) :
    (marker.write precondition).FailsForeign race layout := by
  refine (foreign_store _).bind fun result => ?_
  split <;> exact foreign_pure _

theorem foreign_post (marker : BackfillMarker) : marker.post.FailsForeign race layout := by
  have hgate : marker.gateOpen.FailsForeign race layout := by
    unfold gateOpen
    split
    · exact foreign_pure _
    · exact (foreign_store _).bind fun _ => foreign_pure _
  refine hgate.bind fun isOpen => ?_
  split
  · exact foreign_write _ _
  · exact foreign_pure _

end BackfillMarker

namespace Monitor

theorem foreign_repost (backfill : BackfillMarker) (reason : String) :
    (repost backfill reason).FailsForeign race layout := by
  refine (BackfillMarker.foreign_post backfill).bind fun outcome => ?_
  cases outcome with
  | posted version => exact (foreign_ask _).bind fun _ => foreign_pure _
  | alreadyPresent => exact foreign_pure _
  | gateClosed => exact foreign_pure _

theorem foreign_appears (backfill : BackfillMarker) (deadline interval : Duration) :
    ∀ rounds, (appears backfill deadline interval rounds).FailsForeign race layout
  | 0 => foreign_halt _
  | rounds + 1 => by
    refine (foreign_store _).bind fun found => ?_
    cases found with
    | some object => exact foreign_pure _
    | none =>
      refine (foreign_ask _).bind fun time => ?_
      split
      · exact foreign_pure _
      · exact (foreign_ask _).bind fun _ => foreign_appears backfill deadline interval rounds

theorem foreign_watch (ctx : Context) (tablePrefix : String) (backfill : BackfillMarker) :
    (watch ctx tablePrefix backfill).FailsForeign race layout := by
  refine (foreign_ask _).bind fun _ => (foreign_after _).bind fun deadline => (foreign_appears ..).bind fun found => ?_
  split
  · exact foreign_pure _
  · refine (Backlog.foreign_next _).bind fun pointer => ?_
    cases pointer with
    | none => exact foreign_pure _
    | some pointer => exact foreign_repost _ _

theorem foreign_ensureSubscriber (ctx : Context) (tablePrefix : String) :
    (ensureSubscriber ctx tablePrefix).FailsForeign race layout := by
  refine (foreign_store _).bind fun found => ?_
  cases found with
  | none => exact foreign_watch ..
  | some existing =>
    refine (foreign_ask _).bind fun instant => ?_
    split
    · refine (foreign_store _).bind fun result => ?_
      split
      · exact foreign_pure _
      · exact foreign_repost _ _
    · exact foreign_watch ..

end Monitor

theorem Claim.foreign_takeObject (marker : ObjectInfo) : (takeObject marker).FailsForeign .lock layout := by
  refine (foreign_store _).bind fun result => ?_
  split
  · exact foreign_pure _
  · exact ⟨fun _ he => by cases he; exact nofun⟩

theorem Settings.race?_of_subscriberBudget {settings : Settings} {e : Failure}
    (h : settings.subscriberBudget = .error e) : e.race? = none := by
  unfold subscriberBudget at h
  dsimp only at h
  split at h
  · cases h
    rfl
  · cases h

namespace Subscriber

theorem foreign_markerOf (pointer : String) : (markerOf pointer).FailsForeign race layout := by
  refine (foreign_store _).bind fun found => ?_
  split
  · exact foreign_pure _
  · exact foreign_throw rfl

theorem foreign_handOver (task : Task) : (handOver task).FailsForeign race layout :=
  (BackfillMarker.foreign_write _ _).bind fun _ => foreign_pure _

end Subscriber

theorem Dispatch.foreign_isOrdered (ctx : Context) (marker : String) :
    (Dispatch.isOrdered ctx marker).FailsForeign race layout := by
  unfold isOrdered
  split
  · exact foreign_pure _
  · exact ConfigFiles.foreign_orderedIn _

/-! ## Without a lock -/

namespace Leased

variable {α β : Type}

/-- Whatever it is answered, without a handle on a lock the invocation fails for reasons that come from elsewhere. -/
structure FailsForeign (race : Race) (layout : Layout) (x : Leased α) : Prop where
  run : x.KeepsFree (.wild fun _ => True) (fun _ _ => True) () fun e _ => e.IsForeign race layout

theorem foreign_pure (a : α) : (pure a : Leased α).FailsForeign race layout := ⟨keepsFree_pure trivial⟩

theorem foreign_throw {e : Failure} (h : e.race? = none) : (throw e : Leased α).FailsForeign race layout :=
  ⟨keepsFree_throw (Failure.isForeign_of_race? h _ _)⟩

theorem foreign_claimLock (id : String) : (claimLock id).FailsForeign race layout := ⟨keepsFree_claimLock id trivial⟩

theorem FailsForeign.bind {x : Leased α} {f : α → Leased β} (hx : x.FailsForeign race layout)
    (hf : ∀ a, (f a).FailsForeign race layout) : (x >>= f).FailsForeign race layout :=
  ⟨hx.run.bind fun a _ _ => (hf a).run⟩

theorem foreign_lift {x : Invocation α} (hx : x.FailsForeign race layout) : (lift x).FailsForeign race layout :=
  ⟨keepsFree_lift_run (Program.Keeps.mono (fun _ _ hr => ⟨fun _ _ => trivial, hr⟩) hx.run)⟩

theorem FailsForeign.life {x : Leased α} (hx : x.FailsForeign race layout) :
    Invocation.FailsForeign race layout (ExceptT.mk do
      let (result, _) ← x.run.run none
      return result) :=
  ⟨Program.Keeps.mono (fun _ _ hr => hr.2) hx.run.life⟩

end Leased

namespace Submission

theorem foreign_loadJobs (ctx : Context) (jobId : String) (total : Nat) : ∀ (jobs : List Job) (index : Nat)
    (lastId : String), (loadJobs ctx jobId total index lastId jobs).FailsForeign race layout
  | [], _, _ => Leased.foreign_pure _
  | _ :: rest, index, _ => by
    refine (Leased.foreign_claimLock _).bind fun locked => ?_
    refine (Leased.foreign_lift (foreign_submitAndWatch ctx _)).bind fun _ => ?_
    split
    · exact Leased.foreign_pure _
    · exact foreign_loadJobs ctx jobId total rest (index + 1) _

theorem foreign_carryOut (ctx : Context) (jobId : String) (firstPart : Nat) (plan : Plan) :
    (carryOut ctx jobId firstPart plan).FailsForeign race layout := by
  cases plan with
  | query job =>
    refine (Leased.foreign_claimLock _).bind fun _ => ?_
    exact (Leased.foreign_lift (foreign_submitAndWatch ctx _)).bind fun _ => Leased.foreign_pure _
  | loads jobs =>
    have hload : (loadJobs ctx jobId jobs.length firstPart jobId (jobs.drop firstPart)).FailsForeign race layout :=
      foreign_loadJobs ..
    simp only [carryOut]
    split
    · refine Leased.FailsForeign.bind (Leased.foreign_throw ?_) fun _ => hload.bind fun _ => Leased.foreign_pure _
      rfl
    · exact hload.bind fun _ => Leased.foreign_pure _

theorem foreign_apply (ctx : Context) (marker jobId : String) (firstPart : Nat) :
    (apply ctx marker jobId firstPart).FailsForeign race ctx.layout := by
  unfold apply
  rw [submitJobs_eq]
  have hsubmit : (Leased.lift (plan ctx marker) >>= carryOut ctx jobId firstPart).FailsForeign race ctx.layout :=
    (Leased.foreign_lift (foreign_plan ctx marker)).bind fun _ => foreign_carryOut ..
  exact ⟨hsubmit.run.recording⟩

end Submission
end Intake
