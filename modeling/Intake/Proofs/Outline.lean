import Intake.Proofs.Plan
/-!
# Outline — the run of a subscriber, from assertion to assertion

An outline says, for some surroundings, what a subscriber may rely on at each place of its turn, and that each of its
calls is admitted and leads from one place to the next.  A subscriber with an outline keeps to the surroundings for the
whole of its run (`Outline.keeps_run`), however many turns it takes.
-/
namespace Intake

/-- The key is one of a table's backfill marker, or of a claim on it. -/
def BackfillMarker.Owns (tablePrefix key : String) : Prop :=
  key = keyOf tablePrefix ∨ ∃ created, key = Claim.key (keyOf tablePrefix) created

theorem BackfillMarker.Owns.ne_lock {tablePrefix other key : String} (h : Owns tablePrefix key) :
    key ≠ TableLock.keyOf other := by
  rcases h with rfl | ⟨created, rfl⟩
  · exact keyOf_ne_lock _ _
  · exact Claim.key_ne_lock _ _ _

/-- The call changes nothing but the backfill marker of a table, which is empty. -/
def CloudCall.IsPosting (tablePrefix : String) : CloudCall → Prop
  | .put key body _ => key = BackfillMarker.keyOf tablePrefix ∧ body = []
  | .delete key _ => key = BackfillMarker.keyOf tablePrefix
  | .submit _ => False
  | _ => True

/-- The call changes nothing but the backfill marker of a table and the claims on it. -/
def CloudCall.IsFree (tablePrefix : String) : CloudCall → Prop
  | .put key _ _ => BackfillMarker.Owns tablePrefix key
  | .delete key _ => key = BackfillMarker.keyOf tablePrefix
  | .submit _ => False
  | _ => True

theorem CloudCall.IsPassive.isPosting {c : CloudCall} (h : c.IsPassive) (tablePrefix : String) :
    c.IsPosting tablePrefix := by
  cases c <;> trivial

theorem CloudCall.IsPosting.isFree {c : CloudCall} {tablePrefix : String} (h : c.IsPosting tablePrefix) :
    c.IsFree tablePrefix := by
  cases c with
  | put => exact .inl h.1
  | delete => exact h
  | submit => exact h.elim
  | _ => trivial

theorem CloudCall.IsPassive.isFree {c : CloudCall} (h : c.IsPassive) (tablePrefix : String) : c.IsFree tablePrefix :=
  (h.isPosting tablePrefix).isFree

open Invocation

section Free

variable {tablePrefix : String}

theorem Invocation.Only.posting {α : Type} {x : Invocation α} (h : x.Only CloudCall.IsPassive) :
    x.Only (CloudCall.IsPosting tablePrefix) :=
  h.mono fun _ hc => hc.isPosting tablePrefix

theorem Invocation.Only.free {α : Type} {x : Invocation α} (h : x.Only (CloudCall.IsPosting tablePrefix)) :
    x.Only (CloudCall.IsFree tablePrefix) :=
  h.mono fun _ hc => hc.isFree

namespace BackfillMarker

theorem posting_gateOpen (marker : BackfillMarker) : marker.gateOpen.Only (CloudCall.IsPosting tablePrefix) := by
  unfold gateOpen
  split
  · exact only_pure _
  · exact (only_store (only_call trivial)).bind fun _ => only_pure _

theorem posting_write (gateName : Option String) (precondition : Precondition) :
    ((ofTable tablePrefix gateName).write precondition).Only (CloudCall.IsPosting tablePrefix) := by
  have hcall : CloudCall.IsPosting tablePrefix (.put (ofTable tablePrefix gateName).key [] precondition) := ⟨rfl, rfl⟩
  refine (only_store (only_call hcall)).bind fun result => ?_
  split <;> exact only_pure _

theorem posting_post (gateName : Option String) :
    (ofTable tablePrefix gateName).post.Only (CloudCall.IsPosting tablePrefix) := by
  refine (posting_gateOpen _).bind fun isOpen => ?_
  split
  · exact posting_write gateName .absent
  · exact only_pure _

theorem posting_delete (gateName : Option String) (version : String) :
    ((ofTable tablePrefix gateName).delete version).Only (CloudCall.IsPosting tablePrefix) :=
  only_store (only_call rfl)

end BackfillMarker

theorem Claim.free_takeObject {marker : ObjectInfo} (h : marker.key = BackfillMarker.keyOf tablePrefix) :
    (takeObject marker).Only (CloudCall.IsFree tablePrefix) :=
  only_takeObject (.inr ⟨marker.created, by rw [h]⟩)

theorem Subscriber.posting_handOver (gateName : Option String) (version : String) (deadline : Duration) :
    (handOver ⟨tablePrefix, .ofTable tablePrefix gateName, version, deadline⟩).Only (CloudCall.IsPosting tablePrefix) :=
  (BackfillMarker.posting_write _ _).bind fun _ => only_pure _

end Free

/-! ## Jobs that may be submitted -/

/-- The call writes and deletes nothing; it may submit a job. -/
def CloudCall.IsLoading : CloudCall → Prop
  | .put .. | .delete .. => False
  | _ => True

theorem CloudCall.IsPassive.isLoading {c : CloudCall} (h : c.IsPassive) : c.IsLoading := by
  cases c <;> trivial

theorem Plan.mem_jobs_of_job? {plan : Plan} {index : Nat} {job : Job} (h : plan.job? index = some job) :
    job ∈ plan.jobs := by
  cases plan with
  | query => exact List.mem_singleton.2 (Option.some.inj h).symm
  | loads => exact List.mem_of_getElem? h

/-- **Which jobs may be submitted**, in some surroundings: those of every plan may, under whatever name, and nothing that
happens changes that. -/
structure Sourcing {σ : Type} (env : Surroundings Cloud σ) (ctx : Context) where
  May : Job → σ → Prop
  passive : ∀ {c s}, CloudCall.IsPassive c → env.admits c s
  draws : ∀ {s}, env.admits .freshId s
  lasts : ∀ {c s reply s' job}, env.admits c s → env.answers c s reply s' → May job s → May job s'
  named : ∀ {job s} (id : String), May job s → May { job with id := id } s
  plans : ∀ {marker s}, (Submission.plan ctx marker).Keeps env (fun plan s => ∀ job ∈ plan.jobs, May job s) s
  submits : ∀ {job s}, May job s → env.admits (.submit job) s

/-- Surroundings in which any job may be submitted. -/
def Sourcing.any {σ : Type} {env : Surroundings Cloud σ} {ctx : Context}
    (h : ∀ {c s}, CloudCall.IsLoading c → env.admits c s) : Sourcing env ctx where
  May _ _ := True
  passive hc := h hc.isLoading
  draws := h trivial
  lasts _ _ _ := trivial
  named _ _ := trivial
  plans := ((Submission.reads_plan _ _).passive.keeps_all fun hc => h hc.isLoading).mono fun _ _ _ _ _ => trivial
  submits _ := h trivial

theorem Submission.keeps_submitAndWatch {σ : Type} {env : Surroundings Cloud σ} {ctx : Context} {job : Job} {s : σ}
    (hpassive : ∀ {α : Type} {x : Invocation α} {s}, x.Only CloudCall.IsPassive → x.Keeps env (fun _ _ => True) s)
    (hsubmit : (Invocation.submit job).Keeps env (fun _ _ => True) s) :
    (submitAndWatch ctx job).Keeps env (fun _ _ => True) s := by
  refine hsubmit.bind fun _ s _ => ?_
  refine (hpassive (passive_count _)).bind fun _ s _ => ?_
  refine (hpassive (JobWatch.waiting_wait ..).passive).bind fun seen s _ => ?_
  split
  · exact hpassive (JobWatch.waiting_check ..).passive
  all_goals exact keeps_pure trivial

/-! ## Waiting for a job and submitting one -/

/-- **What a subscriber relies on while it waits for a job or submits one**, in some surroundings.  The assertions are
about what the handle on the lock has seen last. -/
structure TurnOutline {σ : Type} (env : Surroundings Cloud σ) (ctx : Context) (tablePrefix : String) where
  /-- The lock says this. -/
  Seen : Option LockBody → Option String → σ → Prop
  /-- The lock names a job, of which the warehouse has said this. -/
  Told : String → JobStatus → Option String → σ → Prop
  /-- The lock names a job that has ended. -/
  Over : String → Option String → σ → Prop
  /-- Nothing is in the way of the first pointer, which is this. -/
  Next : Option String → Option String → σ → Prop
  /-- The turn is at a part of the marker of a pointer, under a name. -/
  Turn : String → String → Nat → Option String → σ → Prop
  /-- The same, and this is what is to be done for the marker. -/
  Planned : String → String → Nat → Plan → Option String → σ → Prop
  /-- The lock was taken for a job. -/
  Claimed : Job → σ → Prop
  /-- What was seen may be overwritten by a failure. -/
  Mild : Option String → σ → Prop
  passive : ∀ {α : Type} {x : Invocation α} {s}, x.Only CloudCall.IsPassive → x.Keeps env (fun _ _ => True) s
  records : ∀ (failure : Failure) version s, Mild version s → env.admits (.put (TableLock.keyOf tablePrefix) (Utf8.encode
    ((TableLock.ofTable tablePrefix ctx.settings.jobPrefix).errorText failure.message)) (.unchanged version)) s
  lasts : ∀ {c s reply s' version}, env.admits c s → env.answers c s reply s' → Mild version s → Mild version s'
  mildSeen : ∀ {id version s}, Seen (some (.job id)) version s → Mild version s
  mildTurn : ∀ {q base part version s}, Turn q base part version s → Mild version s
  waits : ∀ {α : Type} {x : Invocation α} {body version s}, Seen body version s → x.Only CloudCall.IsWaiting →
    x.Keeps env (fun _ => Seen body version) s
  asks : ∀ {id version s}, Seen (some (.job id)) version s → (Invocation.job id).Keeps env (fun status s =>
    Seen (some (.job id)) version s ∧ ∀ known, status = some known → known.isDone = true → Told id known version s) s
  checks : ∀ {id status version s}, Told id status version s →
    (JobWatch.check ctx.settings.failOnZeroRows status).Keeps env (fun _ => Over id version) s
  finds : ∀ {q key version s}, Next (some q) version s → (Invocation.head key).Keeps env
    (fun _ => Next (some q) version) s
  draws : ∀ {q version s}, Next (some q) version s → (Invocation.ask .freshId).Keeps env
    (fun suffix => Turn q (JobId.make ctx.settings.jobPrefix (Backlog.markerFor q) suffix) 0 version) s
  findsAgain : ∀ {q key base part version s}, Turn q base part version s → (Invocation.head key).Keeps env
    (fun _ => Turn q base part version) s
  plans : ∀ {q base part version s}, Turn q base part version s → (Submission.plan ctx (Backlog.markerFor q)).Keeps env
    (fun plan => Planned q base part plan version) s
  claims : ∀ {q base part plan content version s}, Planned q base part plan version s → plan.job? part = some content →
    (Leased.claimLock (plan.nameOf base part)).Keeps env (.ofTable tablePrefix ctx.settings.jobPrefix)
      (fun locked version s => locked = true ∧ Claimed { content with id := plan.nameOf base part } s ∧ Mild version s)
      version s Mild
  submits : ∀ {job s}, Claimed job s → (Invocation.submit job).Keeps env (fun _ _ => True) s

namespace TurnOutline

variable {σ : Type} {env : Surroundings Cloud σ} {ctx : Context} {tablePrefix : String}
  (o : TurnOutline env ctx tablePrefix) {version : Option String} {s : σ}

include o

theorem keeps_recording {α : Type} {x : Leased α} {good : α → Option String → σ → Prop}
    (h : x.Keeps env (.ofTable tablePrefix ctx.settings.jobPrefix) good version s o.Mild) :
    (Leased.recording x).Keeps env (.ofTable tablePrefix ctx.settings.jobPrefix) good version s :=
  Leased.keeps_recording o.records h

theorem keeps_lift_mild {α : Type} {x : Invocation α} {fact : α → σ → Prop} (hs : o.Mild version s)
    (h : x.Keeps env fact s) : (Leased.lift x).Keeps env (.ofTable tablePrefix ctx.settings.jobPrefix)
      (fun a v s => v = version ∧ fact a s) version s o.Mild :=
  Leased.keeps_lift_lasting o.lasts hs h

theorem keeps_waitUntil {id : String} (deadline interval : Duration) : ∀ (rounds : Nat) (s : σ),
    o.Seen (some (.job id)) version s → (JobWatch.waitUntil id deadline interval rounds).Keeps env
      (fun seen s => ∀ status, seen = .done status → o.Told id status version s) s
  | 0, _, _ => keeps_halt _
  | rounds + 1, s, hs => by
    refine (o.asks hs).bind fun status s h => ?_
    split
    · exact keeps_pure nofun
    · rename_i known
      split
      · rename_i hdone
        refine keeps_pure fun status e => ?_
        cases e
        exact h.2 known rfl hdone
      · refine (o.waits h.1 (waiting_after interval)).bind fun time s hs => ?_
        split
        · exact keeps_pure nofun
        · exact (o.waits hs (waiting_sleep _)).bind fun _ s hs => keeps_waitUntil deadline interval rounds s hs

theorem keeps_awaitJob {id : String} (hs : o.Seen (some (.job id)) version s) :
    (Subscriber.awaitJob ctx id).Keeps env (.ofTable tablePrefix ctx.settings.jobPrefix)
      (fun ended version s => ended = true → o.Over id version s) version s := by
  have hwait : (JobWatch.wait ctx.patience id ctx.settings.jobWait ctx.settings.jobPoll).Keeps env
      (fun seen s => ∀ status, seen = .done status → o.Told id status version s) s :=
    (o.waits hs (waiting_after _)).bind fun _ s hs => o.keeps_waitUntil _ _ _ s hs
  have hmild := Invocation.Keeps.carry o.lasts hwait (o.mildSeen hs)
  refine Leased.Keeps.bind (Leased.keeps_lift_same hmild) fun seen v s h => ?_
  obtain ⟨rfl, htold, hmild⟩ := h
  split
  · exact Leased.keeps_pure nofun
  · have hmissing : (JobWatch.missing id).Keeps env (fun _ _ => False) s :=
      (o.passive (passive_count _)).bind fun _ _ _ => keeps_throw _
    exact Leased.Keeps.bind (o.keeps_recording (o.keeps_lift_mild hmild hmissing)) fun _ _ _ h => h.2.elim
  · rename_i status
    have hcheck := o.checks (htold status rfl)
    refine Leased.Keeps.bind (o.keeps_recording (o.keeps_lift_mild hmild hcheck)) fun _ v' s h => ?_
    obtain ⟨rfl, hover⟩ := h
    exact Leased.keeps_pure fun _ => hover

theorem keeps_submitAndWatch {job : Job} (hs : o.Claimed job s) :
    (Submission.submitAndWatch ctx job).Keeps env (fun _ _ => True) s :=
  Submission.keeps_submitAndWatch o.passive (o.submits hs)

/-- With a handle on the lock, one job of a plan is submitted. -/
theorem keeps_carryOut {q base : String} {part : Nat} {plan : Plan} (hs : o.Planned q base part plan version s)
    (hmild : o.Mild version s) :
    (Submission.carryOut ctx base part plan).Keeps env (.ofTable tablePrefix ctx.settings.jobPrefix)
      (fun _ _ _ => True) version s o.Mild := by
  cases plan with
  | query job =>
    have hclaim := o.claims hs (show (Plan.query job).job? part = some job from rfl)
    simp only [Plan.nameOf] at hclaim
    refine Leased.Keeps.bind hclaim fun _ v s h => ?_
    obtain ⟨-, hclaimed, hmild⟩ := h
    exact Leased.Keeps.bind (o.keeps_lift_mild hmild (o.keeps_submitAndWatch hclaimed)) fun _ _ _ _ =>
      Leased.keeps_pure trivial
  | loads jobs =>
    simp only [Submission.carryOut]
    split
    · exact Leased.Keeps.bind (Leased.keeps_throw _ hmild) fun _ _ _ (h : False) => h.elim
    · rename_i hlt
      have hpart : part < jobs.length := Nat.lt_of_not_le hlt
      have hclaim := o.claims hs (show (Plan.loads jobs).job? part = some jobs[part] from List.getElem?_eq_getElem hpart)
      simp only [Plan.nameOf] at hclaim
      rw [List.drop_eq_getElem_cons hpart]
      have hload : (Submission.loadJobs ctx base jobs.length part base (jobs[part] :: jobs.drop (part + 1))).Keeps env
          (.ofTable tablePrefix ctx.settings.jobPrefix) (fun _ _ _ => True) version s o.Mild := by
        refine Leased.Keeps.bind hclaim fun locked v s h => ?_
        obtain ⟨rfl, hclaimed, hmild⟩ := h
        exact Leased.Keeps.bind (o.keeps_lift_mild hmild (o.keeps_submitAndWatch hclaimed)) fun _ _ _ _ =>
          Leased.keeps_pure trivial
      exact Leased.Keeps.bind hload fun _ _ _ _ => Leased.keeps_pure trivial

theorem keeps_apply {q base : String} {part : Nat} (hs : o.Turn q base part version s) :
    (Submission.apply ctx (Backlog.markerFor q) base part).Keeps env (.ofTable tablePrefix ctx.settings.jobPrefix)
      (fun _ _ _ => True) version s := by
  refine o.keeps_recording ?_
  rw [Submission.submitJobs_eq]
  have hplans := Invocation.Keeps.carry o.lasts (o.plans hs) (o.mildTurn hs)
  refine Leased.Keeps.bind (o.keeps_lift_mild (o.mildTurn hs) hplans) fun plan v s h => ?_
  obtain ⟨rfl, hplanned, hmild⟩ := h
  exact o.keeps_carryOut hplanned hmild

omit o in
theorem keeps_markerOf {q : String} {fact : σ → Prop}
    (h : (Invocation.head (Backlog.markerFor q)).Keeps env (fun _ => fact) s) :
    (Subscriber.markerOf q).Keeps env (fun marker s => marker = Backlog.markerFor q ∧ fact s) s := by
  refine h.bind fun found s hs => ?_
  split
  · exact keeps_pure ⟨rfl, hs⟩
  · exact keeps_throw _

theorem keeps_submitNext {q : String} (hs : o.Next (some q) version s) :
    (Subscriber.submitNext ctx q).Keeps env (.ofTable tablePrefix ctx.settings.jobPrefix) (fun _ _ _ => True) version s := by
  refine Leased.Keeps.bind (Leased.keeps_lift_same (keeps_markerOf (o.finds hs))) fun marker v s h => ?_
  obtain ⟨rfl, rfl, hnext⟩ := h
  refine Leased.Keeps.bind (Leased.keeps_lift_same (o.draws hnext)) fun suffix v s h => ?_
  obtain ⟨rfl, hturn⟩ := h
  exact Leased.Keeps.bind (o.keeps_apply hturn) fun _ _ _ _ => Leased.keeps_pure trivial

theorem keeps_submitPart {q base : String} {part : Nat} (hs : o.Turn q base part version s) :
    (Subscriber.submitPart ctx q base part).Keeps env (.ofTable tablePrefix ctx.settings.jobPrefix)
      (fun _ _ _ => True) version s := by
  refine Leased.Keeps.bind (Leased.keeps_lift_same (keeps_markerOf (o.findsAgain hs))) fun marker v s h => ?_
  obtain ⟨rfl, rfl, hturn⟩ := h
  exact Leased.Keeps.bind (o.keeps_apply hturn) fun _ _ _ _ => Leased.keeps_pure trivial

omit o

/-- Whatever it is answered, a subscriber that waits for a job or submits one makes calls that change nothing, draws ids,
submits jobs that may be submitted and writes the lock. -/
def loose (source : Sourcing env ctx) (tablePrefix : String)
    (hlock : ∀ {body version s}, env.admits (.put (TableLock.keyOf tablePrefix) body (.unchanged version)) s) :
    TurnOutline env ctx tablePrefix where
  Seen _ _ _ := True
  Told _ _ _ _ := True
  Over _ _ _ := True
  Next _ _ _ := True
  Turn _ _ _ _ _ := True
  Planned _ _ _ plan _ s := ∀ job ∈ plan.jobs, source.May job s
  Claimed := source.May
  Mild _ _ := True
  passive hx := hx.keeps_all source.passive
  records _ _ _ _ := hlock
  lasts _ _ _ := trivial
  mildSeen _ := trivial
  mildTurn _ := trivial
  waits _ hx := hx.passive.keeps_all source.passive
  asks _ := ((waiting_job _).passive.keeps_all source.passive).mono fun _ _ _ => ⟨trivial, fun _ _ _ => trivial⟩
  checks _ := (JobWatch.waiting_check _ _).passive.keeps_all source.passive
  finds _ := (reads_head _).passive.keeps_all source.passive
  draws _ := keeps_ask source.draws fun _ _ _ => trivial
  findsAgain _ := (reads_head _).passive.keeps_all source.passive
  plans _ := source.plans
  claims hplanned hjob := Leased.keeps_claimLock hlock (fun _ _ hr =>
    ⟨rfl, source.named _ (source.lasts hlock hr (hplanned _ (Plan.mem_jobs_of_job? hjob))), trivial⟩) fun _ _ _ => trivial
  submits h := keeps_warehouse ⟨source.submits h, fun _ _ _ _ _ => trivial⟩

end TurnOutline

/-- **What a subscriber relies on** in the whole of its run. -/
structure Outline {σ : Type} (env : Surroundings Cloud σ) (ctx : Context) (tablePrefix : String) extends
    TurnOutline env ctx tablePrefix where
  /-- The lock names a job that has ended, and the first pointer is this. -/
  First : String → Option String → Option String → σ → Prop
  /-- Nothing is in the way of the first pointer, whichever it is. -/
  Open : Option String → σ → Prop
  /-- This is true until the backfill marker is claimed. -/
  Start : σ → Prop
  posts : ∀ {α : Type} {x : Invocation α} {s}, x.Only (CloudCall.IsPosting tablePrefix) → x.Keeps env (fun _ _ => True) s
  passive := fun hx => posts hx.posting
  starts : ∀ {α : Type} {x : Invocation α} {s}, x.Only CloudCall.IsPassive → Start s → x.Keeps env (fun _ => Start) s
  /-- The backfill marker that is seen may be claimed. -/
  trigger : ∀ {s}, Start s → (Invocation.head (BackfillMarker.keyOf tablePrefix)).Keeps env
    (fun found s => ∀ object, found = some object → (Claim.takeObject object).Keeps env (fun _ _ => True) s) s
  readLock : ∀ {version s}, Leased.readLock.Keeps env (.ofTable tablePrefix ctx.settings.jobPrefix) Seen version s
  looks : ∀ {id version s}, Over id version s → (Backlog.next tablePrefix).Keeps env (fun q => First id q version) s
  vacant : ∀ {version s}, Seen none version s → Open version s
  empty : ∀ {id version s}, First id none version s → Next none version s
  other : ∀ {id q version s}, First id (some q) version s →
    JobId.isFor id ctx.settings.jobPrefix (Backlog.markerFor q) = false → Next (some q) version s
  resumes : ∀ {id q base index version s}, First id (some q) version s →
    JobId.isFor id ctx.settings.jobPrefix (Backlog.markerFor q) = true → JobId.splitPart id = (base, some index) →
    JobId.nextIndex index < Nat.pow 2 64 → Turn q base (JobId.nextIndex index) version s
  pops : ∀ {id q version s}, First id (some q) version s →
    JobId.isFor id ctx.settings.jobPrefix (Backlog.markerFor q) = true → (JobId.splitPart id).2 = none →
    (Backlog.pop tablePrefix).Keeps env (fun _ => Open version) s
  counts : ∀ {metric version s}, Open version s → (Invocation.count metric).Keeps env (fun _ => Open version) s
  times : ∀ {version s}, Open version s → Invocation.now.Keeps env (fun _ => Open version) s
  next : ∀ {version s}, Open version s → (Backlog.next tablePrefix).Keeps env (fun q => Next q version) s
  releases : ∀ {version s}, Next none version s → Leased.releaseLock.Keeps env
    (.ofTable tablePrefix ctx.settings.jobPrefix) (fun _ _ _ => True) version s

namespace Outline

variable {σ : Type} {env : Surroundings Cloud σ} {ctx : Context} {tablePrefix : String}
  (o : Outline env ctx tablePrefix) {version : Option String} {s : σ}

include o

theorem keeps_drain (marker : String) (deadline lastPop : Duration) (hs : o.Next none version s) :
    (Subscriber.drain ctx ⟨tablePrefix, .ofTable tablePrefix ctx.layout.gateName, marker, deadline⟩ lastPop).Keeps env
      (.ofTable tablePrefix ctx.settings.jobPrefix) (fun _ _ _ => True) version s := by
  refine Leased.Keeps.bind (o.releases hs) fun _ v s _ => ?_
  refine Leased.Keeps.bind (Leased.keeps_lift_same (o.posts (BackfillMarker.posting_delete _ _))) fun result v s _ => ?_
  split
  · exact Leased.keeps_pure trivial
  · refine Leased.Keeps.bind (Leased.keeps_lift_same (o.passive passive_now)) fun time v s _ => ?_
    split
    · exact Leased.keeps_pure trivial
    · refine Leased.Keeps.bind (Leased.keeps_lift_same (o.passive (Backlog.reads_next _).passive))
        fun next v s _ => ?_
      split
      · exact Leased.keeps_pure trivial
      · refine Leased.Keeps.bind (Leased.keeps_lift_same (o.posts (BackfillMarker.posting_post _))) fun outcome v s _ => ?_
        split <;> exact Leased.keeps_pure trivial

theorem keeps_advance (marker : String) (deadline lastPop : Duration) : ∀ {next : Option String},
    o.Next next version s →
      (Subscriber.advance ctx ⟨tablePrefix, .ofTable tablePrefix ctx.layout.gateName, marker, deadline⟩ lastPop
        next).Keeps env (.ofTable tablePrefix ctx.settings.jobPrefix) (fun _ _ _ => True) version s
  | none, hs => Leased.Keeps.bind (o.keeps_drain marker deadline lastPop hs) fun _ _ _ _ => Leased.keeps_pure trivial
  | some _, hs => Leased.Keeps.bind (o.keeps_submitNext hs) fun _ _ _ _ => Leased.keeps_pure trivial

/-- Going on with the first pointer, whichever it is. -/
theorem keeps_next_advance (marker : String) (deadline lastPop : Duration) (hs : o.Open version s) :
    (do Subscriber.advance ctx ⟨tablePrefix, .ofTable tablePrefix ctx.layout.gateName, marker, deadline⟩ lastPop
          (← (Backlog.next tablePrefix : Leased (Option String))) : Leased Subscriber.Turn).Keeps env
      (.ofTable tablePrefix ctx.settings.jobPrefix) (fun _ _ _ => True) version s := by
  refine Leased.Keeps.bind (Leased.keeps_lift_same (o.next hs)) fun next v s h => ?_
  obtain ⟨rfl, hnext⟩ := h
  exact o.keeps_advance marker deadline lastPop hnext

theorem keeps_finish (marker : String) (deadline lastPop : Duration) {id : String} (hs : o.Over id version s) :
    (Subscriber.finish ctx ⟨tablePrefix, .ofTable tablePrefix ctx.layout.gateName, marker, deadline⟩ lastPop id).Keeps env
      (.ofTable tablePrefix ctx.settings.jobPrefix) (fun _ _ _ => True) version s := by
  refine Leased.Keeps.bind (Leased.keeps_lift_same (o.looks hs)) fun first v s h => ?_
  obtain ⟨rfl, hfirst⟩ := h
  split
  · exact o.keeps_advance marker deadline lastPop (o.empty hfirst)
  · rename_i q
    split
    · rename_i hfor
      split
      · rename_i base index hsplit
        have hpart : (fitted (Nat.pow 2 64) (JobId.nextIndex index)).Keeps env (fun part => o.Turn q base part v) s :=
          keeps_fitted (o.resumes hfirst hfor hsplit)
        refine Leased.Keeps.bind (Leased.keeps_lift_same hpart) fun part v s h => ?_
        obtain ⟨rfl, hturn⟩ := h
        exact Leased.Keeps.bind (o.keeps_submitPart hturn) fun _ _ _ _ => Leased.keeps_pure trivial
      · rename_i hsplit
        have hpop := o.pops hfirst hfor (by rw [hsplit])
        refine Leased.Keeps.bind (Leased.keeps_lift_same hpop) fun _ v s h => ?_
        obtain ⟨rfl, hopen⟩ := h
        refine Leased.Keeps.bind (Leased.keeps_lift_same (o.counts hopen)) fun _ v s h => ?_
        obtain ⟨rfl, hopen⟩ := h
        refine Leased.Keeps.bind (Leased.keeps_lift_same (o.times hopen)) fun lastPop v s h => ?_
        obtain ⟨rfl, hopen⟩ := h
        exact o.keeps_next_advance marker deadline lastPop hopen
    · rename_i hfor
      exact o.keeps_advance marker deadline lastPop (o.other hfirst (Bool.eq_false_iff.2 hfor))

theorem keeps_turn (marker : String) (deadline lastPop : Duration) :
    (Subscriber.turn ctx ⟨tablePrefix, .ofTable tablePrefix ctx.layout.gateName, marker, deadline⟩ lastPop).Keeps env
      (.ofTable tablePrefix ctx.settings.jobPrefix) (fun _ _ _ => True) version s := by
  refine Leased.Keeps.bind o.readLock fun body v s hseen => ?_
  split
  · exact Leased.Keeps.bind (Leased.keeps_lift_same (o.passive (passive_sleep _))) fun _ _ _ _ =>
      Leased.keeps_pure trivial
  · refine Leased.Keeps.bind (o.keeps_awaitJob hseen) fun ended v s hover => ?_
    split
    · rename_i hended
      exact o.keeps_finish marker deadline lastPop (hover hended)
    · exact Leased.keeps_pure trivial
  · exact o.keeps_next_advance marker deadline lastPop (o.vacant hseen)

theorem keeps_turns (marker : String) (deadline : Duration) : ∀ (rounds : Nat) (lastPop : Duration)
    (version : Option String) (s : σ),
      (Subscriber.turns ctx ⟨tablePrefix, .ofTable tablePrefix ctx.layout.gateName, marker, deadline⟩ rounds
        lastPop).Keeps env (.ofTable tablePrefix ctx.settings.jobPrefix) (fun _ _ _ => True) version s
  | 0, _, _, _ => Leased.keeps_lift (keeps_halt _)
  | rounds + 1, lastPop, version, s => by
    refine Leased.Keeps.bind (Leased.keeps_lift_same (o.passive passive_now)) fun time v s _ => ?_
    split
    · refine Leased.Keeps.bind (o.keeps_turn marker deadline lastPop) fun led v s _ => ?_
      split
      · exact keeps_turns marker deadline rounds _ v s
      · exact Leased.keeps_pure trivial
    · exact Leased.keeps_lift (o.posts (Subscriber.posting_handOver ..))

/-- **A subscriber with an outline keeps to its surroundings.** -/
theorem keeps_run {s : σ} (hs : o.Start s) : (Subscriber.run ctx tablePrefix).Keeps env (fun _ _ => True) s := by
  have hwork : (Subscriber.work ctx tablePrefix).Keeps env (.ofTable tablePrefix ctx.settings.jobPrefix)
      (fun _ _ _ => True) none s := by
    refine Leased.Keeps.bind (Leased.keeps_lift_same (o.starts (only_ofExcept _) hs)) fun budget v s h => ?_
    refine Leased.Keeps.bind (Leased.keeps_lift_same (o.starts (passive_after budget) h.2)) fun deadline v s h => ?_
    refine Leased.Keeps.bind (Leased.keeps_lift_same (o.trigger h.2)) fun trigger v s h => ?_
    split
    · exact Leased.keeps_pure trivial
    · rename_i object
      refine Leased.Keeps.bind (Leased.keeps_lift_same (h.2 object rfl)) fun _ v s _ => ?_
      refine Leased.Keeps.bind (Leased.keeps_lift_same (o.passive passive_now)) fun lastPop v s _ => ?_
      exact o.keeps_turns _ _ _ lastPop v s
  refine Invocation.Keeps.bind hwork.life fun outcome s _ => ?_
  exact (o.passive (passive_count _)).bind fun _ _ _ => keeps_pure trivial

end Outline
end Intake
