import Intake.Proofs.Course
import Intake.Proofs.Files
import Intake.Proofs.Scene
/-!
# Margin — whether a subscriber gets to work

Settings are good if the time of a subscriber is longer than one wait for a job.  But a turn is taken only if there is
time for a wait and for a margin.  Between the two lie settings with which a subscriber claims its backfill marker, posts
it anew and ends, without a look at the lock or the backlog, and so does every one after it
(`Subscriber.tries_or_hands_over`).
-/
namespace Intake

namespace World

variable {ids : Nat → String} {w w' : World}

/-- The backfill marker of a table is there, and nobody has claimed it. -/
structure Posted (w : World) (tablePrefix : String) (trigger : ObjectInfo) : Prop where
  served : w.bucket.failing = []
  posted : w.bucket.store.head? (BackfillMarker.keyOf tablePrefix) = some trigger
  unclaimed : w.bucket.store.get? (Claim.key trigger.key trigger.created) = none

/-- The claim of a backfill marker has been taken, and that is all. -/
structure Claimed (w : World) (trigger : ObjectInfo) (w' : World) : Prop where
  served : w'.bucket.failing = []
  store : w'.bucket.store = w.bucket.store.write (Claim.key trigger.key trigger.created) [] w.instant
  elapsed : w'.elapsed = w.elapsed
  warehouse : w'.warehouse = w.warehouse
  idsDrawn : w'.idsDrawn = w.idsDrawn

variable {tablePrefix pointer : String} {trigger : ObjectInfo}

theorem Posted.key_trigger (h : w.Posted tablePrefix trigger) : trigger.key = BackfillMarker.keyOf tablePrefix := by
  obtain ⟨object, -, rfl⟩ := Option.map_eq_some_iff.1 h.posted
  rfl

theorem Posted.answerFrom_claim (ids : Nat → String) (h : w.Posted tablePrefix trigger) : ∃ version w',
    answerFrom ids (.put (Claim.key trigger.key trigger.created) [] .absent) w = (.ok (.written version), w') ∧
      w.Claimed trigger w' := by
  obtain ⟨w', hanswer, hstore, hserved, helapsed, hwarehouse, hdrawn⟩ :=
    answerFrom_put h.served ids (Claim.key trigger.key trigger.created) [] .absent
  have hput : w.bucket.store.put (Claim.key trigger.key trigger.created) [] .absent w.instant =
      (.written (decimal w.bucket.store.nextGeneration),
        w.bucket.store.write (Claim.key trigger.key trigger.created) [] w.instant) := by
    rw [Store.put, h.unclaimed]
    rfl
  rw [hput] at hanswer hstore
  exact ⟨_, w', hanswer, hserved, hstore, helapsed, hwarehouse, hdrawn⟩

theorem exists_posted (hserved : w.bucket.failing = [])
    (h : (w.bucket.store.head? (BackfillMarker.keyOf tablePrefix)).any (fun trigger =>
      (w.bucket.store.get? (Claim.key trigger.key trigger.created)).isNone) = true) :
    ∃ trigger, w.Posted tablePrefix trigger := by
  cases hposted : w.bucket.store.head? (BackfillMarker.keyOf tablePrefix) with
  | none =>
    rw [hposted] at h
    cases h
  | some trigger =>
    rw [hposted] at h
    exact ⟨trigger, hserved, hposted, Option.isNone_iff_eq_none.1 h⟩

/-- There is no lock, and the backlog of a table begins with a pointer. -/
structure Opens (w : World) (tablePrefix pointer : String) : Prop where
  served : w.bucket.failing = []
  unlocked : w.bucket.store.get? (TableLock.keyOf tablePrefix) = none
  filled : (w.bucket.store.list (Backlog.folder tablePrefix) none).objects.head?.map (·.key) = some pointer

theorem Opens.unmoved (h : w.Opens tablePrefix pointer) (hunmoved : w.Unmoved w') : w'.Opens tablePrefix pointer :=
  ⟨hunmoved.served, hunmoved.store ▸ h.unlocked, hunmoved.store ▸ h.filled⟩

/-- **A table waits for its subscriber**: besides, its backfill marker is there and nobody has claimed it. -/
structure Unserved (w : World) (tablePrefix : String) (trigger : ObjectInfo) (pointer : String) : Prop
    extends w.Opens tablePrefix pointer where
  posted : w.bucket.store.head? (BackfillMarker.keyOf tablePrefix) = some trigger
  unclaimed : w.bucket.store.get? (Claim.key trigger.key trigger.created) = none

theorem Unserved.toPosted (h : w.Unserved tablePrefix trigger pointer) : w.Posted tablePrefix trigger :=
  ⟨h.served, h.posted, h.unclaimed⟩

/-- The claim stands beside the lock and the backlog. -/
theorem Unserved.opens_of_claimed (h : w.Unserved tablePrefix trigger pointer) (hclaimed : w.Claimed trigger w') :
    w'.Opens tablePrefix pointer := by
  refine ⟨hclaimed.served, ?_, ?_⟩
  · rw [hclaimed.store, Store.get?_write_of_ne _ _ _ (Claim.key_ne_lock _ _ _).symm]
    exact h.unlocked
  · rw [hclaimed.store, Store.list_objects_write, h.filled]
    rw [h.toPosted.key_trigger]
    exact Store.hides_of_startsWith (Backlog.claim_notMem_folder tablePrefix trigger.created)

end World

/-- Good settings have a key pattern that can be read. -/
theorem Settings.exists_pattern {settings : Settings} (h : settings.validate.isOk = true) :
    ∃ pattern, settings.validate = .ok pattern := by
  cases hvalid : settings.validate with
  | error e =>
    rw [hvalid] at h
    cases h
  | ok pattern => exact ⟨pattern, rfl⟩

theorem Settings.subscriberBudget_of_validate {settings : Settings} {pattern : KeyPattern}
    (h : settings.validate = .ok pattern) :
    settings.subscriberBudget = .ok (settings.timeout - settings.restartBuffer) := by
  cases hbudget : settings.subscriberBudget with
  | error e =>
    unfold validate at h
    rw [hbudget] at h
    cases hread : KeyPattern.read settings.keyPattern with
    | error e =>
      rw [hread] at h
      cases h
    | ok keys =>
      rw [hread] at h
      simp only [bind, Except.bind, throw, throwThe, MonadExceptOf.throw] at h
      split_ifs at h
  | ok budget =>
    unfold subscriberBudget at hbudget
    simp only at hbudget
    split at hbudget
    · cases hbudget
    · exact hbudget.symm

namespace TableLock

variable {w : World}

/-- A lock that is not there, and was not when it was looked at, can be written. -/
theorem leads_write (ids : Nat → String) (lock : TableLock) (text : String) (hserved : w.bucket.failing = [])
    (habsent : w.bucket.store.get? lock.key = none) : ∃ w' version, w.Leads ids ((lock.seen none).write text)
      [.put lock.key (Utf8.encode text) (.unchanged none)] w' (.done (.ok (), lock.seen (some version))) ∧
      w'.bucket.failing = [] := by
  obtain ⟨w', hanswer, -, hserved', -⟩ :=
    World.answerFrom_put hserved ids lock.key (Utf8.encode text) (.unchanged none)
  have hput : (w.bucket.store.put lock.key (Utf8.encode text) (.unchanged none) w.instant).1 =
      .written (decimal w.bucket.store.nextGeneration) := by
    rw [Store.put, habsent]
    rfl
  rw [hput] at hanswer
  exact ⟨w', _, .call hanswer, hserved'⟩

end TableLock

namespace Submission

open World

variable {ctx : Context} {w : World} {lock : TableLock}

theorem exists_leads_submit (ids : Nat → String) (ctx : Context) (job : Job) (held : Option TableLock) (w : World) :
    ∃ w' p, w.Leads ids ((Leased.lift (submitAndWatch ctx job)).run.run held) [.submit job] w' p :=
  ⟨_, _, .call (c := .submit job) rfl⟩

/-- The lock is taken for a job, and the job is submitted. -/
theorem exists_leads_claimLock {α : Type} (ids : Nat → String) (ctx : Context) (job : Job) (hserved : w.bucket.failing = [])
    (habsent : w.bucket.store.get? lock.key = none) (next : Bool → Unit → Leased α) : ∃ w' p,
    w.Leads ids ((do
      let locked ← Leased.claimLock job.id
      let done ← (submitAndWatch ctx job : Leased Unit)
      next locked done : Leased α).run.run (some (lock.seen none)))
      [.put lock.key (Utf8.encode job.id) (.unchanged none), .submit job] w' p := by
  obtain ⟨w₁, version, hwrite, -⟩ := lock.leads_write ids job.id hserved habsent
  have hclaim : w.Leads ids ((Leased.claimLock job.id).run.run (some (lock.seen none)))
      [.put lock.key (Utf8.encode job.id) (.unchanged none)] w₁ (.done (.ok true, some (lock.seen (some version)))) :=
    (hwrite.bind _).bind _
  obtain ⟨w', p, hsubmit⟩ := exists_leads_submit ids ctx job (some (lock.seen (some version))) w₁
  obtain ⟨p', hrest⟩ := Leased.leads_bind_left (f := next true) hsubmit
  exact ⟨w', p', Leased.leads_bind hclaim hrest⟩

/-- **Of a plan its first job is submitted**, and the lock is taken for it. -/
theorem exists_leads_carryOut (ids : Nat → String) (ctx : Context) (jobId : String) {plan : Plan} {job : Job}
    (hjob : plan.job? 0 = some job) (hserved : w.bucket.failing = [])
    (habsent : w.bucket.store.get? lock.key = none) : ∃ w' p,
    w.Leads ids ((carryOut ctx jobId 0 plan).run.run (some (lock.seen none)))
      [.put lock.key (Utf8.encode (plan.nameOf jobId 0)) (.unchanged none),
        .submit { job with id := plan.nameOf jobId 0 }] w' p := by
  cases plan with
  | query query =>
    obtain rfl := Option.some.inj hjob
    exact exists_leads_claimLock ids ctx { query with id := jobId } hserved habsent fun _ _ => pure _
  | loads jobs =>
    cases jobs with
    | nil => cases hjob
    | cons first rest =>
      obtain rfl := Option.some.inj hjob
      simp only [carryOut, List.length_cons, Nat.le_zero_eq, Nat.add_one_ne_zero, if_false, List.drop_zero, loadJobs]
      obtain ⟨w', p, hfirst⟩ := exists_leads_claimLock ids ctx
        { first with id := JobId.ofPart jobId 0 (rest.length + 1) } hserved habsent
        fun locked _ => if locked then pure (JobId.ofPart jobId 0 (rest.length + 1))
          else loadJobs ctx jobId (rest.length + 1) (0 + 1) (JobId.ofPart jobId 0 (rest.length + 1)) rest
      obtain ⟨p', hall⟩ := Leased.leads_bind_left (f := fun lastId => (pure ⟨lastId, .load, rest.length + 1⟩ : Leased Applied))
        hfirst
      exact ⟨w', p', hall⟩

/-- **What comes of submitting a marker for which there is a plan.** -/
theorem exists_leads_apply (ids : Nat → String) (lock : TableLock) (jobId : String) {marker : String} {plan : Plan}
    (hplan : w.bucket.store.gives (Submission.plan ctx marker) = some plan) (hserved : w.bucket.failing = [])
    (habsent : w.bucket.store.get? lock.key = none) : ∃ reads job w' p, (∀ c ∈ reads, c.IsReading) ∧
      plan.job? 0 = some job ∧ w.Leads ids ((apply ctx marker jobId 0).run.run (some (lock.seen none)))
        (reads ++ [.put lock.key (Utf8.encode (plan.nameOf jobId 0)) (.unchanged none),
          .submit { job with id := plan.nameOf jobId 0 }]) w' p := by
  obtain ⟨job, hjob⟩ := Store.exists_first_job hplan
  obtain ⟨reads, r, w₁, hreads, hread, hgives, hunmoved⟩ := (reads_plan ctx marker).leads ids hserved
  obtain rfl := (hgives plan).2 hplan
  obtain ⟨w', p, hcarried⟩ := exists_leads_carryOut ids ctx jobId hjob hunmoved.served (hunmoved.store ▸ habsent)
  rw [apply, submitJobs_eq, Leased.run_recording]
  exact ⟨reads, job, w', _, hreads, hjob, (Leased.leads_bind (Leased.leads_lift hread) hcarried).bind _⟩

/-- **What comes of submitting a marker for which there is none**: the reason is left in the lock. -/
theorem exists_leads_apply_of_none (ids : Nat → String) (lock : TableLock) (jobId : String) {marker : String}
    (hplan : w.bucket.store.gives (Submission.plan ctx marker) = none) (hserved : w.bucket.failing = [])
    (habsent : w.bucket.store.get? lock.key = none) : ∃ reads failure w' held, (∀ c ∈ reads, c.IsReading) ∧
      w.Leads ids ((apply ctx marker jobId 0).run.run (some (lock.seen none)))
        (reads ++ [.put lock.key (Utf8.encode (lock.errorText failure.message)) (.unchanged none)]) w'
        (.done (.error failure, held)) := by
  obtain ⟨reads, r, w₁, hreads, hread, hgives, hunmoved⟩ := (reads_plan ctx marker).leads ids hserved
  cases r with
  | ok plan =>
    rw [(hgives plan).1 rfl] at hplan
    cases hplan
  | error failure =>
    obtain ⟨w', version, hwrite, -⟩ := lock.leads_write ids (lock.errorText failure.message) hunmoved.served
      (hunmoved.store ▸ habsent)
    rw [apply, submitJobs_eq, Leased.run_recording]
    have hfails : w.Leads ids ((Leased.lift (plan ctx marker) >>= carryOut ctx jobId 0).run.run (some (lock.seen none)))
        reads w₁ (.done (.error failure, some (lock.seen none))) := Leased.leads_bind_error (Leased.leads_lift hread)
    refine ⟨reads, failure, w', some (lock.seen (some version)), hreads, (hfails.bind _).trans ?_⟩
    simp only [Program.bind, Leased.run_bind, Leased.run_recordError, Program.bind_assoc]
    exact hwrite.bind _

end Submission

namespace Subscriber

open World Invocation

variable {ctx : Context} {tablePrefix pointer : String} {trigger : ObjectInfo} {w : World} {budget : Duration}

/-- **How a subscriber tries to submit the marker of a pointer** where there is no lock: which calls it makes, and what it
comes to. -/
inductive Tries (ctx : Context) (tablePrefix pointer suffix : String) (store : Store) :
    List CloudCall → CloudProgram (Except Failure SubscriberOutcome) → Prop
  /-- The marker is not there. -/
  | dangling (hmarker : store.head? (Backlog.markerFor pointer) = none) :
    Tries ctx tablePrefix pointer suffix store [.head (Backlog.markerFor pointer)]
      (.done (.error (.danglingPointer pointer (Backlog.markerFor pointer))))
  /-- There is no plan for it, and the reason is left in the lock. -/
  | unplanned {reads : List CloudCall} {failure : Failure} (hreads : ∀ c ∈ reads, c.IsReading)
    (hplan : store.gives (Submission.plan ctx (Backlog.markerFor pointer)) = none) :
    Tries ctx tablePrefix pointer suffix store
      (.head (Backlog.markerFor pointer) :: .freshId :: (reads ++ [.put (TableLock.keyOf tablePrefix)
        (Utf8.encode ((TableLock.ofTable tablePrefix ctx.settings.jobPrefix).errorText failure.message))
        (.unchanged none)]))
      (.done (.error failure))
  /-- The lock is taken for the first job of the plan, and the job is submitted. -/
  | submitted {reads : List CloudCall} {plan : Plan} {job : Job} {name : String} (hreads : ∀ c ∈ reads, c.IsReading)
    (hplan : store.gives (Submission.plan ctx (Backlog.markerFor pointer)) = some plan) (hjob : plan.job? 0 = some job)
    (hname : name = plan.nameOf (JobId.make ctx.settings.jobPrefix (Backlog.markerFor pointer) suffix) 0)
    (rest : CloudProgram (Except Failure SubscriberOutcome)) :
    Tries ctx tablePrefix pointer suffix store
      (.head (Backlog.markerFor pointer) :: .freshId :: (reads ++ [.put (TableLock.keyOf tablePrefix)
        (Utf8.encode name) (.unchanged none), .submit { job with id := name }]))
      rest

/-- What becomes of the work: its outcome is counted. -/
def reporting (r : Except Failure SubscriberOutcome × Option TableLock) : CloudProgram (Except Failure SubscriberOutcome) :=
  ExceptT.bindCont (fun outcome => do
    Invocation.count (.subscriberOutcomes outcome.name)
    return outcome : SubscriberOutcome → Invocation SubscriberOutcome) r.1

theorem run_eq (ctx : Context) (tablePrefix : String) : (run ctx tablePrefix).run =
    ((work ctx tablePrefix).run.run (some (.ofTable tablePrefix ctx.settings.jobPrefix))).bind reporting := by
  unfold run
  show Program.bind (Program.bind _ _) _ = _
  rw [Program.bind_assoc]
  rfl

/-- With no time on the clock for its deadline, a subscriber breaks down before it has done anything. -/
theorem leads_work_overflow (ids : Nat → String) (hbudget : ctx.settings.subscriberBudget = .ok budget)
    (hroom : clockLimit ≤ w.elapsed + budget) (held : Option TableLock) :
    w.Leads ids ((work ctx tablePrefix).run.run held) [.now] w (.halt .overflow) := by
  unfold work
  rw [hbudget]
  exact ((leads_after_overflow hroom).bind _).bind _

/-- A subscriber claims the backfill marker, and comes to its turns. -/
theorem leads_work (ids : Nat → String) (hbudget : ctx.settings.subscriberBudget = .ok budget)
    (hroom : w.elapsed + budget < clockLimit) (h : w.Posted tablePrefix trigger) (held : Option TableLock) :
    ∃ w', w.Claimed trigger w' ∧ w.Leads ids ((work ctx tablePrefix).run.run held)
      [.now, .head (BackfillMarker.keyOf tablePrefix), .put (Claim.key trigger.key trigger.created) [] .absent, .now]
      w' ((turns ctx ⟨tablePrefix, .ofTable tablePrefix ctx.layout.gateName, trigger.version, w.elapsed + budget⟩
        ctx.patience w.elapsed).run.run held) := by
  have hseen : (w.noted (.head (BackfillMarker.keyOf tablePrefix))).Posted tablePrefix trigger :=
    ⟨h.served, h.posted, h.unclaimed⟩
  have hhead : answerFrom ids (.head (BackfillMarker.keyOf tablePrefix)) w =
      (.ok (some trigger), w.noted (.head (BackfillMarker.keyOf tablePrefix))) := by
    rw [answerFrom_head h.served, h.posted]
  obtain ⟨version, w', hclaim, hclaimed⟩ := hseen.answerFrom_claim ids
  refine ⟨w', ⟨hclaimed.served, hclaimed.store, hclaimed.elapsed, hclaimed.warehouse, hclaimed.idsDrawn⟩, ?_⟩
  unfold work
  rw [hbudget]
  refine Leased.leads_bind (Leased.leads_lift (leads_after hroom)) (.step hhead (.step hclaim (.step (c := .now) rfl ?_)))
  rw [hclaimed.elapsed]
  exact .refl _ _

theorem leads_guard (ids : Nat → String) (ctx : Context) (task : Task) (rounds : Nat) (lastPop : Duration) (w : World)
    (held : Option TableLock) : w.Leads ids ((turns ctx task (rounds + 1) lastPop).run.run held) [.now] w
      ((if w.elapsed + (ctx.settings.jobWait + turnMargin) < task.deadline then do
          match ← turn ctx task lastPop with
          | .again lastPop => turns ctx task rounds lastPop
          | .ended outcome => return outcome
        else handOver task : Leased SubscriberOutcome).run.run held) :=
  Leased.leads_now fun now => if now + (ctx.settings.jobWait + turnMargin) < task.deadline then do
      match ← turn ctx task lastPop with
      | .again lastPop => turns ctx task rounds lastPop
      | .ended outcome => return outcome
    else handOver task

/-- Without time for a turn the backfill marker is posted anew, and that is all. -/
theorem leads_turns_late (ids : Nat → String) (ctx : Context) (task : Task) (rounds : Nat) (lastPop : Duration)
    (hserved : w.bucket.failing = []) (htime : ¬ w.elapsed + (ctx.settings.jobWait + turnMargin) < task.deadline)
    (held : Option TableLock) : ∃ w', w.Leads ids ((turns ctx task (rounds + 1) lastPop).run.run held)
      [.now, .put task.backfill.key [] (.version task.version)] w' (.done (.ok .handoff, held)) := by
  have hguard := leads_guard ids ctx task rounds lastPop w held
  rw [if_neg htime] at hguard
  obtain ⟨w', hrepost, -⟩ := answerFrom_put hserved ids task.backfill.key [] (.version task.version)
  refine ⟨w', hguard.trans (.step hrepost ?_)⟩
  cases (w.bucket.store.put task.backfill.key [] (.version task.version) w.instant).1 with
  | written => exact .refl _ _
  | conflict => exact .refl _ _

/-- With time for a turn the lock and the backlog are read, and the first pointer is tried. -/
theorem leads_turns_early (ids : Nat → String) (ctx : Context) (task : Task) (rounds : Nat) (lastPop : Duration)
    (h : w.Opens task.tablePrefix pointer) (htime : w.elapsed + (ctx.settings.jobWait + turnMargin) < task.deadline) :
    ∃ w' rest, w.Unmoved w' ∧ (∀ e held, rest (.error e, held) = .done (.error e, held)) ∧
      w.Leads ids ((turns ctx task (rounds + 1) lastPop).run.run (some (.ofTable task.tablePrefix ctx.settings.jobPrefix)))
        [.now, .head (TableLock.keyOf task.tablePrefix), .list (Backlog.folder task.tablePrefix) none] w'
        (((submitNext ctx pointer).run.run (some (.ofTable task.tablePrefix ctx.settings.jobPrefix))).bind rest) := by
  have hguard := leads_guard ids ctx task rounds lastPop w (some (.ofTable task.tablePrefix ctx.settings.jobPrefix))
  rw [if_pos htime, Leased.run_bind] at hguard
  have hlock : answerFrom ids (.head (TableLock.keyOf task.tablePrefix)) w =
      (.ok none, w.noted (.head (TableLock.keyOf task.tablePrefix))) := by
    rw [answerFrom_head h.served, Store.head?, h.unlocked]
    rfl
  have hlist := answerFrom_list (w := w.noted (.head (TableLock.keyOf task.tablePrefix))) h.served ids
    (Backlog.folder task.tablePrefix) none
  have hturn : w.Leads ids
      ((turn ctx task lastPop).run.run (some (.ofTable task.tablePrefix ctx.settings.jobPrefix)))
      [.head (TableLock.keyOf task.tablePrefix), .list (Backlog.folder task.tablePrefix) none] _
      ((advance ctx task lastPop ((w.bucket.store.list (Backlog.folder task.tablePrefix) none).objects.head?.map
        (·.key))).run.run (some (.ofTable task.tablePrefix ctx.settings.jobPrefix))) :=
    .step hlock (.step hlist (.refl _ _))
  rw [h.filled, advance, Leased.run_bind] at hturn
  have hall := hguard.trans (hturn.bind _)
  rw [Program.bind_assoc] at hall
  exact ⟨_, _, ((Unmoved.refl h.served).noted _).noted _, fun _ _ => rfl, hall⟩

/-- **Submitting the next marker is a try**, whatever is done after it. -/
theorem exists_tries (ids : Nat → String) (ctx : Context) (h : w.Opens tablePrefix pointer) : ∃ calls w' p,
    w.Leads ids ((submitNext ctx pointer).run.run (some (.ofTable tablePrefix ctx.settings.jobPrefix))) calls w' p ∧
      ∀ rest, (∀ e held, rest (.error e, held) = .done (.error e, held)) →
        Tries ctx tablePrefix pointer (ids (w.idsDrawn + 1)) w.bucket.store calls ((p.bind rest).bind reporting) := by
  let lock := TableLock.ofTable tablePrefix ctx.settings.jobPrefix
  let marker := Backlog.markerFor pointer
  have hhead := answerFrom_head h.served ids marker
  cases hmarker : w.bucket.store.head? marker with
  | none =>
    rw [hmarker] at hhead
    have hfails : w.Leads ids ((Leased.lift (markerOf pointer)).run.run (some lock)) [.head marker] _
        (.done (.error (.danglingPointer pointer marker), some lock)) := .call hhead
    refine ⟨_, _, _, Leased.leads_bind_error hfails, fun rest hrest => ?_⟩
    rw [Program.bind, hrest]
    exact .dangling hmarker
  | some info =>
    rw [hmarker] at hhead
    let seen := w.noted (.head marker)
    let drawn : World := { seen with idsDrawn := seen.idsDrawn + 1 }
    let jobId := JobId.make ctx.settings.jobPrefix marker (ids (w.idsDrawn + 1))
    have hfound : w.Leads ids ((Leased.lift (markerOf pointer)).run.run (some lock)) [.head marker] seen
        (.done (.ok marker, some lock)) := .call hhead
    have hdraw : seen.Leads ids ((Leased.lift (Invocation.ask .freshId)).run.run (some lock)) [.freshId] drawn
        (.done (.ok (ids (w.idsDrawn + 1)), some lock)) := .call (c := .freshId) rfl
    cases hplan : w.bucket.store.gives (Submission.plan ctx marker) with
    | none =>
      obtain ⟨reads, failure, w', held, hreads, happly⟩ :=
        Submission.exists_leads_apply_of_none ids lock jobId (w := drawn) hplan h.served h.unlocked
      refine ⟨_, _, _, Leased.leads_bind hfound (Leased.leads_bind hdraw (Leased.leads_bind_error happly)),
        fun rest hrest => ?_⟩
      rw [Program.bind, hrest]
      exact .unplanned hreads hplan
    | some plan =>
      obtain ⟨reads, job, w', p, hreads, hjob, happly⟩ :=
        Submission.exists_leads_apply ids lock jobId (w := drawn) hplan h.served h.unlocked
      obtain ⟨p', happly⟩ := Leased.leads_bind_left (f := fun _ => pure ()) happly
      exact ⟨_, _, _, Leased.leads_bind hfound (Leased.leads_bind hdraw happly), fun rest _ =>
        .submitted hreads hplan hjob rfl _⟩

section Valid

variable {pattern : KeyPattern} (hvalid : ctx.settings.validate = .ok pattern) (hpatience : 0 < ctx.patience)
  (h : w.Unserved tablePrefix trigger pointer)

include hvalid in
theorem breaks_down_of_overflow (ids : Nat → String)
    (hroom : clockLimit ≤ w.elapsed + (ctx.settings.timeout - ctx.settings.restartBuffer)) :
    w.Leads ids (run ctx tablePrefix).run [.now] w (.halt .overflow) := by
  rw [run_eq]
  exact (leads_work_overflow ids (Settings.subscriberBudget_of_validate hvalid) hroom _).bind reporting

include hvalid hpatience h

theorem tries_of_early (ids : Nat → String)
    (hroom : w.elapsed + (ctx.settings.timeout - ctx.settings.restartBuffer) < clockLimit)
    (htime : ctx.settings.jobWait + turnMargin < ctx.settings.timeout - ctx.settings.restartBuffer) : ∃ calls w' p,
    Tries ctx tablePrefix pointer (ids (w.idsDrawn + 1))
      (w.bucket.store.write (Claim.key trigger.key trigger.created) [] w.instant) calls p ∧
    w.Leads ids (run ctx tablePrefix).run ([.now, .head (BackfillMarker.keyOf tablePrefix),
      .put (Claim.key trigger.key trigger.created) [] .absent, .now, .now, .head (TableLock.keyOf tablePrefix),
      .list (Backlog.folder tablePrefix) none] ++ calls) w' p := by
  obtain ⟨rounds, hrounds⟩ := Nat.exists_eq_add_one_of_ne_zero (Nat.ne_of_gt hpatience)
  obtain ⟨w₁, hclaimed, hwork⟩ := leads_work ids (Settings.subscriberBudget_of_validate hvalid) hroom h.toPosted
    (some (.ofTable tablePrefix ctx.settings.jobPrefix))
  rw [hrounds] at hwork
  obtain ⟨w₂, rest, hunmoved, hrest, hturns⟩ := leads_turns_early ids ctx ⟨tablePrefix,
    .ofTable tablePrefix ctx.layout.gateName, trigger.version,
    w.elapsed + (ctx.settings.timeout - ctx.settings.restartBuffer)⟩ rounds w.elapsed (h.opens_of_claimed hclaimed)
    (hclaimed.elapsed.symm ▸ Nat.add_lt_add_left htime w.elapsed)
  have hopens := (h.opens_of_claimed hclaimed).unmoved hunmoved
  obtain ⟨calls, w', p, hsubmit, htries⟩ := exists_tries ids ctx hopens
  rw [hunmoved.idsDrawn, hclaimed.idsDrawn, hunmoved.store, hclaimed.store] at htries
  rw [run_eq]
  exact ⟨calls, w', _, htries rest hrest, (hwork.trans (hturns.trans (hsubmit.bind rest))).bind reporting⟩

theorem hands_over_of_late (ids : Nat → String)
    (hroom : w.elapsed + (ctx.settings.timeout - ctx.settings.restartBuffer) < clockLimit)
    (htime : ctx.settings.timeout - ctx.settings.restartBuffer ≤ ctx.settings.jobWait + turnMargin) : ∃ w',
    w.Leads ids (run ctx tablePrefix).run [.now, .head (BackfillMarker.keyOf tablePrefix),
      .put (Claim.key trigger.key trigger.created) [] .absent, .now, .now,
      .put (BackfillMarker.keyOf tablePrefix) [] (.version trigger.version), .count (.subscriberOutcomes "handoff")]
      w' (.done (.ok .handoff)) := by
  obtain ⟨rounds, hrounds⟩ := Nat.exists_eq_add_one_of_ne_zero (Nat.ne_of_gt hpatience)
  obtain ⟨w₁, hclaimed, hwork⟩ := leads_work ids (Settings.subscriberBudget_of_validate hvalid) hroom h.toPosted
    (some (.ofTable tablePrefix ctx.settings.jobPrefix))
  rw [hrounds] at hwork
  obtain ⟨w₂, hturns⟩ := leads_turns_late ids ctx ⟨tablePrefix, .ofTable tablePrefix ctx.layout.gateName,
    trigger.version, w.elapsed + (ctx.settings.timeout - ctx.settings.restartBuffer)⟩ rounds w.elapsed hclaimed.served
    (hclaimed.elapsed.symm ▸ Nat.not_lt.2 (Nat.add_le_add_left htime w.elapsed))
    (some (.ofTable tablePrefix ctx.settings.jobPrefix))
  rw [run_eq]
  exact ⟨_, ((hwork.trans hturns).bind reporting).trans (.call (c := .count (.subscriberOutcomes "handoff")) rfl)⟩

/-- **A subscriber tries the first pointer exactly if there is time for a wait and the margin.**  Good settings have time
for the wait; where they have none for the margin, the subscriber claims its backfill marker, posts it anew and ends.
Where the clock has no room for its deadline it breaks down at once. -/
theorem tries_or_hands_over (ids : Nat → String) :
    (clockLimit ≤ w.elapsed + (ctx.settings.timeout - ctx.settings.restartBuffer) →
      w.Leads ids (run ctx tablePrefix).run [.now] w (.halt .overflow)) ∧
    (w.elapsed + (ctx.settings.timeout - ctx.settings.restartBuffer) < clockLimit →
      (ctx.settings.jobWait + turnMargin < ctx.settings.timeout - ctx.settings.restartBuffer → ∃ calls w' p,
        Tries ctx tablePrefix pointer (ids (w.idsDrawn + 1))
          (w.bucket.store.write (Claim.key trigger.key trigger.created) [] w.instant) calls p ∧
        w.Leads ids (run ctx tablePrefix).run ([.now, .head (BackfillMarker.keyOf tablePrefix),
          .put (Claim.key trigger.key trigger.created) [] .absent, .now, .now, .head (TableLock.keyOf tablePrefix),
          .list (Backlog.folder tablePrefix) none] ++ calls) w' p) ∧
      (ctx.settings.timeout - ctx.settings.restartBuffer ≤ ctx.settings.jobWait + turnMargin → ∃ w',
        w.Leads ids (run ctx tablePrefix).run [.now, .head (BackfillMarker.keyOf tablePrefix),
          .put (Claim.key trigger.key trigger.created) [] .absent, .now, .now,
          .put (BackfillMarker.keyOf tablePrefix) [] (.version trigger.version),
          .count (.subscriberOutcomes "handoff")] w' (.done (.ok .handoff)))) :=
  ⟨breaks_down_of_overflow hvalid ids, fun hroom =>
    ⟨tries_of_early hvalid hpatience h ids hroom, hands_over_of_late hvalid hpatience h ids hroom⟩⟩

end Valid

/-- The backfill marker of the trial table. -/
def posted : ObjectInfo :=
  ((Trial.table Trial.pointers).bucket.store.head? (BackfillMarker.keyOf "d/t")).get (by decide +kernel)

theorem unserved_table : (Trial.table Trial.pointers).Unserved "d/t" posted "d/t/_backlog/a/_SUCCESS" where
  served := by decide +kernel
  unlocked := by decide +kernel
  filled := by decide +kernel
  posted := (Option.some_get _).symm
  unclaimed := by decide +kernel

/-- With the settings that are given if nothing else is said there is time, and a job is submitted. -/
theorem tries_or_hands_over_trial : ∃ reads body job w' p, (∀ c ∈ reads, c.IsReading) ∧
    (Trial.table Trial.pointers).Leads idOf (run Trial.context "d/t").run ([.now, .head (BackfillMarker.keyOf "d/t"),
      .put (Claim.key posted.key posted.created) [] .absent, .now, .now, .head (TableLock.keyOf "d/t"),
      .list (Backlog.folder "d/t") none, .head "d/t/a/_SUCCESS", .freshId] ++
      (reads ++ [.put (TableLock.keyOf "d/t") body (.unchanged none), .submit job])) w' p := by
  obtain ⟨pattern, hvalid⟩ := Settings.exists_pattern (by decide +kernel : Trial.context.settings.validate.isOk = true)
  obtain ⟨calls, w', p, htries, hleads⟩ :=
    ((tries_or_hands_over hvalid (by decide) unserved_table idOf).2 (by decide +kernel)).1 (by decide)
  have hmarker : (((Trial.table Trial.pointers).bucket.store.write (Claim.key posted.key posted.created) []
    (Trial.table Trial.pointers).instant).head? "d/t/a/_SUCCESS").isSome = true := by decide +kernel
  have hplan : (((Trial.table Trial.pointers).bucket.store.write (Claim.key posted.key posted.created) []
    (Trial.table Trial.pointers).instant).gives (Submission.plan Trial.context "d/t/a/_SUCCESS")).isSome = true := by
    decide +kernel
  have hname : Backlog.markerFor "d/t/_backlog/a/_SUCCESS" = "d/t/a/_SUCCESS" := by decide +kernel
  cases htries with
  | dangling hnone =>
    rw [hname] at hnone
    rw [hnone] at hmarker
    cases hmarker
  | unplanned _ hnone =>
    rw [hname] at hnone
    rw [hnone] at hplan
    cases hplan
  | submitted hreads =>
    rw [hname] at hleads
    exact ⟨_, _, _, w', p, hreads, hleads⟩

/-- Settings that are good: half a minute, of which 29 seconds are for one wait. -/
def tight : Context :=
  { Trial.context with settings := { Trial.context.settings with jobWait := .ofSeconds 29 } }

/-- **A subscriber may end without a turn**, although its settings are good and a pointer waits. -/
theorem handoff_without_turn : tight.settings.validate.isOk = true ∧
    (Trial.table Trial.pointers).Unserved "d/t" posted "d/t/_backlog/a/_SUCCESS" ∧ ∃ w',
    (Trial.table Trial.pointers).Leads idOf (run tight "d/t").run [.now, .head (BackfillMarker.keyOf "d/t"),
      .put (Claim.key posted.key posted.created) [] .absent, .now, .now,
      .put (BackfillMarker.keyOf "d/t") [] (.version posted.version), .count (.subscriberOutcomes "handoff")] w'
      (.done (.ok .handoff)) := by
  have hok : tight.settings.validate.isOk = true := by decide +kernel
  obtain ⟨pattern, hvalid⟩ := Settings.exists_pattern hok
  exact ⟨hok, unserved_table, hands_over_of_late hvalid (by decide) unserved_table idOf (by decide +kernel) (by decide)⟩

end Subscriber
end Intake
