import Intake.Proofs.Effort
import Intake.Proofs.Endless
import Intake.Proofs.Timed
/-!
# Deadline — a subscriber ends, and in time

Nobody but a sleeper makes time pass.  A subscriber sleeps only while it waits, and it takes a turn only if there is time
for one wait and a margin; but a turn may wait twice.  So it ends before its deadline and one wait more, less the margin
(`Subscriber.ends_in_time`).  That it does end is a matter of what it does in a turn: every turn but the last leaves less
to be done (`Subscriber.meets_turn`).
-/
namespace Intake

open World Invocation

/-! ## What a subscriber counts on -/

/-- The lock does not name a part after which no other can be counted. -/
def LockBody.TagFits (jobPrefix : String) (body : Octets) : Prop :=
  ∀ id base index, ofOctets? jobPrefix body = some (.job id) → JobId.splitPart id = (base, some index) → index + 1 < 2 ^ 64

theorem JobId.NamesPart.tagFits {jobPrefix marker name : String} {bound part : Nat}
    (h : NamesPart jobPrefix marker bound part name) (hbound : bound < 2 ^ 64) :
    LockBody.TagFits jobPrefix (Utf8.encode name) := by
  intro id base index hid hsplit
  obtain hread | ⟨t, hread⟩ := h.read
  · rw [hread] at hid
    cases hid
    obtain hnone | ⟨htag, hpart⟩ := h.tag
    · rw [hsplit] at hnone
      cases hnone
    · rw [hsplit] at htag
      cases htag
      exact Nat.lt_of_le_of_lt (Nat.succ_le_of_lt hpart) hbound
  · rw [hread] at hid
    cases hid

namespace Subscriber

/-- **What may be in the store of a table, and what jobs may do there.** -/
def law (settings : Settings) (tablePrefix : String) (keys : List String) : Law where
  writes key body := key ∈ keys ∧ (key = TableLock.keyOf tablePrefix → LockBody.TagFits settings.jobPrefix body)
  runs script := (settings.jobPoll ≤ settings.jobWait ∨ script.Ends) ∧
    (settings.failOnZeroRows = true → script.rows < 2 ^ 64)

variable {settings : Settings} {tablePrefix : String} {keys : List String} {w : World}

theorem lawful_of_subset {keys' : List String} (h : w.Lawful (law settings tablePrefix keys)) (hkeys : keys ⊆ keys') :
    w.Lawful (law settings tablePrefix keys') :=
  ⟨fun hholds => (h.writes hholds).imp_left (hkeys ·), h.runs⟩

theorem length_keys_le (h : w.Lawful (law settings tablePrefix keys)) : w.bucket.store.keys.length ≤ keys.length := by
  refine (List.subperm_of_subset w.bucket.store.keys_nodup fun key hkey => ?_).length_le
  obtain ⟨object, hobject⟩ := Option.isSome_iff_exists.1 (Fields.isSome_get?_of_mem hkey)
  exact (h.writes (.inl ⟨object, hobject, rfl⟩)).1

theorem ends_of_lawful (h : w.Lawful (law settings tablePrefix keys)) :
    settings.jobPoll ≤ settings.jobWait ∨ ∀ script, w.Follows script → script.Ends := by
  by_cases hfast : settings.jobPoll ≤ settings.jobWait
  · exact .inl hfast
  · exact .inr fun script hscript => (h.runs hscript).1.resolve_left hfast

end Subscriber

/-- **What a subscriber is granted.**  All but the first are needed only for a run that is to come to its end, if `calm`
says so; how long it sleeps does not depend on them. -/
structure Grants (calm : Prop) (ids : Nat → String) (limit : Duration) (tablePrefix : String) (keys : List String)
    (ctx : Context) : Prop where
  poll : 0 < ctx.settings.jobPoll
  rounds : calm → ctx.settings.jobWait < ctx.patience * ctx.settings.jobPoll
  ids : calm → ∀ n, JobId.IsSuffix (ids n)
  clock : calm → limit + ctx.settings.jobPoll ≤ clockLimit
  room : calm → JobId.HasRoom ctx.settings.jobPrefix keys.length
  lock : calm → TableLock.keyOf tablePrefix ∈ keys
  few : calm → keys.length < 2 ^ 64

/-! ## Waiting -/

/-- A job is still running at the end of a wait: time has passed; or the next question would have come after the wait, and
one of those that are left was asked. -/
def World.Lingers (stop interval : Duration) (id : String) (w s : World) : Prop :=
  w.elapsed < s.elapsed ∨ stop < w.elapsed + interval ∧ s.elapsed = w.elapsed ∧ s.bucket.store = w.bucket.store ∧
    ((∀ script, w.Follows script → script.Ends) → s.warehouse.left id < w.warehouse.left id)

section Waiting

variable {ids : Nat → String} {limit stop : Duration} {calm : Prop} {ctx : Context} {still : Store → Prop} {w s : World}
  {tablePrefix : String} {keys : List String} {law : Law}

theorem meets_waitUntil (id : String) {interval : Duration} (hinterval : 0 < interval) (hlimit : stop < limit)
    (hclock : calm → limit + interval ≤ clockLimit) (rounds : Nat) (hlawful : calm → w.Lawful law)
    (hw : w.elapsed ≤ stop) (hrounds : calm → stop < w.elapsed + rounds * interval) :
    (JobWatch.waitUntil id stop interval rounds).Meets (timed ids limit) (¬ calm) (fun seen s =>
      w.Goes calm law stop (· = w.bucket.store) s ∧ (seen = .running → w.Lingers stop interval id s)) w := by
  induction rounds generalizing w with
  | zero =>
    refine meets_halt .cutOff fun hcalm => Nat.not_lt.2 hw ?_
    have hlate := hrounds hcalm
    rwa [Nat.zero_mul] at hlate
  | succ rounds ih =>
    refine (meets_job id).bind fun status w₁ h => ?_
    obtain ⟨hstatus, rfl⟩ := h
    have hasked : calm → ({ w with warehouse := (w.warehouse.poll id).2 } : World).Lawful law := fun hcalm =>
      (hlawful hcalm).answerFrom ids (c := .job id) fun _ _ _ e => by cases e
    have hgoes : w.Goes calm law stop (· = w.bucket.store) { w with warehouse := (w.warehouse.poll id).2 } :=
      ⟨Nat.le_refl _, hw, hasked, fun _ _ => rfl⟩
    cases status with
    | none => exact meets_pure ⟨hgoes, fun e => by cases e⟩
    | some status =>
      show Meets _ _ _ (if status.isDone = true then _ else _) _
      split
      · exact meets_pure ⟨hgoes, fun e => by cases e⟩
      · rename_i hrunning
        have hroom : calm → w.elapsed + interval < clockLimit := fun hcalm =>
          Nat.lt_of_lt_of_le (Nat.add_lt_add_right (Nat.lt_of_le_of_lt hw hlimit) _) (hclock hcalm)
        refine (meets_after (w := { w with warehouse := (w.warehouse.poll id).2 }) hroom).bind fun time w₁ h => ?_
        obtain ⟨rfl, rfl⟩ := h
        split
        · rename_i hlate
          -- If this is the first question, no time has passed: the question itself is all that was done.
          exact meets_pure ⟨hgoes, fun _ => .inr ⟨hlate, rfl, rfl, fun hends =>
            ScriptedWarehouse.left_poll (fun script hscript => hends script (.inl hscript)) hstatus
              (Bool.eq_false_iff.2 hrunning)⟩⟩
        · rename_i hearly
          have hsleep : w.elapsed + interval ≤ stop := Nat.not_lt.1 hearly
          refine (meets_sleep (w := { w with warehouse := (w.warehouse.poll id).2 })
            (Nat.lt_of_le_of_lt hsleep hlimit) hasked).bind fun _ w₂ h => ?_
          obtain ⟨hlawful₂, helapsed⟩ := h
          have helapsed : w₂.elapsed = w.elapsed + interval := helapsed
          have hslept : w.elapsed < w₂.elapsed := helapsed ▸ Nat.lt_add_of_pos_right hinterval
          refine (ih hlawful₂ (helapsed ▸ hsleep) fun hcalm => ?_).mono fun seen w₃ h => ?_
          · have hleft := hrounds hcalm
            rwa [Nat.succ_mul, Nat.add_comm (rounds * interval), ← Nat.add_assoc, ← helapsed] at hleft
          · exact ⟨h.1.of_lt hslept, fun _ => .inl (Nat.lt_of_lt_of_le hslept h.1.later)⟩

theorem meets_wait (hgrants : Grants calm ids limit tablePrefix keys ctx) (id : String) (hlawful : calm → w.Lawful law)
    (h : w.elapsed + ctx.settings.jobWait < limit) :
    (JobWatch.wait ctx.patience id ctx.settings.jobWait ctx.settings.jobPoll).Meets (timed ids limit) (¬ calm)
      (fun seen s => w.Goes calm law (w.elapsed + ctx.settings.jobWait) (· = w.bucket.store) s ∧
        (seen = .running → w.Lingers (w.elapsed + ctx.settings.jobWait) ctx.settings.jobPoll id s)) w := by
  have hroom : calm → w.elapsed + ctx.settings.jobWait < clockLimit := fun hcalm =>
    Nat.lt_of_lt_of_le h (Nat.le_trans (Nat.le_add_right _ _) (hgrants.clock hcalm))
  refine (meets_after hroom).bind fun time w' htime => ?_
  obtain ⟨rfl, rfl⟩ := htime
  exact meets_waitUntil id hgrants.poll h hgrants.clock ctx.patience hlawful (Nat.le_add_right _ _) fun hcalm =>
    Nat.add_lt_add_left (hgrants.rounds hcalm) _

theorem meets_changedNothing (status : JobStatus)
    (hrows : calm → ∀ script, w.Follows script → script.rows < 2 ^ 64) :
    (JobWatch.changedNothing status).Meets (timed ids limit) (¬ calm) (fun _ s => s = w) w := by
  unfold JobWatch.changedNothing
  split
  · exact meets_pure rfl
  · split
    · refine (meets_children status.jobId).bind fun children s hs => ?_
      obtain ⟨hchildren, rfl⟩ := hs
      obtain ⟨script, hscript, hle⟩ := ScriptedWarehouse.scriptRows_children hchildren
      refine (meets_fitted fun hlate hcalm => hlate ?_).bind fun _ _ ht => meets_pure ht.2
      exact Nat.lt_of_le_of_lt hle (hrows hcalm script (.inl hscript))
    · exact meets_pure rfl

/-- The rows of a script can be counted. -/
theorem meets_check (status : JobStatus) (h : w.Goes calm (Subscriber.law ctx.settings tablePrefix keys) stop still s) :
    (JobWatch.check ctx.settings.failOnZeroRows status).Meets (timed ids limit) (¬ calm)
      (fun _ => w.Goes calm (Subscriber.law ctx.settings tablePrefix keys) stop still) s := by
  have hthrow : ∀ (metric : Metric) (e : Failure), (do Invocation.count metric; throw e : Invocation Unit).Meets
      (timed ids limit) (¬ calm) (fun _ => w.Goes calm (Subscriber.law ctx.settings tablePrefix keys) stop still) s :=
    fun metric e => ((idle_count metric).bind fun _ => plain_throw e).goes h
  unfold JobWatch.check
  split
  · exact hthrow _ _
  · split
    · rename_i hguard
      refine (meets_changedNothing status fun hcalm script hscript => ?_).bind fun nothing t ht => ?_
      · exact ((h.lawful hcalm).runs hscript).2 hguard
      · subst ht
        split
        · exact hthrow _ _
        · exact meets_pure h
    · exact meets_pure h

end Waiting

/-! ## Jobs -/

/-- The lock was taken in the name of a marker's part, as the last that was done. -/
def Store.Begun (still : Store → Prop) (jobPrefix tablePrefix marker : String) (bound part : Nat) (store : Store) : Prop :=
  ∃ mid name now, still mid ∧ JobId.NamesPart jobPrefix marker bound part name ∧
    store = mid.write (TableLock.keyOf tablePrefix) (Utf8.encode name) now

theorem Store.Begun.imp {still still' : Store → Prop} {jobPrefix tablePrefix marker : String} {bound part : Nat}
    {store : Store} (h : store.Begun still jobPrefix tablePrefix marker bound part) (hstill : ∀ mid, still mid → still' mid) :
    store.Begun still' jobPrefix tablePrefix marker bound part := by
  obtain ⟨mid, name, now, hmid, hname, rfl⟩ := h
  exact ⟨mid, name, now, hstill mid hmid, hname, rfl⟩

section Jobs

variable {ids : Nat → String} {limit stop : Duration} {calm : Prop} {ctx : Context} {still : Store → Prop} {w s : World}
  {tablePrefix : String} {keys : List String} {version : Option String}
  (hgrants : Grants calm ids limit tablePrefix keys ctx)
  (h : w.Goes calm (Subscriber.law ctx.settings tablePrefix keys) stop still s)
  (hlimit : stop + ctx.settings.jobWait < limit)

include hgrants h hlimit

namespace Submission

theorem meets_submitAndWatch (job : Job) : (submitAndWatch ctx job).Meets (timed ids limit) (¬ calm) (fun _ =>
    w.Goes calm (Subscriber.law ctx.settings tablePrefix keys) (stop + ctx.settings.jobWait) still) s := by
  refine (meets_submit job h).bind fun _ s₁ h₁ => ?_
  refine ((idle_count _).goes h₁).bind fun _ s₂ h₂ => ?_
  have htime : s₂.elapsed + ctx.settings.jobWait ≤ stop + ctx.settings.jobWait := Nat.add_le_add_right h₂.elapsed _
  refine (meets_wait hgrants job.id h₂.lawful (Nat.lt_of_le_of_lt htime hlimit)).bind fun seen s₃ h₃ => ?_
  have hgoes := (h₂.trans h₃.1).mono htime
  cases seen with
  | done status => exact meets_check status hgoes
  | running => exact meets_pure hgoes
  | notFound => exact meets_pure hgoes

omit hlimit in
/-- A part is begun when the lock is taken in its name. -/
theorem meets_claimPart {marker name : String} {part : Nat}
    (hname : calm → JobId.NamesPart ctx.settings.jobPrefix marker keys.length part name) :
    (Leased.claimLock name).Meets (timed ids limit) (¬ calm) (.ofTable tablePrefix ctx.settings.jobPrefix)
      (fun locked _ s => locked = true ∧ w.Goes calm (Subscriber.law ctx.settings tablePrefix keys) stop
        (Store.Begun still ctx.settings.jobPrefix tablePrefix marker keys.length part) s) version s := by
  refine (meets_claimLock name h fun hcalm => ?_).mono fun locked _ s₁ h₁ => ⟨h₁.1, ?_⟩
  · exact ⟨hgrants.lock hcalm, fun _ => (hname hcalm).tagFits (hgrants.few hcalm)⟩
  · refine h₁.2.imp fun hcalm hwritten => ?_
    obtain ⟨mid, now, hmid, hstore⟩ := hwritten
    exact ⟨mid, name, now, hmid, hname hcalm, hstore⟩

theorem meets_carryOut {marker base : String} {part : Nat}
    (hbase : calm → ∃ suffix, JobId.IsSuffix suffix ∧ base = JobId.make ctx.settings.jobPrefix marker suffix) (plan : Plan)
    (hplan : calm → plan.jobs.length ≤ keys.length) :
    (carryOut ctx base part plan).Meets (timed ids limit) (¬ calm) (.ofTable tablePrefix ctx.settings.jobPrefix)
      (fun _ _ => w.Goes calm (Subscriber.law ctx.settings tablePrefix keys) (stop + ctx.settings.jobWait)
        (Store.Begun still ctx.settings.jobPrefix tablePrefix marker keys.length part)) version s := by
  cases plan with
  | query job =>
    have hname : calm → JobId.NamesPart ctx.settings.jobPrefix marker keys.length part base := by
      intro hcalm
      obtain ⟨suffix, hsuffix, rfl⟩ := hbase hcalm
      exact JobId.namesPart_make hsuffix
    refine (meets_claimPart hgrants h hname).bind fun _ _ _ h₁ => ?_
    refine (Leased.meets_lift (meets_submitAndWatch hgrants h₁.2 hlimit { job with id := base })).bind fun _ _ _ h₂ => ?_
    exact Leased.meets_pure h₂
  | loads jobs =>
    simp only [carryOut]
    split
    · exact (Leased.meets_throw _).bind fun _ _ _ (h : False) => h.elim
    · rename_i hin
      have hpart : part < jobs.length := Nat.not_le.1 hin
      rw [List.drop_eq_getElem_cons hpart]
      have hname : calm → JobId.NamesPart ctx.settings.jobPrefix marker keys.length part
          (JobId.ofPart base part jobs.length) := by
        intro hcalm
        obtain ⟨suffix, hsuffix, rfl⟩ := hbase hcalm
        exact JobId.namesPart_ofPart hsuffix (hgrants.room hcalm) hpart (hplan hcalm) (hgrants.few hcalm)
      -- With a lock only the first of the jobs is submitted.
      have hload : (loadJobs ctx base jobs.length part base (jobs[part] :: jobs.drop (part + 1))).Meets (timed ids limit)
          (¬ calm) (.ofTable tablePrefix ctx.settings.jobPrefix)
          (fun _ _ => w.Goes calm (Subscriber.law ctx.settings tablePrefix keys) (stop + ctx.settings.jobWait)
            (Store.Begun still ctx.settings.jobPrefix tablePrefix marker keys.length part)) version s := by
        refine (meets_claimPart hgrants h hname).bind fun locked _ _ h₁ => ?_
        obtain ⟨rfl, h₁⟩ := h₁
        exact (Leased.meets_lift (meets_submitAndWatch hgrants h₁ hlimit _)).bind fun _ _ _ h₂ => Leased.meets_pure h₂
      exact hload.bind fun _ _ _ h₁ => Leased.meets_pure h₁

theorem meets_apply {marker base : String} {part : Nat}
    (hbase : calm → ∃ suffix, JobId.IsSuffix suffix ∧ base = JobId.make ctx.settings.jobPrefix marker suffix) :
    (apply ctx marker base part).Meets (timed ids limit) (¬ calm) (.ofTable tablePrefix ctx.settings.jobPrefix)
      (fun _ _ => w.Goes calm (Subscriber.law ctx.settings tablePrefix keys) (stop + ctx.settings.jobWait)
        (Store.Begun still ctx.settings.jobPrefix tablePrefix marker keys.length part)) version s := by
  refine Leased.Meets.recording (fun _ _ _ _ => admits_of_isPrompt trivial) ?_
  rw [submitJobs_eq]
  refine (Leased.meets_lift ((reads_plan ctx marker).goes h)).bind fun plan _ s₁ h₁ => ?_
  obtain ⟨hgives, hgoes⟩ := h₁
  refine (meets_carryOut hgrants hgoes hlimit hbase plan fun hcalm => ?_).mono fun _ _ _ h₂ => ?_
  · exact (Store.length_jobs_le hgives).trans (Subscriber.length_keys_le (hgoes.lawful hcalm))
  · exact h₂.imp fun _ hbegun => hbegun.imp fun _ hmid => hmid.1

end Submission

namespace Subscriber

omit hgrants hlimit in
theorem meets_markerOf (pointer : String) : (markerOf pointer).Meets (timed ids limit) (¬ calm) (fun marker s =>
    marker = Backlog.markerFor pointer ∧ w.Goes calm (law ctx.settings tablePrefix keys) stop still s) s := by
  refine ((reads_head _).idle.goes h).bind fun found _ h₁ => ?_
  split
  · exact meets_pure ⟨rfl, h₁⟩
  · exact meets_ofExcept fun _ e => by cases e

theorem meets_submitNext (pointer : String) : (submitNext ctx pointer).Meets (timed ids limit) (¬ calm)
    (.ofTable tablePrefix ctx.settings.jobPrefix) (fun _ _ =>
      w.Goes calm (law ctx.settings tablePrefix keys) (stop + ctx.settings.jobWait)
        (Store.Begun still ctx.settings.jobPrefix tablePrefix (Backlog.markerFor pointer) keys.length 0)) version s := by
  refine (Leased.meets_lift (meets_markerOf h pointer)).bind fun marker _ _ h₁ => ?_
  obtain ⟨rfl, h₁⟩ := h₁
  refine (Leased.meets_lift (meets_freshId h₁)).bind fun suffix _ _ h₂ => ?_
  obtain ⟨⟨n, rfl⟩, h₂⟩ := h₂
  have hbase : calm → ∃ suffix, JobId.IsSuffix suffix ∧
      JobId.make ctx.settings.jobPrefix (Backlog.markerFor pointer) (ids n) =
        JobId.make ctx.settings.jobPrefix (Backlog.markerFor pointer) suffix :=
    fun hcalm => ⟨_, hgrants.ids hcalm n, rfl⟩
  exact (Submission.meets_apply hgrants h₂ hlimit hbase).bind fun _ _ _ h₃ => Leased.meets_pure h₃

theorem meets_submitPart {pointer base : String} (part : Nat)
    (hbase : ∃ suffix, JobId.IsSuffix suffix ∧
      base = JobId.make ctx.settings.jobPrefix (Backlog.markerFor pointer) suffix) :
    (submitPart ctx pointer base part).Meets (timed ids limit) (¬ calm) (.ofTable tablePrefix ctx.settings.jobPrefix)
      (fun _ _ => w.Goes calm (law ctx.settings tablePrefix keys) (stop + ctx.settings.jobWait)
        (Store.Begun still ctx.settings.jobPrefix tablePrefix (Backlog.markerFor pointer) keys.length part)) version s := by
  refine (Leased.meets_lift (meets_markerOf h pointer)).bind fun marker _ _ h₁ => ?_
  obtain ⟨rfl, h₁⟩ := h₁
  exact (Submission.meets_apply hgrants h₁ hlimit fun _ => hbase).bind fun _ _ _ h₂ => Leased.meets_pure h₂

omit hgrants h hlimit in
theorem meets_drain (task : Task) (lastPop : Duration) : (drain ctx task lastPop).Meets (timed ids limit) (¬ calm)
    (.ofTable tablePrefix ctx.settings.jobPrefix) (fun _ _ _ => True) version s := by
  have hrelease : Leased.releaseLock.Meets (timed ids limit) (¬ calm) (.ofTable tablePrefix ctx.settings.jobPrefix)
      (fun _ _ _ => True) version s :=
    (Leased.keeps_releaseLock (fun _ => trivial) (fun _ _ => admits_of_isPrompt trivial)
      fun _ _ _ _ _ _ => trivial).meets Leased.finishes_releaseLock
  refine hrelease.bind fun _ _ s₁ _ => ?_
  refine (Leased.meets_lift ((prompt_delete _ _).prompts s₁)).bind fun result _ s₂ _ => ?_
  split
  · exact Leased.meets_pure trivial
  · refine (Leased.meets_lift (prompt_now.prompts s₂)).bind fun time _ s₃ _ => ?_
    split
    · exact Leased.meets_pure trivial
    · refine (Leased.meets_lift ((Backlog.reads_next _).idle.prompt.prompts s₃)).bind fun next _ s₄ _ => ?_
      split
      · exact Leased.meets_pure trivial
      · refine (Leased.meets_lift ((BackfillMarker.prompt_post _).prompts s₄)).bind fun outcome _ _ _ => ?_
        split <;> exact Leased.meets_pure trivial

theorem meets_advance (task : Task) (lastPop : Duration) (next : Option String) :
    (advance ctx task lastPop next).Meets (timed ids limit) (¬ calm) (.ofTable tablePrefix ctx.settings.jobPrefix)
      (fun led _ s => ∀ t, led = .again t → ∃ pointer, next = some pointer ∧
        w.Goes calm (law ctx.settings tablePrefix keys) (stop + ctx.settings.jobWait)
          (Store.Begun still ctx.settings.jobPrefix tablePrefix (Backlog.markerFor pointer) keys.length 0) s) version s := by
  cases next with
  | none => exact (meets_drain task lastPop).bind fun _ _ _ _ => Leased.meets_pure fun _ e => by cases e
  | some pointer =>
    refine (meets_submitNext hgrants h hlimit pointer).bind fun _ _ _ h₁ => ?_
    exact Leased.meets_pure fun _ _ => ⟨pointer, rfl, h₁⟩

end Subscriber
end Jobs

/-! ## Turns -/

theorem World.Same.advances {w w₁ s : World} {settings : Settings} {bound : Nat} {tablePrefix : String} (h : w.Same w₁)
    (hadvances : w₁.Advances settings bound tablePrefix s) : w.Advances settings bound tablePrefix s := by
  unfold Advances World.rank questionsLeft at hadvances ⊢
  rwa [h.store, h.warehouse, h.elapsed] at hadvances

namespace Subscriber

variable {ids : Nat → String} {limit stop : Duration} {calm : Prop} {ctx : Context} {w s : World} {task : Task}
  {keys : List String} {version : Option String} (hgrants : Grants calm ids limit task.tablePrefix keys ctx)

include hgrants

/-- **After a job has ended, it is not so far to the end of the backlog**: its pointer is taken away, or another part of
the first one is in the lock. -/
theorem meets_finish (lastPop : Duration) (hlimit : stop + ctx.settings.jobWait < limit) {id : String}
    (hlawful : calm → w.Lawful (law ctx.settings task.tablePrefix keys))
    (hlock : w.bucket.store.lockBody ctx.settings.jobPrefix task.tablePrefix = some (.job id))
    (h : w.Goes calm (law ctx.settings task.tablePrefix keys) stop (· = w.bucket.store) s) :
    (finish ctx task lastPop id).Meets (timed ids limit) (¬ calm) (.ofTable task.tablePrefix ctx.settings.jobPrefix)
      (fun led _ s => ∀ t, led = .again t → w.Goes calm (law ctx.settings task.tablePrefix keys)
        (stop + ctx.settings.jobWait) (fun store => store.rank keys.length ctx.settings.jobPrefix task.tablePrefix <
          w.bucket.store.rank keys.length ctx.settings.jobPrefix task.tablePrefix) s) version s := by
  refine (Leased.meets_lift ((Backlog.reads_next _).goes h)).bind fun first _ s₁ h₁ => ?_
  obtain ⟨-, h₁⟩ := h₁
  have hfirst : ∀ store : Store, store = w.bucket.store ∧ store.gives (Backlog.next task.tablePrefix) = some first →
      (w.bucket.store.pointers task.tablePrefix).head? = first := by
    rintro _ ⟨rfl, hgives⟩
    rwa [Store.gives_next, Option.some.injEq] at hgives
  split
  · refine (meets_advance hgrants h₁ hlimit task lastPop none).mono fun led _ _ hled t e => ?_
    obtain ⟨pointer, hnone, -⟩ := hled t e
    cases hnone
  · rename_i pointer
    split
    · rename_i hfor
      split
      · rename_i base index hsplit
        have htag : calm → index + 1 < 2 ^ 64 := by
          intro hcalm
          obtain ⟨object, hobject, hbody⟩ := Option.bind_eq_some_iff.1 hlock
          exact ((hlawful hcalm).writes (.inl ⟨object, hobject, rfl⟩)).2 rfl id base index hbody hsplit
        refine (Leased.meets_lift (meets_fitted fun hlate hcalm => hlate (htag hcalm))).bind fun part _ _ hpart => ?_
        obtain ⟨rfl, rfl⟩ := hpart
        obtain ⟨suffix, hsuffix, hbase⟩ := JobId.isFor_iff.1 hfor
        rw [hsplit] at hbase
        refine (meets_submitPart hgrants h₁ hlimit (index + 1) ⟨suffix, hsuffix, hbase⟩).bind fun _ _ _ h₂ => ?_
        refine Leased.meets_pure fun _ _ => h₂.imp fun _ hbegun => ?_
        obtain ⟨mid, name, now, hmid, hname, hstore⟩ := hbegun
        have hhead := hfirst mid hmid
        rw [hstore, hmid.1, Store.rank_of_isFor hlock hhead hfor]
        exact Nat.lt_of_le_of_lt (Store.rank_write_le hhead hname) (Nat.add_lt_add_left (hname.partsAfter_lt hsplit) _)
      · rename_i hsplit
        refine (Leased.meets_lift (meets_pop h₁ fun store hstore => hstore.1 ▸ hfirst store hstore)).bind
          fun _ _ s₂ h₂ => ?_
        refine (Leased.meets_lift ((idle_count _).goes h₂)).bind fun _ _ s₃ h₃ => ?_
        refine (Leased.meets_lift meets_now).bind fun lastPop _ s₄ h₄ => ?_
        obtain ⟨-, rfl⟩ := h₄
        refine (Leased.meets_lift ((Backlog.reads_next _).goes h₃)).bind fun next _ s₅ h₅ => ?_
        refine (meets_advance hgrants h₅.2 hlimit task lastPop next).mono fun led _ _ hled t e => ?_
        obtain ⟨following, rfl, h₆⟩ := hled t e
        refine h₆.imp fun _ hbegun => ?_
        obtain ⟨_, name, now, ⟨⟨mid, hmid, rfl⟩, hnext⟩, hname, hstore⟩ := hbegun
        have hhead := hfirst mid hmid
        rw [Store.gives_next, Option.some.injEq, hmid.1] at hnext
        rw [hstore, hmid.1, Store.rank_of_isFor hlock hhead hfor]
        exact Nat.lt_of_lt_of_le (Store.rank_write_remove_lt hhead hnext hname) (Nat.le_add_right _ _)
    · rename_i hother
      refine (meets_advance hgrants h₁ hlimit task lastPop (some pointer)).mono fun led _ _ hled t e => ?_
      obtain ⟨_, hpointer, h₂⟩ := hled t e
      cases hpointer
      refine h₂.imp fun _ hbegun => ?_
      obtain ⟨mid, name, now, hmid, hname, hstore⟩ := hbegun
      have hhead := hfirst mid hmid
      rw [hstore, hmid.1, Store.rank_of_other hlock hhead hother]
      exact Store.rank_write_lt hhead hname

theorem meets_awaitJob (id : String) (hlawful : calm → w.Lawful (law ctx.settings task.tablePrefix keys))
    (h : w.elapsed + ctx.settings.jobWait < limit) :
    (awaitJob ctx id).Meets (timed ids limit) (¬ calm) (.ofTable task.tablePrefix ctx.settings.jobPrefix)
      (fun ended _ s => w.Goes calm (law ctx.settings task.tablePrefix keys) (w.elapsed + ctx.settings.jobWait)
          (· = w.bucket.store) s ∧
        (ended = false → w.Lingers (w.elapsed + ctx.settings.jobWait) ctx.settings.jobPoll id s)) version w := by
  have hput : ∀ key body precondition s, (timed ids limit).admits (.put key body precondition) s :=
    fun _ _ _ _ => admits_of_isPrompt trivial
  refine (Leased.meets_lift (meets_wait hgrants id hlawful h)).bind fun seen _ w₁ h₁ => ?_
  obtain ⟨hgoes, hrunning⟩ := h₁
  cases seen with
  | running => exact Leased.meets_pure ⟨hgoes, fun _ => hrunning rfl⟩
  | notFound =>
    have hmissing : (JobWatch.missing id).Plain CloudCall.IsIdle := (idle_count _).bind fun _ => plain_throw _
    refine ((Leased.meets_lift (hmissing.goes hgoes)).recording hput).bind fun _ _ _ h₂ => ?_
    exact Leased.meets_pure ⟨h₂, fun e => by cases e⟩
  | done status =>
    refine ((Leased.meets_lift (meets_check status hgoes)).recording hput).bind fun _ _ _ h₂ => ?_
    exact Leased.meets_pure ⟨h₂, fun e => by cases e⟩

omit hgrants in
theorem advances_of_goes {law : Law} {bound : Nat} (h : w.Goes calm law stop (fun store =>
      store.rank bound ctx.settings.jobPrefix task.tablePrefix <
        w.bucket.store.rank bound ctx.settings.jobPrefix task.tablePrefix) s)
    (hcalm : calm) : w.Advances ctx.settings bound task.tablePrefix s := by
  obtain hlt | heq := Nat.lt_or_eq_of_le h.later
  · exact .inl hlt
  · exact .inr ⟨heq.symm, .inl (h.still hcalm heq.symm)⟩

omit hgrants in
/-- A question to a job that is named by the lock is one of those that are left. -/
theorem advances_of_lingers {id : String} {bound : Nat}
    (hlock : w.bucket.store.lockBody ctx.settings.jobPrefix task.tablePrefix = some (.job id))
    (hlawful : w.Lawful (law ctx.settings task.tablePrefix keys))
    (h : w.Lingers (w.elapsed + ctx.settings.jobWait) ctx.settings.jobPoll id s) :
    w.Advances ctx.settings bound task.tablePrefix s := by
  obtain htime | ⟨hslow, helapsed, hstore, hleft⟩ := h
  · exact .inl htime
  · have hfast : ¬ ctx.settings.jobPoll ≤ ctx.settings.jobWait := Nat.not_le.2 (Nat.lt_of_add_lt_add_left hslow)
    refine .inr ⟨helapsed, .inr ⟨by rw [World.rank, World.rank, hstore], ?_⟩⟩
    unfold questionsLeft
    rw [if_neg hfast, if_neg hfast, hstore, hlock]
    exact hleft ((ends_of_lawful hlawful).resolve_left hfast)

/-- **A turn does something**, and does not sleep too long. -/
theorem meets_turn (hwait : 0 < ctx.settings.jobWait) (lastPop : Duration)
    (hlawful : calm → w.Lawful (law ctx.settings task.tablePrefix keys))
    (hlimit : w.elapsed + ctx.settings.jobWait + ctx.settings.jobWait < limit) :
    (turn ctx task lastPop).Meets (timed ids limit) (¬ calm) (.ofTable task.tablePrefix ctx.settings.jobPrefix)
      (fun led _ s => ∀ t, led = .again t → calm → w.Advances ctx.settings keys.length task.tablePrefix s ∧
        s.Lawful (law ctx.settings task.tablePrefix keys)) version w := by
  refine (meets_readLock ctx.settings.jobPrefix task.tablePrefix hlawful).bind fun body _ w₁ h₁ => ?_
  obtain ⟨hsame, hlawful₁, hbody⟩ := h₁
  have hfirst : w₁.elapsed + ctx.settings.jobWait < limit :=
    hsame.elapsed ▸ Nat.lt_of_le_of_lt (Nat.le_add_right _ _) hlimit
  rw [← hsame.store] at hbody
  -- A lock that was set by hand, one that names a job, and none.
  split
  · refine (Leased.meets_lift (meets_sleep hfirst hlawful₁)).bind fun _ _ w₂ h₂ => ?_
    refine Leased.meets_pure fun _ _ hcalm => ⟨.inl ?_, h₂.1 hcalm⟩
    rw [h₂.2, hsame.elapsed]
    exact Nat.lt_add_of_pos_right hwait
  · rename_i id
    refine (meets_awaitJob hgrants id hlawful₁ hfirst).bind fun ended _ w₂ h₂ => ?_
    obtain ⟨hgoes, hlingers⟩ := h₂
    split
    · refine (meets_finish hgrants lastPop (hsame.elapsed ▸ hlimit) hlawful₁ hbody hgoes).mono fun led _ _ hled t e hcalm => ?_
      exact ⟨hsame.advances (advances_of_goes (hled t e) hcalm), (hled t e).lawful hcalm⟩
    · rename_i hended
      refine Leased.meets_pure fun _ _ hcalm => ⟨hsame.advances ?_, hgoes.lawful hcalm⟩
      exact advances_of_lingers hbody (hlawful₁ hcalm) (hlingers (Bool.eq_false_iff.2 hended))
  · refine (Leased.meets_lift ((Backlog.reads_next _).goes (Goes.refl hlawful₁))).bind fun next _ w₂ h₂ => ?_
    refine (meets_advance hgrants h₂.2 hfirst task lastPop next).mono fun led _ _ hled t e hcalm => ?_
    obtain ⟨pointer, rfl, hgoes⟩ := hled t e
    refine ⟨hsame.advances (advances_of_goes (hgoes.imp fun _ hbegun => ?_) hcalm), hgoes.lawful hcalm⟩
    obtain ⟨mid, name, now, ⟨hmid, hgives⟩, hname, hstore⟩ := hbegun
    rw [Store.gives_next, Option.some.injEq, hmid] at hgives
    rw [hstore, hmid, Store.rank_of_none hbody]
    exact Store.rank_write_lt hgives hname

omit hgrants in
/-- There is time for a second wait if there was time for the first one and the margin. -/
theorem two_waits_lt {now wait margin deadline limit : Nat} (h : now + (wait + margin) < deadline)
    (hlimit : deadline + wait ≤ limit + margin) : now + wait + wait < limit := by
  omega

variable (task) in
/-- **Turn after turn there is less to be done.** -/
theorem meets_turns (hwait : 0 < ctx.settings.jobWait)
    (hlimit : task.deadline + ctx.settings.jobWait ≤ limit + turnMargin) (rounds : Nat) (lastPop : Duration)
    (hlawful : calm → w.Lawful (law ctx.settings task.tablePrefix keys))
    (heffort : calm → effort ctx.settings keys.length task.tablePrefix task.deadline w < rounds) :
    (turns ctx task rounds lastPop).Meets (timed ids limit) (¬ calm) (.ofTable task.tablePrefix ctx.settings.jobPrefix)
        (fun _ _ _ => True) version w := by
  induction rounds generalizing lastPop version w with
  | zero => exact Leased.meets_lift (meets_halt .cutOff fun hcalm => Nat.not_lt_zero _ (heffort hcalm))
  | succ rounds ih =>
    refine (Leased.meets_lift meets_now).bind fun now _ w₁ h => ?_
    obtain ⟨rfl, rfl⟩ := h
    split
    · rename_i htime
      have hearly : w₁.elapsed < task.deadline := Nat.lt_of_le_of_lt (Nat.le_add_right _ _) htime
      refine (meets_turn hgrants hwait lastPop hlawful (two_waits_lt htime hlimit)).bind fun led _ w₂ h => ?_
      split
      · rename_i lastPop
        refine ih lastPop (fun hcalm => (h lastPop rfl hcalm).2) fun hcalm => ?_
        obtain ⟨hadvances, hlawful₂⟩ := h lastPop rfl hcalm
        have hless := effort_lt hadvances hearly (length_keys_le hlawful₂) (ends_of_lawful hlawful₂)
        exact Nat.lt_of_lt_of_le hless (Nat.le_of_lt_succ (heffort hcalm))
      · exact Leased.meets_pure trivial
    · exact Leased.meets_lift ((prompt_handOver task).prompts w₁)

end Subscriber

/-! ## Runs -/

/-- A blank lock names no job. -/
theorem LockBody.tagFits_nil (jobPrefix : String) : TagFits jobPrefix [] := by
  intro id base index hid
  rw [ofOctets?] at hid
  cases hid

theorem Claim.meets_takeObject {ids : Nat → String} {limit stop : Duration} {cut calm : Prop} {law : Law}
    {still : Store → Prop} {w s : World} (trigger : ObjectInfo) (h : w.Goes calm law stop still s)
    (hclaim : calm → law.writes (key trigger.key trigger.created) []) :
    (takeObject trigger).Meets (timed ids limit) cut (fun _ => w.Goes calm law stop fun _ => True) s := by
  have hput : (Invocation.put (key trigger.key trigger.created) [] .absent).Meets (timed ids limit) cut
      (fun _ => w.Goes calm law stop fun _ => True) s := by
    refine ⟨admits_of_isPrompt trivial, fun reply s' hr _ _ => ?_⟩
    exact h.answer hr trivial (fun _ _ _ e => by cases e; exact hclaim) fun _ => trivial
  refine hput.bind fun result _ h₁ => ?_
  cases result with
  | written => exact meets_pure h₁
  | conflict => exact meets_ofExcept fun _ e => by cases e

namespace Subscriber

section Run

variable {ids : Nat → String} {limit : Duration} {calm : Prop} {ctx : Context} {tablePrefix : String} {w : World}
  {version : Option String}
  (hgrants : ∀ claim, Grants calm ids limit tablePrefix (claim :: TableLock.keyOf tablePrefix :: w.keysToBe) ctx)
  (hwait : 0 < ctx.settings.jobWait) {budget : Duration} (hbudget : ctx.settings.subscriberBudget = .ok budget)
  (hlimit : w.elapsed + budget + ctx.settings.jobWait ≤ limit + turnMargin)
  (hclock : calm → w.elapsed + budget < clockLimit)
  (hlawful : calm → w.Lawful (law ctx.settings tablePrefix w.keysToBe))
  (hpatience : calm → (budget + 1) * Store.rankLimit (w.keysToBe.length + 2) * 2 ^ 32 ≤ ctx.patience)

include hgrants hwait hbudget hlimit hclock hlawful hpatience

theorem meets_work : (work ctx tablePrefix).Meets (timed ids limit) (¬ calm) (.ofTable tablePrefix ctx.settings.jobPrefix)
    (fun _ _ _ => True) version w := by
  have htime : (ofExcept ctx.settings.subscriberBudget).Meets (timed ids limit) (¬ calm)
      (fun b s => b = budget ∧ s = w) w := meets_ofExcept fun b e => ⟨Except.ok.inj (e.symm.trans hbudget), rfl⟩
  refine (Leased.meets_lift htime).bind fun b _ w₁ h => ?_
  obtain ⟨rfl, rfl⟩ := h
  refine (Leased.meets_lift (meets_after hclock)).bind fun deadline _ w₂ h => ?_
  obtain ⟨rfl, rfl⟩ := h
  refine (Leased.meets_lift ((reads_head _).idle.goes (Goes.refl hlawful))).bind fun found _ w₃ h₃ => ?_
  split
  · exact Leased.meets_pure trivial
  · rename_i trigger
    have hclaim : w₂.Goes calm (law ctx.settings tablePrefix
        (Claim.key trigger.key trigger.created :: TableLock.keyOf tablePrefix :: w₂.keysToBe)) w₂.elapsed
          (· = w₂.bucket.store) w₃ :=
      ⟨h₃.later, h₃.elapsed, fun hcalm => lawful_of_subset (h₃.lawful hcalm) fun _ hkey =>
        List.mem_cons_of_mem _ (List.mem_cons_of_mem _ hkey), h₃.still⟩
    refine (Leased.meets_lift (Claim.meets_takeObject trigger hclaim fun _ => ?_)).bind fun _ _ w₄ h₄ => ?_
    · exact ⟨List.mem_cons_self, fun _ => LockBody.tagFits_nil _⟩
    · refine (Leased.meets_lift meets_now).bind fun lastPop _ w₅ h => ?_
      obtain ⟨-, rfl⟩ := h
      refine meets_turns ⟨tablePrefix, .ofTable tablePrefix ctx.layout.gateName, trigger.version, w₂.elapsed + b⟩
        (hgrants _) hwait hlimit ctx.patience lastPop h₄.lawful fun hcalm => ?_
      have hspan : w₂.elapsed + b - w₅.elapsed ≤ b :=
        Nat.le_trans (Nat.sub_le_sub_left h₄.later _) (Nat.le_of_eq (Nat.add_sub_cancel_left _ _))
      exact Nat.lt_of_lt_of_le (effort_lt_of_le hspan (length_keys_le (h₄.lawful hcalm)) (ends_of_lawful (h₄.lawful hcalm)))
        (hpatience hcalm)

theorem meets_run : (run ctx tablePrefix).Meets (timed ids limit) (¬ calm) (fun _ _ => True) w := by
  refine (meets_work hgrants hwait hbudget hlimit hclock hlawful hpatience).life.bind fun outcome w₁ _ => ?_
  exact ((idle_count _).prompt.prompts w₁).bind fun _ _ _ => meets_pure trivial

end Run
end Subscriber

/-! ## In time -/

theorem Settings.jobPoll_pos_of_validate {settings : Settings} {pattern : KeyPattern}
    (h : settings.validate = .ok pattern) : 0 < settings.jobPoll := by
  refine Nat.pos_of_ne_zero fun hzero => ?_
  unfold validate at h
  cases hread : KeyPattern.read settings.keyPattern with
  | error e =>
    rw [hread] at h
    cases h
  | ok keys =>
    rw [hread] at h
    simp only [bind, Except.bind, throw, throwThe, MonadExceptOf.throw, hzero] at h
    split_ifs at h

theorem Settings.jobWait_lt_of_validate {settings : Settings} {pattern : KeyPattern}
    (h : settings.validate = .ok pattern) : settings.jobWait < settings.timeout - settings.restartBuffer := by
  have hbudget := subscriberBudget_of_validate h
  unfold subscriberBudget at hbudget
  simp only at hbudget
  split at hbudget
  · cases hbudget
  · rename_i hlt
    exact Nat.lt_of_not_le hlt

namespace World

variable {ids : Nat → String} {limit : Duration} {c : CloudCall} {w : World}

theorem elapsed_of_admits {start : Duration} (h : (timed ids limit).admits c w)
    (hw : w.elapsed = start ∨ w.elapsed < limit) :
    (answerFrom ids c w).2.elapsed = start ∨ (answerFrom ids c w).2.elapsed < limit := by
  cases c with
  | sleep span => exact .inr (h span rfl)
  | _ =>
    rw [elapsed_answerFrom ids (by trivial) w]
    exact hw

/-- **A program that sleeps only up to a limit ends there**, and is cut off only under its condition. -/
theorem runFrom_of_meets {α : Type} {cut : Prop} {x : Invocation α} {good : α → World → Prop}
    (h : x.Meets (timed ids limit) cut good w) :
    ((w.runFrom ids x.run).2.elapsed = w.elapsed ∨ (w.runFrom ids x.run).2.elapsed < limit) ∧
      ((w.runFrom ids x.run).1 = none → cut) := by
  have hinv : ∀ c s, (timed ids limit).admits c s → (s.elapsed = w.elapsed ∨ s.elapsed < limit) →
      ((answerFrom ids c s).2.elapsed = w.elapsed ∨ (answerFrom ids c s).2.elapsed < limit) :=
    fun _ _ => elapsed_of_admits
  have hrun := Program.Meets.run (fun _ _ => rfl) hinv h (.inl rfl)
  exact ⟨hrun.1, hrun.2.2⟩

end World

namespace Subscriber

variable {ctx : Context} {pattern : KeyPattern}

/-- A restart buffer that is as long as a wait, but for the margin, is enough for the second one. -/
theorem lt_timeout {now start timeout buffer wait margin : Nat}
    (h : now = start ∨ now + margin < start + (timeout - buffer) + wait) (hbuffer : wait ≤ buffer + margin)
    (hwait : wait < timeout - buffer) : now < start + timeout := by
  omega

/-- **How a subscriber ends** to whom its host grants some patience, and what it leaves. -/
def ending (ids : Nat → String) (w : World) (ctx : Context) (tablePrefix : String) (patience : Nat) :
    Option (Except Failure SubscriberOutcome) × World :=
  w.runFrom ids (run { ctx with patience := patience } tablePrefix).run

/-- **What a subscriber needs to come to its end**: room for the parts in the names of its jobs, as many objects as can be
counted, jobs that end and do not count too many rows, no part in the lock after which there is no other, and time that the
clock can tell. -/
structure Manageable (ctx : Context) (tablePrefix : String) (w : World) : Prop where
  room : JobId.HasRoom ctx.settings.jobPrefix (w.keysToBe.length + 2)
  few : w.keysToBe.length + 2 < 2 ^ 64
  -- A job that does not end is waited for as long as there is time, if a wait has room for a question.
  ends : ∀ script, w.Follows script → ctx.settings.jobPoll ≤ ctx.settings.jobWait ∨ script.Ends
  rows : ∀ script, w.Follows script → ctx.settings.failOnZeroRows = true → script.rows < 2 ^ 64
  tags : ∀ body, w.Holds (TableLock.keyOf tablePrefix) body → LockBody.TagFits ctx.settings.jobPrefix body
  clock : w.elapsed + (ctx.settings.timeout - ctx.settings.restartBuffer) + ctx.settings.jobWait + ctx.settings.jobPoll <
    clockLimit

/-- So many rounds are enough. -/
def roundsFor (ctx : Context) (w : World) : Nat :=
  ((ctx.settings.timeout - ctx.settings.restartBuffer) + 1) * Store.rankLimit (w.keysToBe.length + 2) * 2 ^ 32 +
    (ctx.settings.jobWait + 1)

section Valid

variable (hvalid : ctx.settings.validate = .ok pattern) (hwait : 0 < ctx.settings.jobWait) (ids : Nat → String)
  (w : World) (tablePrefix : String)

include hvalid hwait

theorem elapsed_ending (patience : Nat) : (ending ids w ctx tablePrefix patience).2.elapsed = w.elapsed ∨
    (ending ids w ctx tablePrefix patience).2.elapsed + turnMargin <
      w.elapsed + (ctx.settings.timeout - ctx.settings.restartBuffer) + ctx.settings.jobWait := by
  -- Nothing is said here about an end, so the run may be cut off anywhere.
  have hgrants : ∀ limit claim, Grants False ids limit tablePrefix
      (claim :: TableLock.keyOf tablePrefix :: w.keysToBe) { ctx with patience := patience } := fun _ _ =>
    ⟨Settings.jobPoll_pos_of_validate hvalid, False.elim, False.elim, False.elim, False.elim, False.elim, False.elim⟩
  have hrun := runFrom_of_meets (meets_run (hgrants _) hwait (Settings.subscriberBudget_of_validate hvalid)
    (Nat.le_add_of_sub_le (Nat.le_refl _)) False.elim False.elim False.elim)
  exact hrun.1.imp_right Nat.add_lt_of_lt_sub

theorem isSome_ending (hids : ∀ n, JobId.IsSuffix (ids n)) (h : Manageable ctx tablePrefix w) {patience : Nat}
    (hpatience : roundsFor ctx w ≤ patience) : (ending ids w ctx tablePrefix patience).1.isSome = true := by
  have hpoll : 0 < ctx.settings.jobPoll := Settings.jobPoll_pos_of_validate hvalid
  have hrounds : ctx.settings.jobWait < patience * ctx.settings.jobPoll :=
    Nat.lt_of_lt_of_le (Nat.le_trans (Nat.le_add_left _ _) hpatience) (Nat.le_mul_of_pos_right _ hpoll)
  have hgrants : ∀ claim, Grants True ids
      (w.elapsed + (ctx.settings.timeout - ctx.settings.restartBuffer) + ctx.settings.jobWait) tablePrefix
      (claim :: TableLock.keyOf tablePrefix :: w.keysToBe) { ctx with patience := patience } := fun _ =>
    ⟨hpoll, fun _ => hrounds, fun _ => hids, fun _ => Nat.le_of_lt h.clock, fun _ => h.room,
      fun _ => List.mem_cons_of_mem _ List.mem_cons_self, fun _ => h.few⟩
  have hclock : w.elapsed + (ctx.settings.timeout - ctx.settings.restartBuffer) < clockLimit :=
    Nat.lt_of_le_of_lt (Nat.le_trans (Nat.le_add_right _ _) (Nat.le_add_right _ _)) h.clock
  have hlawful : w.Lawful (law ctx.settings tablePrefix w.keysToBe) := by
    refine ⟨fun {key body} hholds => ⟨hholds.mem_keysToBe, ?_⟩, fun {script} hscript => ?_⟩
    · rintro rfl
      exact h.tags body hholds
    · exact ⟨h.ends script hscript, h.rows script hscript⟩
  have hrun := runFrom_of_meets (meets_run hgrants hwait (Settings.subscriberBudget_of_validate hvalid)
    (Nat.le_add_right _ _) (fun _ => hclock) (fun _ => hlawful) fun _ => Nat.le_trans (Nat.le_add_right _ _) hpatience)
  exact Option.isSome_iff_ne_none.2 fun hnone => hrun.2 hnone trivial

/-- **A subscriber ends in time**: at once, or before its deadline and one wait more, less the margin.  It does end, with
patience enough, where the work can be managed. -/
theorem ends_in_time :
    (∀ patience, ((ending ids w ctx tablePrefix patience).2.elapsed = w.elapsed ∨
        (ending ids w ctx tablePrefix patience).2.elapsed + turnMargin <
          w.elapsed + (ctx.settings.timeout - ctx.settings.restartBuffer) + ctx.settings.jobWait) ∧
      (ctx.settings.jobWait ≤ ctx.settings.restartBuffer + turnMargin →
        (ending ids w ctx tablePrefix patience).2.elapsed < w.elapsed + ctx.settings.timeout)) ∧
    ((∀ n, JobId.IsSuffix (ids n)) → Manageable ctx tablePrefix w → ∀ patience, roundsFor ctx w ≤ patience →
      (ending ids w ctx tablePrefix patience).1.isSome = true) := by
  refine ⟨fun patience => ?_, fun hids h patience => isSome_ending hvalid hwait ids w tablePrefix hids h⟩
  have helapsed := elapsed_ending hvalid hwait ids w tablePrefix patience
  exact ⟨helapsed, fun hbuffer => lt_timeout helapsed hbuffer (Settings.jobWait_lt_of_validate hvalid)⟩

end Valid

/-- Settings that are good: questions to a job are further apart than a wait for it is long. -/
def hasty : Context :=
  { Trial.context with settings := { Trial.context.settings with jobWait := .ofSeconds 1, jobPoll := .ofSeconds 2 } }

theorem validate_hasty : hasty.settings.validate.isOk = true := by decide +kernel

def drawn (n : Nat) : String := idOf (n % 16 ^ 12)

theorem isSuffix_drawn (n : Nat) : JobId.IsSuffix (drawn n) := isSuffix_idOf (Nat.mod_lt _ (by decide))

theorem manageable_table : Manageable hasty "d/t" (Trial.table Trial.pointers) := by
  have hplanned : (Trial.table Trial.pointers).planned = [] := (Trial.calm_table _).planned
  have hscript : ∀ script, (Trial.table Trial.pointers).Follows script → script = {} := by
    rintro script (hfollows | ⟨entry, hentry, -⟩)
    · unfold Trial.table at hfollows
      rw [warehouse_putAll] at hfollows
      obtain ⟨_, _, hjob, -⟩ | ⟨_, rfl⟩ := hfollows
      · cases hjob
      · rfl
    · rw [hplanned] at hentry
      cases hentry
  have hroom : JobId.HasRoom hasty.settings.jobPrefix ((Trial.table Trial.pointers).keysToBe.length + 2) :=
    JobId.hasRoom_of_short (by decide) (by decide +kernel)
  refine ⟨hroom, by decide +kernel, fun script h => ?_, fun script h _ => ?_, ?_, by decide +kernel⟩
  · rw [hscript script h]
    exact .inr (by decide)
  · rw [hscript script h]
    decide
  · rintro body (⟨object, hobject, -⟩ | ⟨entry, hentry, -⟩)
    · have hunlocked : (Trial.table Trial.pointers).bucket.store.get? (TableLock.keyOf "d/t") = none := by decide +kernel
      rw [hunlocked] at hobject
      cases hobject
    · rw [hplanned] at hentry
      cases hentry

/-- Two pointers are worked off in time. -/
theorem ends_in_time_table : Manageable hasty "d/t" (Trial.table Trial.pointers) ∧
    (∀ patience, (ending drawn (Trial.table Trial.pointers) hasty "d/t" patience).2.elapsed <
      (Trial.table Trial.pointers).elapsed + hasty.settings.timeout) ∧
    ∀ patience, roundsFor hasty (Trial.table Trial.pointers) ≤ patience →
      (ending drawn (Trial.table Trial.pointers) hasty "d/t" patience).1.isSome = true := by
  obtain ⟨pattern, hvalid⟩ := Settings.exists_pattern validate_hasty
  have h := ends_in_time hvalid (by decide) drawn (Trial.table Trial.pointers) "d/t"
  exact ⟨manageable_table, fun patience => (h.1 patience).2 (by decide), h.2 isSuffix_drawn manageable_table⟩

/-- The job that is not going to end. -/
def lasting : Job :=
  ⟨"gcf-ingest-d-t-a-_SUCCESS-00000000000040008000000000000001", ⟨none, "d", "t", none⟩, [], [], .load .null⟩

/-- A table whose lock names a job that is running for as many questions as are counted. -/
def waiting : World :=
  { (Trial.table Trial.pointers).given (TableLock.keyOf "d/t") (Utf8.encode lasting.id) with
    warehouse := (({ scriptOf := fun _ => { runningPolls := 2 ^ 32 - 1 } } : ScriptedWarehouse).submit lasting).2 }

/-- **A subscriber may not come to its end**, whatever patience its host has. -/
theorem endless_turns : hasty.settings.validate.isOk = true ∧ 0 < hasty.settings.jobWait ∧
    (∀ n, JobId.IsSuffix (drawn n)) ∧ ∀ patience, (ending drawn waiting hasty "d/t" patience).1 = none := by
  obtain ⟨pattern, hvalid⟩ := Settings.exists_pattern validate_hasty
  have hstuck : waiting.Stuck hasty.settings.jobPrefix "d/t" lasting.id :=
    ⟨by decide +kernel, by decide +kernel, ⟨_, _, 0⟩, rfl, by decide⟩
  obtain ⟨trigger, hposted⟩ : ∃ trigger, waiting.Posted "d/t" trigger := exists_posted hstuck.served (by decide +kernel)
  have hslow : hasty.settings.jobWait < hasty.settings.jobPoll := by decide
  have htime : hasty.settings.jobWait + turnMargin < hasty.settings.timeout - hasty.settings.restartBuffer := by decide
  have hstart : waiting.elapsed + (hasty.settings.timeout - hasty.settings.restartBuffer) < clockLimit := by decide +kernel
  have hroom : waiting.elapsed + hasty.settings.jobPoll < clockLimit := by decide +kernel
  exact ⟨validate_hasty, by decide, isSuffix_drawn, fun _ => run_eq_none_of_stuck hstuck hposted
    (Settings.subscriberBudget_of_validate hvalid) hslow htime hstart hroom⟩

end Subscriber
end Intake
