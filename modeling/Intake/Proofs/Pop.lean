import Intake.Proofs.Modest
import Intake.Proofs.Trial
/-!
# Pop — which pointer a subscriber deletes

A subscriber that has seen a job end lists the backlog, to see whether the job is one of the first pointer's marker, and
lists it again to delete the first pointer.  So what it deletes is the first pointer of the second listing, and what
speaks for it is the first pointer of the first one (`Pop.Due`).  The two are the same, unless between the listings the
one was deleted or another was added before it.
-/
namespace Intake

namespace Pop

/-- The backlog was listed in this store. -/
def listing (tablePrefix : String) (store : Store) : Deed :=
  ⟨store, .list (Backlog.folder tablePrefix) none, .ok (store.list (Backlog.folder tablePrefix) none)⟩

/-- The lock was read and named a job, and since then there was only waiting. -/
def Read (jobPrefix tablePrefix id : String) (waited log : List Deed) : Prop :=
  ∃ before store octets, log = before ++ ⟨store, .get (TableLock.keyOf tablePrefix), .ok octets⟩ :: waited ∧
    LockBody.ofOctets? jobPrefix octets = some (.job id) ∧ ∀ deed ∈ waited, deed.call.IsWaiting

/-- The job was seen to have ended well. -/
def Ended (id : String) (waited : List Deed) : Prop :=
  ∃ (store : Store) (status : JobStatus), ⟨store, .job id, .ok (some status)⟩ ∈ waited ∧ status.isDone = true ∧
    status.error = none

/-- **A pointer is due**: the lock named a job, which was seen to have ended; then the backlog was listed, and the
pointer was its first one and the job the last one of the pointer's marker. -/
structure Due (jobPrefix tablePrefix id pointer : String) (looked : Store) (log : List Deed) : Prop where
  log : ∃ earlier waited, log = earlier ++ [listing tablePrefix looked] ∧ Read jobPrefix tablePrefix id waited earlier ∧
    Ended id waited
  first : (looked.pointers tablePrefix).head? = some pointer
  isFor : JobId.isFor id jobPrefix (Backlog.markerFor pointer) = true
  last : (JobId.splitPart id).2 = none

/-- A pointer was due, and in the listing after that this one is the first. -/
def Popped (jobPrefix tablePrefix key : String) (log : List Deed) : Prop :=
  ∃ id pointer looked popped earlier, log = earlier ++ [listing tablePrefix popped] ∧
    Due jobPrefix tablePrefix id pointer looked earlier ∧ (popped.pointers tablePrefix).head? = some key

section Logs

variable {jobPrefix tablePrefix id key pointer : String} {waited log : List Deed}

theorem Popped.startsWith (h : Popped jobPrefix tablePrefix key log) :
    startsWith (Backlog.folder tablePrefix) key = true := by
  obtain ⟨-, -, -, popped, -, -, -, hkey⟩ := h
  exact Store.startsWith_of_mem_pointers (List.mem_of_head? hkey)

theorem Read.append (h : Read jobPrefix tablePrefix id waited log) {more : List Deed}
    (hmore : ∀ deed ∈ more, deed.call.IsWaiting) : Read jobPrefix tablePrefix id (waited ++ more) (log ++ more) := by
  obtain ⟨before, store, octets, rfl, hbody, hwaited⟩ := h
  refine ⟨before, store, octets, by simp, hbody, fun deed hdeed => ?_⟩
  exact (List.mem_append.1 hdeed).elim (hwaited deed) (hmore deed)

/-- The names of the jobs of a due pointer's marker are those with the body of its names. -/
theorem Due.isFor_iff {looked : Store} (h : Due jobPrefix tablePrefix id pointer looked log) (marker : String) :
    JobId.isFor id jobPrefix marker = true ↔
      JobId.body jobPrefix marker = JobId.body jobPrefix (Backlog.markerFor pointer) := by
  refine ⟨fun hfor => JobId.body_eq_of_isFor hfor h.isFor, fun hbody => ?_⟩
  obtain ⟨suffix, hsuffix, hname⟩ := JobId.isFor_iff.1 h.isFor
  refine JobId.isFor_iff.2 ⟨suffix, hsuffix, ?_⟩
  rw [hname, JobId.make, JobId.make, hbody]

/-- The first pointer stays the first one, if it is not deleted and none is added before it. -/
theorem first_eq {looked popped : Store} (hfirst : (looked.pointers tablePrefix).head? = some pointer)
    (hkey : (popped.pointers tablePrefix).head? = some key) (hstays : pointer ∈ popped.pointers tablePrefix)
    (hbefore : ∀ p ∈ popped.pointers tablePrefix, p < pointer → p ∈ looked.pointers tablePrefix) : key = pointer := by
  have hleast : ∀ p ∈ popped.pointers tablePrefix, ¬ p < pointer := by
    intro p hp hlt
    obtain ⟨rest, hrest⟩ := List.head?_eq_some_iff.1 hfirst
    have hsorted := looked.pointers_pairwise tablePrefix
    have hold := hbefore p hp hlt
    rw [hrest] at hsorted hold
    rcases List.mem_cons.1 hold with rfl | hold
    · exact String.lt_irrefl _ hlt
    · exact String.lt_irrefl _ (String.lt_trans hlt ((List.pairwise_cons.1 hsorted).1 p hold))
  exact Option.some.inj (hkey.symm.trans (Store.head?_pointers hstays hleast))

end Logs
end Pop

/-- The call is one that a subscriber of the table makes after these. -/
def CloudCall.IsOwn (jobPrefix tablePrefix : String) (log : List Deed) : CloudCall → Prop
  | .put key _ _ => key = TableLock.keyOf tablePrefix ∨ BackfillMarker.Owns tablePrefix key
  | .delete key _ => key = TableLock.keyOf tablePrefix ∨ key = BackfillMarker.keyOf tablePrefix ∨
    Pop.Popped jobPrefix tablePrefix key log
  | _ => True

section Own

variable {c : CloudCall} {jobPrefix tablePrefix : String} {log : List Deed}

theorem CloudCall.IsFree.isOwn (h : c.IsFree tablePrefix) : c.IsOwn jobPrefix tablePrefix log := by
  cases c with
  | put key => exact .inr h
  | delete key => exact .inr (.inl h)
  | submit => exact h.elim
  | _ => trivial

theorem CloudCall.IsPassive.isOwn (h : c.IsPassive) : c.IsOwn jobPrefix tablePrefix log :=
  (h.isFree tablePrefix).isOwn

end Own

namespace Pop

open Pool (Stand)

variable {later : Site → Site → Prop} {sound : Site → Prop} {ok : CloudCall → Stand → Prop} {s : Stand}

/-- Asking about a job is waiting for it, and what is said of it is written down. -/
theorem keeps_job {id : String} (hok : ∀ t, ok (.job id) t) : (Invocation.job id).Keeps (Stand.among later sound ok)
    (fun status t => ∃ waited, t.log = s.log ++ waited ∧ (∀ deed ∈ waited, deed.call.IsWaiting) ∧
      ∀ known, status = some known → ∃ store : Store, ⟨store, .job id, .ok (some known)⟩ ∈ waited) s := by
  refine Invocation.keeps_warehouse ⟨fun _ _ _ => hok _, fun reply t hr status e => ?_⟩
  obtain ⟨site, -, -, hanswers⟩ := hr
  refine ⟨[⟨site.store, .job id, reply⟩], hanswers.log, fun deed hdeed => ?_, ?_⟩
  · rw [List.mem_singleton.1 hdeed]
    trivial
  · rintro known rfl
    exact ⟨site.store, by rw [e]; exact List.mem_singleton_self _⟩

/-- The pointer that is taken away is the first one of another listing. -/
theorem keeps_pop {jobPrefix tablePrefix id pointer : String} {looked : Store}
    (hok : ∀ c t, c.IsOwn jobPrefix tablePrefix t.log → ok c t)
    (hdue : Due jobPrefix tablePrefix id pointer looked s.log) :
    (Backlog.pop tablePrefix).Keeps (Stand.among later sound ok) (fun _ _ => True) s := by
  refine (Stand.keeps_next fun _ => hok _ _ trivial).bind fun first t h => ?_
  obtain ⟨site, -, -, hfirst, hlog⟩ := h
  split
  · exact Invocation.keeps_pure trivial
  · rename_i key
    have hpopped : Popped jobPrefix tablePrefix key t.log := ⟨_, _, _, site.store, _, hlog, hdue, hfirst.symm⟩
    have hdelete : (Invocation.delete key .always).Keeps (Stand.among later sound ok) (fun _ _ => True) t :=
      Invocation.keeps_store ⟨fun _ _ _ => hok _ _ (.inr (.inr hpopped)), fun _ _ _ _ _ => trivial⟩
    exact hdelete.bind fun _ _ _ => Invocation.keeps_pure trivial

/-- **A subscriber makes only calls of its own table**, and takes only pointers away for which it has seen a job end. -/
def outline (ctx : Context) (tablePrefix : String)
    (hok : ∀ c t, c.IsOwn ctx.settings.jobPrefix tablePrefix t.log → ok c t) :
    Outline (Stand.among later sound ok) ctx tablePrefix :=
  have hpassive : ∀ {α : Type} {x : Invocation α} {s : Stand}, x.Only CloudCall.IsPassive →
      x.Keeps (Stand.among later sound ok) (fun _ _ => True) s := fun hx =>
    Stand.keeps_only hx fun c t hc => hok c t hc.isOwn
  have hwaiting : ∀ c t, CloudCall.IsWaiting c → ok c t := fun c t hc => hok c t hc.isPassive.isOwn
  { Seen := fun body _ s => ∀ id, body = some (.job id) →
      ∃ waited, Read ctx.settings.jobPrefix tablePrefix id waited s.log
    Told := fun id status _ s => ∃ waited, Read ctx.settings.jobPrefix tablePrefix id waited s.log ∧
      (∃ store : Store, ⟨store, .job id, .ok (some status)⟩ ∈ waited) ∧ status.isDone = true
    Over := fun id _ s => ∃ waited, Read ctx.settings.jobPrefix tablePrefix id waited s.log ∧ Ended id waited
    First := fun id q _ s => ∃ looked, (∃ earlier waited, s.log = earlier ++ [listing tablePrefix looked] ∧
      Read ctx.settings.jobPrefix tablePrefix id waited earlier ∧ Ended id waited) ∧
      q = (looked.pointers tablePrefix).head?
    Open := fun _ _ => True
    Next := fun _ _ _ => True
    Turn := fun _ _ _ _ _ => True
    Planned := fun _ _ _ _ _ _ => True
    Claimed := fun _ _ => True
    Mild := fun _ _ => True
    Start := fun _ => True
    posts := fun hx => Stand.keeps_only hx fun c t hc => hok c t hc.isFree.isOwn
    starts := fun hx _ => hpassive hx
    trigger := fun _ => Stand.keeps_trigger fun c t hc => hok c t hc.isOwn
    records := fun _ _ _ _ _ _ _ => hok _ _ (.inl rfl)
    lasts := fun _ _ _ => trivial
    mildSeen := fun _ => trivial
    mildTurn := fun _ => trivial
    readLock := by
      refine Leased.keeps_readLock (fun _ _ _ => hok _ _ trivial) (fun _ _ => nofun)
        (fun _ _ _ _ _ _ => hok _ _ trivial) ?_ (fun _ _ _ _ _ _ _ => nofun)
      rintro seen t octets u - ⟨site, -, -, hanswers⟩ id hbody
      exact ⟨[], t.log, site.store, octets, hanswers.log, hbody, nofun⟩
    waits := fun hseen hx => (Stand.keeps_waiting hx hwaiting).mono fun _ t h id hbody => by
      obtain ⟨more, hlog, hmore⟩ := h
      obtain ⟨waited, hread⟩ := hseen id hbody
      exact ⟨waited ++ more, hlog ▸ hread.append hmore⟩
    asks := fun hseen => (keeps_job fun t => hwaiting _ t trivial).mono fun status t h => by
      obtain ⟨more, hlog, hmore, htold⟩ := h
      obtain ⟨waited, hread⟩ := hseen _ rfl
      have hread' := hread.append hmore
      rw [← hlog] at hread'
      refine ⟨fun id hbody => ?_, fun known hknown hdone => ?_⟩
      · cases hbody
        exact ⟨_, hread'⟩
      · obtain ⟨store, hmem⟩ := htold known hknown
        exact ⟨_, hread', ⟨store, List.mem_append_right _ hmem⟩, hdone⟩
    checks := fun htold => (JobWatch.keeps_check fun hx => Stand.keeps_waiting hx hwaiting).mono fun _ t h => by
      obtain ⟨⟨more, hlog, hmore⟩, hwell⟩ := h
      obtain ⟨waited, hread, ⟨store, hmem⟩, hdone⟩ := htold
      exact ⟨waited ++ more, hlog ▸ hread.append hmore, store, _, List.mem_append_left _ hmem, hdone, hwell⟩
    looks := fun hover => (Stand.keeps_next fun _ => hok _ _ trivial).mono fun q t h => by
      obtain ⟨site, -, -, hq, hlog⟩ := h
      obtain ⟨waited, hread, hended⟩ := hover
      exact ⟨site.store, ⟨_, waited, hlog, hread, hended⟩, hq⟩
    vacant := fun _ => trivial
    empty := fun _ => trivial
    other := fun _ _ => trivial
    resumes := fun _ _ _ _ => trivial
    pops := fun hfirst hfor hlast => by
      obtain ⟨looked, hlooked, hpointer⟩ := hfirst
      exact keeps_pop hok ⟨hlooked, hpointer.symm, hfor, hlast⟩
    counts := fun _ => hpassive (Invocation.passive_count _)
    times := fun _ => hpassive Invocation.passive_now
    next := fun _ => hpassive (Backlog.reads_next _).passive
    releases := fun _ => Leased.keeps_releaseLock (fun _ => trivial) (fun _ _ _ _ _ => hok _ _ (.inl rfl))
      (fun _ _ _ _ _ _ => trivial)
    finds := fun _ => hpassive (Invocation.reads_head _).passive
    draws := fun _ => Invocation.keeps_ask (fun _ _ _ => hok _ _ trivial) fun _ _ _ => trivial
    findsAgain := fun _ => hpassive (Invocation.reads_head _).passive
    plans := fun _ => hpassive (Submission.reads_plan _ _).passive
    claims := fun _ _ => Leased.keeps_claimLock (fun _ _ _ => hok _ _ (.inl rfl))
      (fun _ _ _ => ⟨rfl, trivial, trivial⟩) (fun _ _ _ => trivial)
    submits := fun _ => Invocation.keeps_warehouse ⟨fun _ _ _ => hok _ _ trivial, fun _ _ _ _ _ => trivial⟩ }

/-- **Only subscribers delete pointers**, in the way that their calls show. -/
def discipline (jobPrefix tablePrefix : String) : Pool.Discipline (Pool.lenient jobPrefix tablePrefix) :=
  .ofCalls (fun errand c t => match errand with
    | .subscribe _ => c.IsOwn jobPrefix tablePrefix t.log
    | _ => c.IsModest tablePrefix) fun {errand _} hallows => by
    cases errand with
    | subscribe ctx =>
      obtain rfl := hallows
      exact ((outline ctx tablePrefix fun _ _ h => h).keeps_run trivial).plain
    | enqueue ctx marker => exact (keeps_enqueue_ensureSubscriber (fun hc _ _ _ => hc) hallows).plain
    | monitor ctx => exact ((Monitor.modest_ensureSubscriber ctx).keeps_all fun hc _ _ _ => hc).plain

/-- **A pointer is deleted by a subscriber only**, any number of them running side by side with enqueuings and monitors
of the table, and while others write and delete what they like.  The subscriber has just read the name of a job from the
lock, has seen the job end, and has found that its marker is that of the first pointer.  What it deletes is the first
pointer of another listing; it is the same one, if that was not deleted in between and none was added before it.  The
job's marker is known from its name only up to the body of the name. -/
theorem eq_due_of_deleted {jobPrefix tablePrefix key : String} {start pool : Pool Pool.Errand}
    {member : Member Pool.Errand} {before after : List Deed} {deed : Deed} {precondition : Precondition}
    (hmembers : start.members = [])
    (hsteps : Relation.ReflTransGen (Pool.Step (Pool.lenient jobPrefix tablePrefix)) start pool)
    (hmember : member ∈ pool.members) (hlog : member.log = before ++ deed :: after)
    (hdeed : deed.call = .delete key precondition) (hkey : startsWith (Backlog.folder tablePrefix) key = true) :
    (∃ ctx, member.errand = .subscribe ctx) ∧ ∃ id pointer looked popped earlier,
      before = earlier ++ [listing tablePrefix popped] ∧ Due jobPrefix tablePrefix id pointer looked earlier ∧
      (popped.pointers tablePrefix).head? = some key ∧
      (pointer ∈ popped.pointers tablePrefix →
        (∀ p ∈ popped.pointers tablePrefix, p < pointer → p ∈ looked.pointers tablePrefix) → key = pointer) ∧
      ∀ marker, JobId.isFor id jobPrefix marker = true ↔
        JobId.body jobPrefix marker = JobId.body jobPrefix (Backlog.markerFor pointer) := by
  have horderly := (discipline jobPrefix tablePrefix).orderly trivial hmembers hsteps
  obtain ⟨site, -, hok⟩ := horderly.wentOn member hmember before deed after hlog
  rw [hdeed] at hok
  have hmodest : ¬ CloudCall.IsModest tablePrefix (.delete key precondition) := by
    rintro rfl
    rw [Backlog.backfill_notMem_folder] at hkey
    cases hkey
  cases herrand : member.errand with
  | enqueue ctx marker => rw [herrand] at hok; exact absurd hok hmodest
  | monitor ctx => rw [herrand] at hok; exact absurd hok hmodest
  | subscribe ctx =>
    rw [herrand] at hok
    refine ⟨⟨ctx, rfl⟩, ?_⟩
    rcases hok with rfl | rfl | ⟨id, pointer, looked, popped, earlier, hbefore, hdue, hpopped⟩
    · rw [Backlog.lock_notMem_folder] at hkey
      cases hkey
    · exact absurd rfl hmodest
    · exact ⟨id, pointer, looked, popped, earlier, hbefore, hdue, hpopped, first_eq hdue.first hpopped, hdue.isFor_iff⟩

/-! ## Two runs on the trial table -/

def subscriber : Pool.Errand := .subscribe Trial.context

/-- A subscriber of the trial table, with one pointer, that has just listed the backlog after a job has ended. -/
def looking : CloudProgram (Except Failure Unit) × World :=
  (Trial.table ["d/t/_backlog/b/_SUCCESS"]).runFor 29 (Pool.Errand.program "d/t" subscriber)

/-- It goes on to list the backlog again. -/
def popping : CloudProgram (Except Failure Unit) × World := looking.2.runFor 1 looking.1

theorem steps_looking : ∃ since log, Relation.ReflTransGen (Pool.Step (Pool.lenient "gcf-ingest-" "d/t"))
    ⟨(Trial.table ["d/t/_backlog/b/_SUCCESS"]).site, (Trial.table ["d/t/_backlog/b/_SUCCESS"]).elapsed, []⟩
    ⟨looking.2.site, looking.2.elapsed, [⟨subscriber, looking.1, since, log⟩]⟩ ∧ since ≤ looking.2.elapsed ∧
    looking.2.Steady (fun _ => True) 50 := by
  have hsteady : (Trial.table ["d/t/_backlog/b/_SUCCESS"]).Steady (fun _ => True) 79 :=
    Trial.steady_table _ trivial (by decide)
  have habides := World.abides_lenient "gcf-ingest-" "d/t"
  have hallows : (Pool.lenient "gcf-ingest-" "d/t").allows subscriber := rfl
  have hjoin := Pool.Step.enter hallows (Trial.table ["d/t/_backlog/b/_SUCCESS"]).site
    (Trial.table ["d/t/_backlog/b/_SUCCESS"]).elapsed []
  obtain ⟨since, log, hsteady, hsince, -, hsteps⟩ := World.steps_runFor habides hsteady (show 29 ≤ 79 by decide)
    looking.eq_1 (Nat.le_refl _) subscriber [] [] []
  exact ⟨since, log, .head hjoin hsteps, hsince, hsteady⟩

def enqueuing : Pool.Errand := .enqueue Trial.context "d/t/a/_SUCCESS"

/-- Before it does, another pointer is added before the first one. -/
def overtaken : CloudProgram (Except Failure Unit) × World :=
  looking.2.runFor 3 (Pool.Errand.program "d/t" enqueuing)

/-- The subscriber lists the backlog with that pointer before the one that it has worked for. -/
def popped : CloudProgram (Except Failure Unit) × World := overtaken.2.runFor 1 looking.1

/-- The subscriber deletes the pointer that is due. -/
theorem eq_due_of_deleted_trial : ∃ (pool : Pool Pool.Errand) (member : Member Pool.Errand) (before : List Deed)
    (store : Store) (precondition : Precondition) (reply : Except StoreFault DeleteResult),
    member ∈ pool.members ∧
    member.log = before ++ [⟨store, .delete "d/t/_backlog/b/_SUCCESS" precondition, reply⟩] ∧
    ∃ id pointer looked popped earlier, before = earlier ++ [listing "d/t" popped] ∧
      Due "gcf-ingest-" "d/t" id pointer looked earlier := by
  obtain ⟨since, log, hlooking, hsince, hsteady⟩ := steps_looking
  have habides := World.abides_lenient "gcf-ingest-" "d/t"
  obtain ⟨since, log, hsteady', -, -, hpopping⟩ := World.steps_runFor habides hsteady (show 1 ≤ 50 by decide)
    popping.eq_1 hsince subscriber log [] []
  have hdeleting : World.deleting? popping.1 = some "d/t/_backlog/b/_SUCCESS" := by decide +kernel
  generalize popping = reached at hpopping hsteady' hdeleting
  obtain ⟨precondition, next, hnext⟩ := World.exists_of_deleting? hdeleting
  let member : Member Pool.Errand := ⟨subscriber, reached.1, since, log⟩
  let answer := World.answer (.delete "d/t/_backlog/b/_SUCCESS" precondition) reached.2
  let member' : Member Pool.Errand := ⟨subscriber, next answer.1, reached.2.elapsed,
    log ++ [⟨reached.2.site.store, .delete "d/t/_backlog/b/_SUCCESS" precondition, answer.1⟩]⟩
  have hmember : [member][0]? = some member := rfl
  have hanswers : Site.Answers (.delete "d/t/_backlog/b/_SUCCESS" precondition) reached.2.site answer.1 answer.2.site :=
    World.answers hsteady'.calm (Nat.lt_of_le_of_lt (Nat.add_le_add_left (by decide) _) hsteady'.room) _
  have hdelete : Pool.Step (Pool.lenient "gcf-ingest-" "d/t") ⟨reached.2.site, reached.2.elapsed, [member]⟩ _ :=
    .call hmember hnext hanswers trivial
  obtain ⟨-, id, pointer, looked, popped, earlier, hbefore, hdue, -⟩ := eq_due_of_deleted rfl
    ((hlooking.trans hpopping).tail hdelete) (List.mem_singleton_self member') rfl rfl (by decide +kernel)
  exact ⟨⟨answer.2.site, reached.2.elapsed, [member']⟩, member', log, _, precondition, answer.1, List.mem_singleton_self _, rfl, id,
    pointer, looked, popped, earlier, hbefore, hdue⟩

/-- **A pointer that is added between the listings is deleted in place of the one that is due**, though no job of its
marker was ever submitted. -/
theorem deleted_ne_due_overtaken : ∃ (start pool : Pool Pool.Errand) (member : Member Pool.Errand) (id : String)
    (precondition : Precondition) (next : Except StoreFault DeleteResult → CloudProgram (Except Failure Unit)),
    start.members = [] ∧ Relation.ReflTransGen (Pool.Step (Pool.lenient "gcf-ingest-" "d/t")) start pool ∧
    member ∈ pool.members ∧ member.errand = .subscribe Trial.context ∧
    member.program = Program.ask (I := Cloud) (.delete "d/t/_backlog/a/_SUCCESS" precondition) next ∧
    pool.site.store.lockBody "gcf-ingest-" "d/t" = some (.job id) ∧
    pool.site.ids = [id] ∧
    JobId.isFor id "gcf-ingest-" (Backlog.markerFor "d/t/_backlog/a/_SUCCESS") = false := by
  obtain ⟨since, log, hlooking, hsince, hsteady⟩ := steps_looking
  have habides := World.abides_lenient "gcf-ingest-" "d/t"
  have hallows : (Pool.lenient "gcf-ingest-" "d/t").allows enqueuing := rfl
  obtain ⟨since', log', hsteady', -, -, hpushing⟩ := World.steps_runFor habides hsteady (show 3 ≤ 50 by decide)
    overtaken.eq_1 (Nat.le_refl _) enqueuing [] [⟨subscriber, looking.1, since, log⟩] []
  obtain ⟨since'', log'', -, -, -, hpopping⟩ := World.steps_runFor habides hsteady' (show 1 ≤ 50 - 3 by decide)
    popped.eq_1 (Nat.le_trans hsince (World.elapsed_le_runFor overtaken.eq_1)) subscriber log []
    [⟨enqueuing, overtaken.1, since', log'⟩]
  have hpopped : World.deleting? popped.1 = some "d/t/_backlog/a/_SUCCESS" ∧
      popped.2.site.store.lockBody "gcf-ingest-" "d/t" =
        some (.job "gcf-ingest-d-t-b-_SUCCESS-00000000000040008000000000000001") ∧
      popped.2.site.ids = ["gcf-ingest-d-t-b-_SUCCESS-00000000000040008000000000000001"] := by decide +kernel
  -- how the three got there matters no more
  generalize popped = third at hpopping hpopped
  generalize overtaken = second at hpushing hpopping
  generalize looking = first at hlooking hpushing hpopping
  have hjoin := Pool.Step.enter hallows first.2.site first.2.elapsed [⟨subscriber, first.1, since, log⟩]
  obtain ⟨precondition, next, hnext⟩ := World.exists_of_deleting? hpopped.1
  exact ⟨_, _, _, _, precondition, next, rfl, (hlooking.tail hjoin).trans (hpushing.trans hpopping), List.mem_cons_self,
    rfl, hnext, hpopped.2.1, hpopped.2.2, by decide +kernel⟩

end Pop
end Intake
