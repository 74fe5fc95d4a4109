import Intake.Proofs.Outline
import Intake.Proofs.Site
/-!
# Scene — the moves of a subscriber that is the only one

A scene is a site together with all that has happened there.  While a subscriber works, others act only when it sleeps,
and never on the lock.  Then every call that changes something is one of a few moves (`Scene.Guard`): it takes the lock
for the next job of the first pointer, submits the job that it has just taken the lock for, takes away the first pointer
when the last job of its marker has ended, gives up the lock of an empty backlog, or leaves a failure in the lock.  What
a chain of subscribers achieves follows from these moves alone.
-/
namespace Intake

/-- Something that happened: a call of a subscriber, or what others wrote or deleted. -/
inductive Event where
  | call (c : CloudCall) (reply : c.Reply)
  | wrote (key : String)
  | removed (key : String)

def Event.IsCall : Event → Prop
  | .call _ _ => True
  | _ => False

/-! ## The backlog of a store -/

/-- The pointers of a table's backlog, in order. -/
def Store.pointers (store : Store) (tablePrefix : String) : List String :=
  store.keys.filter (startsWith (Backlog.folder tablePrefix))

namespace Store

variable {store : Store} {tablePrefix key pointer : String}

theorem pointers_eq_list (store : Store) (tablePrefix : String) :
    store.pointers tablePrefix = (store.list (Backlog.folder tablePrefix) none).objects.map (·.key) :=
  (list_keys store _).symm

theorem pointers_pairwise (store : Store) (tablePrefix : String) : (store.pointers tablePrefix).Pairwise (· < ·) :=
  store.keys_pairwise.sublist List.filter_sublist

theorem pointers_nodup (store : Store) (tablePrefix : String) : (store.pointers tablePrefix).Nodup :=
  store.keys_nodup.sublist List.filter_sublist

theorem startsWith_of_mem_pointers (h : pointer ∈ store.pointers tablePrefix) :
    startsWith (Backlog.folder tablePrefix) pointer = true :=
  (List.mem_filter.1 h).2

theorem hides_of_startsWith {start : String} (h : startsWith start key = false) : Hides start none key := by
  intro object
  cases hs : dropStart? start key with
  | none => simp [shown, hs]
  | some rest =>
    rw [startsWith_iff.2 ⟨rest, dropStart?_eq_some.1 hs⟩] at h
    cases h

theorem pointers_write (body : Octets) (now : Timestamp) (h : startsWith (Backlog.folder tablePrefix) key = false) :
    (store.write key body now).pointers tablePrefix = store.pointers tablePrefix := by
  rw [pointers_eq_list, list_objects_write store body now (hides_of_startsWith h), ← pointers_eq_list]

theorem pointers_remove (h : startsWith (Backlog.folder tablePrefix) key = false) :
    (store.remove key).pointers tablePrefix = store.pointers tablePrefix := by
  rw [pointers_eq_list, list_objects_remove store (hides_of_startsWith h), ← pointers_eq_list]

theorem pointers_remove_eq_filter (store : Store) (tablePrefix key : String) :
    (store.remove key).pointers tablePrefix = (store.pointers tablePrefix).filter (· ≠ key) := by
  rw [pointers, keys_remove, List.filter_filter, pointers, List.filter_filter]
  exact List.filter_congr fun _ _ => Bool.and_comm _ _

/-- Taking the first pointer away leaves the others. -/
theorem pointers_remove_head {rest : List String} (h : store.pointers tablePrefix = pointer :: rest) :
    (store.remove pointer).pointers tablePrefix = rest := by
  have hnot : pointer ∉ rest := (List.nodup_cons.1 (h ▸ store.pointers_nodup tablePrefix)).1
  rw [pointers_remove_eq_filter, h, List.filter_cons_of_neg (by simp), List.filter_eq_self]
  intro other hother
  simpa using fun he : other = pointer => hnot (he ▸ hother)

/-- The first pointer is the one before which no other sorts. -/
theorem head?_pointers (hmem : pointer ∈ store.pointers tablePrefix)
    (hleast : ∀ q ∈ store.pointers tablePrefix, ¬ q < pointer) :
    (store.pointers tablePrefix).head? = some pointer := by
  have hsorted := store.pointers_pairwise tablePrefix
  cases hl : store.pointers tablePrefix with
  | nil => rw [hl] at hmem; cases hmem
  | cons first rest =>
    rw [hl] at hmem hsorted hleast
    rcases List.mem_cons.1 hmem with rfl | hrest
    · rfl
    · exact absurd ((List.pairwise_cons.1 hsorted).1 _ hrest) (hleast first List.mem_cons_self)

theorem isSome_of_mem_pointers (h : pointer ∈ store.pointers tablePrefix) : (store.get? pointer).isSome = true :=
  Fields.isSome_get?_of_mem (List.mem_filter.1 h).1

@[simp]
theorem gives_next (store : Store) (tablePrefix : String) :
    store.gives (Backlog.next tablePrefix) = some (store.pointers tablePrefix).head? := by
  simp only [Backlog.next, gives_bind, gives_list, Option.bind_some, gives_pure, pointers_eq_list, List.head?_map]

end Store

/-- The pointers that may be in the backlog: no two of their markers share the body of their names. -/
structure Roster (jobPrefix : String) where
  has : String → Prop
  distinct : ∀ {q q' : String}, has q → has q' →
    JobId.body jobPrefix (Backlog.markerFor q) = JobId.body jobPrefix (Backlog.markerFor q') → q = q'

structure Scene where
  site : Site
  log : List Event

namespace Scene

/-- The job was seen to have ended well. -/
def EndedWell (id : String) (log : List Event) : Prop :=
  ∃ status : JobStatus, Event.call (.job id) (.ok (some status)) ∈ log ∧ status.isDone = true ∧ status.error = none

/-! ## Moves -/

section Moves

variable (ctx : Context) (tablePrefix : String)

def lock (s : Scene) : Option LockBody := s.site.store.lockBody ctx.settings.jobPrefix tablePrefix

/-- **The job that is due in a store**: a part of what is planned for the marker of the first pointer, under a name with
this suffix. -/
structure DueJob (store : Store) (pointer suffix : String) (plan : Plan) (part : Nat) (job : Job) : Prop where
  head : (store.pointers tablePrefix).head? = some pointer
  planned : store.gives (Submission.plan ctx (Backlog.markerFor pointer)) = some plan
  hex : JobId.IsSuffix suffix
  isPart : ∃ content, plan.job? part = some content ∧ job = { content with
    id := plan.nameOf (JobId.make ctx.settings.jobPrefix (Backlog.markerFor pointer) suffix) part }

/-- **What the lock says when it is taken for a part**: for the first one, under a suffix that no job has, nothing or a
job of another marker that has ended; for a later one, the part before it, which has ended. -/
inductive Turn (s : Scene) (pointer suffix : String) : Nat → Prop where
  | first (hdrawn : suffix ∈ s.site.drawn)
      (hfresh : ∀ job ∈ s.site.accepted, ∀ marker,
        (JobId.splitPart job.id).1 ≠ JobId.make ctx.settings.jobPrefix marker suffix)
      (hlock : s.lock ctx tablePrefix = none ∨ ∃ id, s.lock ctx tablePrefix = some (.job id) ∧ EndedWell id s.log ∧
        JobId.isFor id ctx.settings.jobPrefix (Backlog.markerFor pointer) = false) : Turn s pointer suffix 0
  | next {id : String} {index : Nat} (hlock : s.lock ctx tablePrefix = some (.job id)) (hended : EndedWell id s.log)
      (hsplit : JobId.splitPart id =
        (JobId.make ctx.settings.jobPrefix (Backlog.markerFor pointer) suffix, some index)) :
    Turn s pointer suffix (JobId.nextIndex index)

/-- The files of a marker were listed in this store, and nobody else has acted since. -/
def Gathered (marker : String) (store : Store) (log : List Event) : Prop :=
  ∃ before after, log = before ++ Event.call (.list (Submission.dataPrefix marker) (some "/"))
    (.ok (store.list (Submission.dataPrefix marker) (some "/"))) :: after ∧ ∀ e ∈ after, e.IsCall

/-- The job may be submitted: the lock was just taken for it. -/
def Announced (s : Scene) (job : Job) : Prop :=
  ∃ store now pointer suffix plan part, s.site.store = store.write (TableLock.keyOf tablePrefix) (Utf8.encode job.id) now ∧
    DueJob ctx tablePrefix store pointer suffix plan part job ∧ suffix ∈ s.site.drawn ∧
    Gathered (Backlog.markerFor pointer) store s.log

/-- The lock may be given up: the backlog is empty, and no job is under way. -/
def Drained (s : Scene) : Prop :=
  s.site.store.pointers tablePrefix = [] ∧
    (s.lock ctx tablePrefix = none ∨ ∃ id, s.lock ctx tablePrefix = some (.job id) ∧ EndedWell id s.log)

/-- The pointer may be taken away: it is the first one, and the last job of its marker has ended. -/
def Finished (s : Scene) (pointer : String) : Prop :=
  (s.site.store.pointers tablePrefix).head? = some pointer ∧ ∃ id, s.lock ctx tablePrefix = some (.job id) ∧
    EndedWell id s.log ∧ JobId.isFor id ctx.settings.jobPrefix (Backlog.markerFor pointer) = true ∧
    (JobId.splitPart id).2 = none

/-- **The moves of a subscriber.** -/
def Guard : CloudCall → Scene → Prop
  | .put key body _, s => key = TableLock.keyOf tablePrefix ∧
      ((∃ text, LockBody.ofOctets? ctx.settings.jobPrefix body = some (.manual text)) ∨
        ∃ pointer suffix plan part job, body = Utf8.encode job.id ∧
          DueJob ctx tablePrefix s.site.store pointer suffix plan part job ∧ Turn ctx tablePrefix s pointer suffix part) ∨
    BackfillMarker.Owns tablePrefix key
  | .delete key _, s => key = TableLock.keyOf tablePrefix ∧ Drained ctx tablePrefix s ∨
    Finished ctx tablePrefix s key ∨ key = BackfillMarker.keyOf tablePrefix
  | .submit job, s => Announced ctx tablePrefix s job
  | _, _ => True

end Moves

/-! ## What may come of them -/

/-- The warehouse knows only of jobs that it has accepted. -/
def Honest : (c : CloudCall) → c.Reply → Site → Prop
  | .job id, .ok (some _), site => id ∈ site.ids
  | _, _, _ => True

/-- **What may come of a call**, which is written down. -/
structure Replies (c : CloudCall) (s : Scene) (reply : c.Reply) (s' : Scene) : Prop where
  site : Site.Answers c s.site reply s'.site
  honest : Honest c reply s.site
  log : s'.log = s.log ++ [.call c reply]

/-- **What is true of every scene of a chain of subscribers**: the suffixes of all jobs were drawn, what was seen of jobs
is about accepted ones, and the backlog holds only pointers of the roster. -/
structure Basic {jobPrefix : String} (tablePrefix : String) (roster : Roster jobPrefix) (s : Scene) : Prop where
  drawn : ∀ job ∈ s.site.accepted, ∀ marker suffix, JobId.IsSuffix suffix →
    (JobId.splitPart job.id).1 = JobId.make jobPrefix marker suffix → suffix ∈ s.site.drawn
  seen : ∀ id status, Event.call (.job id) (.ok (some status)) ∈ s.log → id ∈ s.site.ids
  listed : ∀ q ∈ s.site.store.pointers tablePrefix, roster.has q

end Scene
end Intake
