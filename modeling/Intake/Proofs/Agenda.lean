import Intake.Proofs.Relay
/-!
# Agenda — how far the work on a backlog has come

The jobs that are due for the pointers of a backlog are fixed.  At every point of a chain of subscribers the accepted jobs
are those of the pointers that were taken away, in that order, followed by the first ones of the pointer that is worked
on; what the lock says tells which (`Agenda.Phase`).  Every move keeps this true (`Progress.of_move`), and so do others
who only add pointers after the one that is worked on (`Progress.of_outside`).
-/
namespace Intake

open Scene Relay

/-- The jobs that are planned in a store for the marker of a pointer, without their names. -/
def Store.planned (ctx : Context) (store : Store) (pointer : String) : List Job :=
  match store.gives (Submission.plan ctx (Backlog.markerFor pointer)) with
  | some plan => plan.jobs.map Job.content
  | none => []

theorem Store.planned_congr {ctx : Context} {store store' : Store} {pointer : String}
    (h : store'.gives (Submission.plan ctx (Backlog.markerFor pointer)) =
      store.gives (Submission.plan ctx (Backlog.markerFor pointer))) :
    store'.planned ctx pointer = store.planned ctx pointer := by
  rw [planned, h, planned]

/-- **What is due for the pointers of a roster.**  Their markers are strictly below the table prefix, and the names of
their jobs have room for the tags of their parts. -/
structure Agenda (ctx : Context) (tablePrefix : String) extends Roster ctx.settings.jobPrefix where
  due : String → List Job
  source : ∀ {q : String}, has q → ∃ store : Store, store.planned ctx q = due q
  marker : ∀ {q : String}, has q → IsMarker tablePrefix (Backlog.markerFor q)
  few : ∀ {q : String}, has q → (due q).length < 2 ^ 64
  fits : ∀ {q suffix : String} {part : Nat}, has q → JobId.IsSuffix suffix → part + 1 < (due q).length →
    JobId.Fits (JobId.make ctx.settings.jobPrefix (Backlog.markerFor q) suffix) part

namespace Agenda

variable {ctx : Context} {tablePrefix : String}

section OfStore

variable (store : Store) {pointers : List String}
  (hmarker : ∀ q ∈ pointers, IsMarker tablePrefix (Backlog.markerFor q))
  (hdistinct : ∀ q ∈ pointers, ∀ q' ∈ pointers, JobId.body ctx.settings.jobPrefix (Backlog.markerFor q) =
    JobId.body ctx.settings.jobPrefix (Backlog.markerFor q') → q = q')
  (hfew : ∀ q ∈ pointers, (store.planned ctx q).length < 2 ^ 64)
  (hfits : ∀ q ∈ pointers, ∀ suffix, JobId.IsSuffix suffix → ∀ part, part + 1 < (store.planned ctx q).length →
    JobId.Fits (JobId.make ctx.settings.jobPrefix (Backlog.markerFor q) suffix) part)

def ofStore : Agenda ctx tablePrefix where
  has := (· ∈ pointers)
  distinct hq hq' := hdistinct _ hq _ hq'
  due := store.planned ctx
  source _ := ⟨store, rfl⟩
  marker hq := hmarker _ hq
  few hq := hfew _ hq
  fits hq hs := hfits _ hq _ hs _

end OfStore

def nameOf (agenda : Agenda ctx tablePrefix) (pointer suffix : String) (part : Nat) : String :=
  JobId.ofPart (JobId.make ctx.settings.jobPrefix (Backlog.markerFor pointer) suffix) part (agenda.due pointer).length

variable {agenda : Agenda ctx tablePrefix} {pointer suffix : String} {part : Nat}

section Names

variable (hq : agenda.has pointer) (hs : JobId.IsSuffix suffix) (hpart : part < (agenda.due pointer).length)

include hq hs hpart

theorem splitPart_nameOf : JobId.splitPart (agenda.nameOf pointer suffix part) =
    (JobId.make ctx.settings.jobPrefix (Backlog.markerFor pointer) suffix,
      if part + 1 = (agenda.due pointer).length then none else some part) := by
  have hfew := agenda.few hq
  rw [nameOf, JobId.splitPart_ofPart hs (by omega), JobId.nextIndex]
  intro hne
  exact agenda.fits hq hs (by rw [JobId.nextIndex] at hne; omega)

theorem isFor_nameOf : JobId.isFor (agenda.nameOf pointer suffix part) ctx.settings.jobPrefix
    (Backlog.markerFor pointer) = true :=
  JobId.isFor_iff.2 ⟨suffix, hs, by rw [splitPart_nameOf hq hs hpart]⟩

/-- The name of a part is read from the lock as such. -/
theorem ofOctets?_nameOf (hlead : JobId.IsLead ctx.settings.jobPrefix) :
    LockBody.ofOctets? ctx.settings.jobPrefix (Utf8.encode (agenda.nameOf pointer suffix part)) =
      some (.job (agenda.nameOf pointer suffix part)) := by
  have hstarts : startsWith ctx.settings.jobPrefix (agenda.nameOf pointer suffix part) = true := by
    rw [startsWith_iff]
    by_cases hlast : JobId.nextIndex part = (agenda.due pointer).length
    · exact ⟨_, by rw [nameOf, JobId.ofPart_last hlast, JobId.make_eq, String.append_assoc]⟩
    · have hfits : JobId.Fits (JobId.make ctx.settings.jobPrefix (Backlog.markerFor pointer) suffix) part :=
        agenda.fits hq hs (by rw [JobId.nextIndex] at hlast; omega)
      exact ⟨_, by rw [nameOf, JobId.ofPart_of_fits hlast hfits, JobId.make_eq, String.append_assoc,
        String.append_assoc]⟩
  have hunpadded : Unpadded (agenda.nameOf pointer suffix part) :=
    JobId.unpadded_ofPart (JobId.unpadded_make hlead hs)
  rw [LockBody.ofOctets?_encode _ hunpadded, if_pos hstarts]

end Names

/-- **The job that is due is the part of the agenda that its name says.** -/
theorem nameOf_of_due {store : Store} {plan : Plan} {index : Nat} {job : Job}
    (hdue : DueJob ctx tablePrefix store pointer suffix plan index job)
    (hplanned : store.planned ctx pointer = agenda.due pointer) :
    ∃ part, (agenda.due pointer)[part]? = some job.content ∧ job.id = agenda.nameOf pointer suffix part ∧
      (part = index ∨ (agenda.due pointer).length = 1) := by
  have hjobs : plan.jobs.map Job.content = agenda.due pointer := by
    rw [← hplanned, Store.planned, hdue.planned]
  obtain ⟨content, hcontent, rfl⟩ := hdue.isPart
  simp only [nameOf, ← hjobs, List.length_map]
  cases plan with
  | query job =>
    obtain rfl := Option.some.inj hcontent
    exact ⟨0, rfl, (JobId.ofPart_last rfl).symm, .inr rfl⟩
  | loads jobs =>
    have hcontent : jobs[index]? = some content := hcontent
    refine ⟨index, ?_, rfl, .inl rfl⟩
    rw [Plan.jobs, List.getElem?_map, hcontent]
    rfl

/-- The backlog has not been written to from outside. -/
def Unextended (tablePrefix : String) (log : List Event) : Prop :=
  ∀ key, Event.wrote key ∈ log → startsWith (Backlog.folder tablePrefix) key = false

/-- The accepted jobs under a name are parts before this one, or this one. -/
def Numbered (agenda : Agenda ctx tablePrefix) (accepted : List Job) (q suffix : String) (part : Nat) : Prop :=
  ∀ job ∈ accepted, (JobId.splitPart job.id).1 = JobId.make ctx.settings.jobPrefix (Backlog.markerFor q) suffix →
    job.id = agenda.nameOf q suffix part ∨ ∃ earlier < part, (JobId.splitPart job.id).2 = some earlier

/-- **What the lock says of the work on the first pointer**, and which of its jobs were accepted.  With no lock, and with
a job of a pointer that was taken away, none were; with the name of a part, all before it and perhaps this one.  A
failure leaves what was accepted before it. -/
inductive Phase (agenda : Agenda ctx tablePrefix) (s : Scene) (closed : List String) : List Job → Prop where
  | vacant (lock : s.lock ctx tablePrefix = none) : Phase agenda s closed []
  | between {id q : String} (lock : s.lock ctx tablePrefix = some (.job id)) (mem : q ∈ closed)
      (isFor : JobId.isFor id ctx.settings.jobPrefix (Backlog.markerFor q) = true) : Phase agenda s closed []
  | working {q suffix : String} {part : Nat}
      (lock : s.lock ctx tablePrefix = some (.job (agenda.nameOf q suffix part)))
      (head : (s.site.store.pointers tablePrefix).head? = some q) (hex : JobId.IsSuffix suffix)
      (inside : part < (agenda.due q).length) (names : Numbered agenda s.site.accepted q suffix part) :
    Phase agenda s closed
      ((agenda.due q).take (if agenda.nameOf q suffix part ∈ s.site.ids then part + 1 else part))
  | stopped {text : String} {current : List Job} (lock : s.lock ctx tablePrefix = some (.manual text))
      (started : current = [] ∨ ∃ q ∈ s.site.store.pointers tablePrefix, current <+: agenda.due q ∧
        (Unextended tablePrefix s.log → (s.site.store.pointers tablePrefix).head? = some q)) :
    Phase agenda s closed current

/-- **The pointers that were taken away, and those that are left**: no pointer is twice among them, and all were there at
first or came from outside. -/
structure Tally (agenda : Agenda ctx tablePrefix) (origin : List String) (s : Scene) (closed : List String) : Prop where
  nodup : (closed ++ s.site.store.pointers tablePrefix).Nodup
  known : ∀ q ∈ closed ++ s.site.store.pointers tablePrefix, agenda.has q
  faithful : ∀ q ∈ s.site.store.pointers tablePrefix, s.site.store.planned ctx q = agenda.due q
  enqueued : ∀ q ∈ closed ++ s.site.store.pointers tablePrefix, q ∈ origin ∨ Event.wrote q ∈ s.log
  whole : Unextended tablePrefix s.log → closed ++ s.site.store.pointers tablePrefix = origin

/-- **How far the work has come.** -/
structure Progress (agenda : Agenda ctx tablePrefix) (origin : List String) (s : Scene) (closed : List String)
    (current : List Job) : Prop where
  tally : Tally agenda origin s closed
  phase : Phase agenda s closed current
  contents : s.site.accepted.map Job.content = closed.flatMap agenda.due ++ current

variable {origin closed : List String} {current : List Job} {s s' : Scene}

/-! ## What a move comes to -/

theorem Tally.of_eq {closed' : List String} (h : Tally agenda origin s closed)
    (heq : closed' ++ s'.site.store.pointers tablePrefix = closed ++ s.site.store.pointers tablePrefix)
    (hsubset : s'.site.store.pointers tablePrefix ⊆ s.site.store.pointers tablePrefix)
    (hplans : ∀ q ∈ s'.site.store.pointers tablePrefix, s'.site.store.planned ctx q = s.site.store.planned ctx q)
    (hlog : ∀ key, Event.wrote key ∈ s'.log ↔ Event.wrote key ∈ s.log) : Tally agenda origin s' closed' where
  nodup := heq ▸ h.nodup
  known := heq ▸ h.known
  faithful q hq := (hplans q hq).trans (h.faithful q (hsubset hq))
  enqueued q hq := (h.enqueued q (heq ▸ hq)).imp_right (hlog q).2
  whole hquiet := heq.trans (h.whole fun key hkey => hquiet key ((hlog key).2 hkey))

theorem Phase.of_same (h : Phase agenda s closed current) (hlock : s'.lock ctx tablePrefix = s.lock ctx tablePrefix)
    (hpointers : s'.site.store.pointers tablePrefix = s.site.store.pointers tablePrefix)
    (haccepted : s'.site.accepted = s.site.accepted)
    (hlog : Unextended tablePrefix s'.log → Unextended tablePrefix s.log) : Phase agenda s' closed current := by
  have hids : s'.site.ids = s.site.ids := by rw [Site.ids, haccepted, Site.ids]
  cases h with
  | vacant lock => exact .vacant (hlock.trans lock)
  | between lock mem isFor => exact .between (hlock.trans lock) mem isFor
  | working lock head hex inside names =>
    rw [← hids]
    exact .working (hlock.trans lock) (by rw [hpointers, head]) hex inside (haccepted ▸ names)
  | stopped lock started =>
    refine .stopped (hlock.trans lock) (started.imp_right ?_)
    rintro ⟨q, hq, hbegins, hhead⟩
    rw [hpointers]
    exact ⟨q, hq, hbegins, fun hquiet => hhead (hlog hquiet)⟩

/-- The jobs that were accepted for no closed pointer are the first ones of one that is left. -/
theorem Phase.started (h : Phase agenda s closed current) :
    current = [] ∨ ∃ q ∈ s.site.store.pointers tablePrefix, current <+: agenda.due q ∧
      (Unextended tablePrefix s.log → (s.site.store.pointers tablePrefix).head? = some q) := by
  cases h with
  | vacant => exact .inl rfl
  | between => exact .inl rfl
  | working lock head => exact .inr ⟨_, List.mem_of_head? head, List.take_prefix _ _, fun _ => head⟩
  | stopped lock started => exact started

/-- A lock that names a job of a pointer that is left names a part of it. -/
theorem Progress.working_of_isFor {id q : String} (h : Progress agenda origin s closed current)
    (hlock : s.lock ctx tablePrefix = some (.job id)) (hq : q ∈ s.site.store.pointers tablePrefix)
    (hfor : JobId.isFor id ctx.settings.jobPrefix (Backlog.markerFor q) = true) :
    ∃ suffix part, id = agenda.nameOf q suffix part ∧ (s.site.store.pointers tablePrefix).head? = some q ∧
      JobId.IsSuffix suffix ∧ part < (agenda.due q).length ∧ Numbered agenda s.site.accepted q suffix part ∧
      current = (agenda.due q).take (if agenda.nameOf q suffix part ∈ s.site.ids then part + 1 else part) := by
  have hknown := h.tally.known
  cases h.phase with
  | vacant lock => rw [lock] at hlock; cases hlock
  | stopped lock => rw [lock] at hlock; cases hlock
  | between lock mem isFor =>
    rw [lock] at hlock
    cases hlock
    obtain rfl := agenda.distinct (hknown _ (List.mem_append_left _ mem)) (hknown _ (List.mem_append_right _ hq))
      (JobId.body_eq_of_isFor isFor hfor)
    exact absurd rfl ((List.nodup_append.1 h.tally.nodup).2.2 _ mem _ hq)
  | working lock head hex inside names =>
    rw [lock] at hlock
    cases hlock
    have hhead := hknown _ (List.mem_append_right _ (List.mem_of_head? head))
    obtain rfl := agenda.distinct hhead (hknown _ (List.mem_append_right _ hq))
      (JobId.body_eq_of_isFor (isFor_nameOf hhead hex inside) hfor)
    exact ⟨_, _, rfl, head, hex, inside, names, rfl⟩

/-- A part whose name is new is the next one. -/
structure Fresh (agenda : Agenda ctx tablePrefix) (s : Scene) (current : List Job) (q suffix : String) (part : Nat) :
    Prop where
  new : agenda.nameOf q suffix part ∉ s.site.ids
  current : current = (agenda.due q).take part
  names : Numbered agenda s.site.accepted q suffix part

theorem Progress.fresh_first {q suffix : String} (h : Progress agenda origin s closed current)
    (hhead : (s.site.store.pointers tablePrefix).head? = some q) (hs : JobId.IsSuffix suffix)
    (hpos : 0 < (agenda.due q).length)
    (hfresh : ∀ job ∈ s.site.accepted, ∀ marker,
      (JobId.splitPart job.id).1 ≠ JobId.make ctx.settings.jobPrefix marker suffix)
    (hlock : s.lock ctx tablePrefix = none ∨ ∃ id, s.lock ctx tablePrefix = some (.job id) ∧
      JobId.isFor id ctx.settings.jobPrefix (Backlog.markerFor q) = false) : Fresh agenda s current q suffix 0 := by
  have hhas := h.tally.known q (List.mem_append_right _ (List.mem_of_head? hhead))
  refine ⟨fun hmem => ?_, ?_, fun job hjob he => absurd he (hfresh job hjob _)⟩
  · obtain ⟨job, hjob, hid⟩ := List.mem_map.1 hmem
    exact hfresh job hjob _ (by rw [hid, splitPart_nameOf hhas hs hpos])
  · cases h.phase with
    | vacant => rfl
    | between => rfl
    | working lock head hex inside names =>
      obtain rfl := Option.some.inj (head.symm.trans hhead)
      rcases hlock with hlock | ⟨id, hlock, hnot⟩
      · rw [lock] at hlock; cases hlock
      · rw [lock] at hlock
        cases hlock
        rw [isFor_nameOf hhas hex inside] at hnot
        cases hnot
    | stopped lock => rcases hlock with hlock | ⟨id, hlock, -⟩ <;> rw [lock] at hlock <;> cases hlock

theorem Progress.fresh_next {id q suffix : String} {index : Nat} (hbasic : Basic tablePrefix agenda.toRoster s)
    (h : Progress agenda origin s closed current) (hhead : (s.site.store.pointers tablePrefix).head? = some q)
    (hs : JobId.IsSuffix suffix) (hlock : s.lock ctx tablePrefix = some (.job id)) (hended : EndedWell id s.log)
    (hsplit : JobId.splitPart id =
      (JobId.make ctx.settings.jobPrefix (Backlog.markerFor q) suffix, some index)) :
    index + 1 < (agenda.due q).length ∧ Fresh agenda s current q suffix (index + 1) := by
  have hmem := List.mem_of_head? hhead
  have hhas := h.tally.known q (List.mem_append_right _ hmem)
  obtain ⟨suffix', part, rfl, -, hs', hinside, hnames, rfl⟩ :=
    h.working_of_isFor hlock hmem (JobId.isFor_iff.2 ⟨suffix, hs, by rw [hsplit]⟩)
  rw [splitPart_nameOf hhas hs' hinside, Prod.mk.injEq] at hsplit
  obtain ⟨hmake, htag⟩ := hsplit
  obtain ⟨-, rfl⟩ := JobId.make_inj hs' hs hmake
  obtain ⟨hlast, rfl⟩ : part + 1 ≠ (agenda.due q).length ∧ part = index := by
    split at htag
    · cases htag
    · exact ⟨‹_›, Option.some.inj htag⟩
  obtain ⟨status, hseen, -⟩ := hended
  rw [if_pos (hbasic.seen _ _ hseen)]
  have hnext : part + 1 < (agenda.due q).length := by omega
  refine ⟨hnext, fun hid => ?_, rfl, fun job hjob he => .inr ?_⟩
  · obtain ⟨job, hjob, hid⟩ := List.mem_map.1 hid
    have hsplit := splitPart_nameOf hhas hs hnext
    rcases hnames job hjob (by rw [hid, hsplit]) with he | ⟨earlier, hlt, he⟩
    · rw [← hid, he, splitPart_nameOf hhas hs hinside, if_neg hlast, Prod.mk.injEq] at hsplit
      obtain ⟨-, htag⟩ := hsplit
      split at htag
      · cases htag
      · cases htag
    · rw [hid, hsplit] at he
      simp only at he
      split at he
      · cases he
      · cases he
        omega
  · rcases hnames job hjob he with he | ⟨earlier, hlt, he⟩
    · exact ⟨part, by omega, by rw [he, splitPart_nameOf hhas hs hinside, if_neg hlast]⟩
    · exact ⟨earlier, by omega, he⟩

/-- Taking the lock for the next part changes nothing of what was accepted. -/
theorem Progress.phase_claim {q suffix : String} {plan : Plan} {index : Nat} {job : Job}
    (hbasic : Basic tablePrefix agenda.toRoster s) (h : Progress agenda origin s closed current)
    (hdue : DueJob ctx tablePrefix s.site.store q suffix plan index job) (hturn : Turn ctx tablePrefix s q suffix index)
    (hlock : s'.lock ctx tablePrefix = some (.job job.id))
    (hpointers : s'.site.store.pointers tablePrefix = s.site.store.pointers tablePrefix)
    (haccepted : s'.site.accepted = s.site.accepted) : Phase agenda s' closed current := by
  have hmem := List.mem_of_head? hdue.head
  have hhas := h.tally.known q (List.mem_append_right _ hmem)
  obtain ⟨part, hcontent, hid, hindex⟩ := nameOf_of_due hdue (h.tally.faithful q hmem)
  have hinside : part < (agenda.due q).length := (List.getElem?_eq_some_iff.1 hcontent).1
  have hfresh : Fresh agenda s current q suffix part := by
    cases hturn with
    | first _ hnone hlock =>
      obtain rfl : part = 0 := by omega
      exact h.fresh_first hdue.head hdue.hex hinside hnone
        (hlock.imp_right fun ⟨id, hlock, _, hnot⟩ => ⟨id, hlock, hnot⟩)
    | @next id index hlock hended hsplit =>
      obtain ⟨hnext, hfresh⟩ := h.fresh_next hbasic hdue.head hdue.hex hlock hended hsplit
      rw [JobId.nextIndex] at hindex
      obtain rfl : part = index + 1 := by omega
      exact hfresh
  have hids : s'.site.ids = s.site.ids := by rw [Site.ids, haccepted, Site.ids]
  have hphase : Phase agenda s' closed _ :=
    .working (hid ▸ hlock) (hpointers ▸ hdue.head) hdue.hex hinside (haccepted ▸ hfresh.names)
  rwa [hids, if_neg hfresh.new, ← hfresh.current] at hphase

/-- The name of a part tells which one it is. -/
theorem nameOf_inj {suffix' : String} {part' : Nat} (hq : agenda.has pointer) (hs : JobId.IsSuffix suffix)
    (hs' : JobId.IsSuffix suffix') (hpart : part < (agenda.due pointer).length)
    (hpart' : part' < (agenda.due pointer).length)
    (h : agenda.nameOf pointer suffix part = agenda.nameOf pointer suffix' part') : suffix = suffix' ∧ part = part' := by
  have hsplit := splitPart_nameOf hq hs hpart
  rw [h, splitPart_nameOf hq hs' hpart', Prod.mk.injEq] at hsplit
  obtain ⟨hmake, htag⟩ := hsplit
  refine ⟨((JobId.make_inj hs' hs hmake).2).symm, ?_⟩
  split at htag <;> split at htag
  · omega
  · cases htag
  · cases htag
  · exact (Option.some.inj htag).symm

/-- A job that is accepted is the next one of the first pointer. -/
theorem Progress.phase_submit {job : Job} (hlead : JobId.IsLead ctx.settings.jobPrefix)
    (h : Progress agenda origin s closed current) (hannounced : Announced ctx tablePrefix s job)
    (hnew : job.id ∉ s.site.ids) (hstore : s'.site.store = s.site.store)
    (haccepted : s'.site.accepted = s.site.accepted ++ [job]) :
    Phase agenda s' closed (current ++ [job.content]) := by
  obtain ⟨store, now, q, suffix, plan, index, hwritten, hdue, -, -⟩ := hannounced
  have hpointers : s.site.store.pointers tablePrefix = store.pointers tablePrefix := by
    rw [hwritten, Store.pointers_write _ _ (Backlog.lock_notMem_folder tablePrefix)]
  have hhead : (s.site.store.pointers tablePrefix).head? = some q := by rw [hpointers, hdue.head]
  have hmem := List.mem_of_head? hhead
  have hhas := h.tally.known q (List.mem_append_right _ hmem)
  have hplanned : store.planned ctx q = agenda.due q := by
    have hmarker := agenda.marker hhas
    rw [← h.tally.faithful q hmem, hwritten]
    exact (Store.planned_congr (Store.gives_plan_write ctx _ _ hmarker.unread_lock hmarker.directory_ne_empty)).symm
  obtain ⟨part, hcontent, hid, -⟩ := nameOf_of_due hdue hplanned
  have hinside : part < (agenda.due q).length := (List.getElem?_eq_some_iff.1 hcontent).1
  have hlock : s.lock ctx tablePrefix = some (.job (agenda.nameOf q suffix part)) := by
    rw [lock, hwritten, Store.lockBody_write_self, hid, ofOctets?_nameOf hhas hdue.hex hinside hlead]
  obtain ⟨suffix', part', hname, -, hs', hinside', hnames, hcurrent⟩ :=
    h.working_of_isFor hlock hmem (isFor_nameOf hhas hdue.hex hinside)
  obtain ⟨rfl, rfl⟩ := nameOf_inj hhas hdue.hex hs' hinside hinside' hname
  rw [hid] at hnew
  rw [if_neg hnew] at hcurrent
  have hids : agenda.nameOf q suffix part ∈ s'.site.ids := by
    rw [Site.ids, haccepted, List.map_append, ← hid]
    exact List.mem_append_right _ (List.mem_singleton.2 rfl)
  have hnames' : Numbered agenda s'.site.accepted q suffix part := by
    intro other hother he
    rw [haccepted] at hother
    rcases List.mem_append.1 hother with hother | hother
    · exact hnames other hother he
    · exact .inl (by rw [List.mem_singleton.1 hother, hid])
  have hphase : Phase agenda s' closed _ :=
    .working (by rw [lock, hstore]; exact hlock) (by rw [hstore]; exact hhead) hs' hinside hnames'
  rwa [if_pos hids, List.take_add_one, hcontent, ← hcurrent] at hphase

/-- A pointer is taken away when all its jobs were accepted. -/
theorem Progress.current_of_finished {q : String} (hbasic : Basic tablePrefix agenda.toRoster s)
    (h : Progress agenda origin s closed current) (hfinished : Finished ctx tablePrefix s q) :
    current = agenda.due q := by
  obtain ⟨hhead, id, hlock, ⟨status, hseen, -⟩, hfor, htag⟩ := hfinished
  have hmem := List.mem_of_head? hhead
  have hhas := h.tally.known q (List.mem_append_right _ hmem)
  obtain ⟨suffix, part, rfl, -, hs, hinside, -, rfl⟩ := h.working_of_isFor hlock hmem hfor
  rw [splitPart_nameOf hhas hs hinside] at htag
  simp only at htag
  split at htag
  · rename_i hlast
    rw [if_pos (hbasic.seen _ _ hseen), hlast, List.take_length]
  · cases htag

theorem Progress.phase_drain (h : Progress agenda origin s closed current) (hdrained : Drained ctx tablePrefix s)
    (hlock : s'.lock ctx tablePrefix = none) : Phase agenda s' closed current := by
  obtain ⟨hempty, hbefore⟩ := hdrained
  cases h.phase with
  | vacant => exact .vacant hlock
  | between => exact .vacant hlock
  | working lock head => rw [hempty] at head; cases head
  | stopped lock => rcases hbefore with hbefore | ⟨id, hbefore, -⟩ <;> rw [lock] at hbefore <;> cases hbefore

/-- **Every move keeps the progress true.** -/
theorem Progress.of_move (hlead : JobId.IsLead ctx.settings.jobPrefix) (hbasic : Basic tablePrefix agenda.toRoster s)
    (h : Progress agenda origin s closed current) (hmove : Move ctx tablePrefix s s')
    (hplans : ∀ q ∈ s'.site.store.pointers tablePrefix, s'.site.store.planned ctx q = s.site.store.planned ctx q)
    (hlog : ∀ key, Event.wrote key ∈ s'.log ↔ Event.wrote key ∈ s.log) :
    ∃ closed' current', Progress agenda origin s' closed' current' := by
  have hsubset := hmove.pointers_subset
  have hquiet : Unextended tablePrefix s'.log → Unextended tablePrefix s.log :=
    fun hquiet key hkey => hquiet key ((hlog key).2 hkey)
  have htally : s'.site.store.pointers tablePrefix = s.site.store.pointers tablePrefix →
      Tally agenda origin s' closed :=
    fun hpointers => h.tally.of_eq (by rw [hpointers]) hsubset hplans hlog
  cases hmove with
  | idle hlock hpointers haccepted =>
    exact ⟨closed, current, htally hpointers, h.phase.of_same hlock hpointers haccepted hquiet,
      by rw [haccepted, h.contents]⟩
  | fail hlock hpointers haccepted =>
    refine ⟨closed, current, htally hpointers, .stopped hlock (h.phase.started.imp_right ?_),
      by rw [haccepted, h.contents]⟩
    rintro ⟨q, hq, hbegins, hhead⟩
    rw [hpointers]
    exact ⟨q, hq, hbegins, fun h => hhead (hquiet h)⟩
  | claim hdue hturn hlock hpointers haccepted =>
    exact ⟨closed, current, htally hpointers, h.phase_claim hbasic hdue hturn hlock hpointers haccepted,
      by rw [haccepted, h.contents]⟩
  | submit hannounced hnew hstore haccepted _ =>
    refine ⟨closed, _, htally (by rw [hstore]), h.phase_submit hlead hannounced hnew hstore haccepted, ?_⟩
    rw [haccepted, List.map_append, h.contents, List.append_assoc]
    rfl
  | drain hdrained hlock hpointers haccepted =>
    exact ⟨closed, current, htally hpointers, h.phase_drain hdrained hlock, by rw [haccepted, h.contents]⟩
  | @pop q rest hfinished hbefore hpointers hlock haccepted =>
    have hcurrent := h.current_of_finished hbasic hfinished
    obtain ⟨-, id, hid, -, hfor, -⟩ := hfinished
    refine ⟨closed ++ [q], [], h.tally.of_eq ?_ hsubset hplans hlog, .between (hlock.trans hid) (q := q) ?_ hfor, ?_⟩
    · rw [hpointers, hbefore, List.append_assoc]
      rfl
    · exact List.mem_append_right _ (List.mem_singleton.2 rfl)
    · rw [haccepted, h.contents, hcurrent, List.flatMap_append, List.append_nil, List.flatMap_singleton]

/-! ## What others may do -/

/-- **Others are considerate**: they take no pointer away, they leave what is due for the pointers as it is, and a pointer
that they add was never there before, and sorts after the one whose job the lock names. -/
structure Considerate (agenda : Agenda ctx tablePrefix) (origin : List String) (key : String) (s s' : Scene) : Prop where
  stays : s.site.store.pointers tablePrefix ⊆ s'.site.store.pointers tablePrefix
  faithful : ∀ q ∈ s'.site.store.pointers tablePrefix, s'.site.store.planned ctx q = agenda.due q
  known : startsWith (Backlog.folder tablePrefix) key = true → agenda.has key
  new : startsWith (Backlog.folder tablePrefix) key = true → key ∉ origin ∧ Event.wrote key ∉ s.log
  after : startsWith (Backlog.folder tablePrefix) key = true → ∀ id, s.lock ctx tablePrefix = some (.job id) →
    ∀ q ∈ s.site.store.pointers tablePrefix,
      JobId.isFor id ctx.settings.jobPrefix (Backlog.markerFor q) = true → q < key

variable {key : String}

/-- A pointer that was not there before is the one that was written. -/
theorem mem_pointers_of_outside {q : String} (h : Outside key s s') (hq : q ∈ s'.site.store.pointers tablePrefix) :
    q ∈ s.site.store.pointers tablePrefix ∨
      q = key ∧ startsWith (Backlog.folder tablePrefix) key = true ∧ Event.wrote key ∈ s'.log := by
  cases h with
  | write body now =>
    obtain ⟨hmem, hstart⟩ := List.mem_filter.1 hq
    rcases Store.mem_keys_write.1 hmem with rfl | hmem
    · exact .inr ⟨rfl, hstart, List.mem_append_right _ (List.mem_singleton.2 rfl)⟩
    · exact .inl (List.mem_filter.2 ⟨hmem, hstart⟩)
  | remove =>
    rw [Store.pointers_remove_eq_filter] at hq
    exact .inl (List.mem_filter.1 hq).1

/-- Where nothing was written to the backlog, it is what it was. -/
theorem pointers_of_unextended (h : Outside key s s')
    (hstays : s.site.store.pointers tablePrefix ⊆ s'.site.store.pointers tablePrefix)
    (hquiet : Unextended tablePrefix s'.log) :
    s'.site.store.pointers tablePrefix = s.site.store.pointers tablePrefix := by
  cases h with
  | write body now =>
    exact Store.pointers_write _ _ (hquiet key (List.mem_append_right _ (List.mem_singleton.2 rfl)))
  | remove =>
    rw [Store.pointers_remove_eq_filter] at hstays ⊢
    exact List.filter_eq_self.2 fun q hq => (List.mem_filter.1 (hstays hq)).2

theorem Considerate.listed (h : Outside key s s') (hconsiderate : Considerate agenda origin key s s')
    (hlisted : ∀ q ∈ s.site.store.pointers tablePrefix, agenda.has q) :
    ∀ q ∈ s'.site.store.pointers tablePrefix, agenda.has q := by
  intro q hq
  rcases mem_pointers_of_outside h hq with hq | ⟨rfl, hstart, -⟩
  · exact hlisted q hq
  · exact hconsiderate.known hstart

theorem Tally.of_outside (h : Outside key s s') (hconsiderate : Considerate agenda origin key s s')
    (htally : Tally agenda origin s closed) : Tally agenda origin s' closed := by
  have hlog : s.log ⊆ s'.log := by
    obtain ⟨e, hlog, -⟩ := h.log_eq
    rw [hlog]
    exact List.subset_append_left _ _
  obtain ⟨hclosed, -, hdisjoint⟩ := List.nodup_append.1 htally.nodup
  refine ⟨List.nodup_append.2 ⟨hclosed, Store.pointers_nodup _ _, ?_⟩, ?_, hconsiderate.faithful, ?_, ?_⟩
  · rintro q hq _ hq' rfl
    rcases mem_pointers_of_outside h hq' with hq' | ⟨rfl, hstart, -⟩
    · exact hdisjoint q hq q hq' rfl
    · obtain ⟨horigin, hwrote⟩ := hconsiderate.new hstart
      exact (htally.enqueued _ (List.mem_append_left _ hq)).elim horigin hwrote
  · intro q hq
    rcases List.mem_append.1 hq with hq | hq
    · exact htally.known q (List.mem_append_left _ hq)
    · exact hconsiderate.listed h (fun q hq => htally.known q (List.mem_append_right _ hq)) q hq
  · intro q hq
    rcases List.mem_append.1 hq with hq | hq
    · exact (htally.enqueued q (List.mem_append_left _ hq)).imp_right fun hw => hlog hw
    · rcases mem_pointers_of_outside h hq with hq | ⟨rfl, -, hwrote⟩
      · exact (htally.enqueued q (List.mem_append_right _ hq)).imp_right fun hw => hlog hw
      · exact .inr hwrote
  · intro hquiet
    rw [pointers_of_unextended h hconsiderate.stays hquiet]
    exact htally.whole fun key hkey => hquiet key (hlog hkey)

/-- The pointer that is worked on stays the first one. -/
theorem Considerate.head {q id : String} (h : Outside key s s') (hconsiderate : Considerate agenda origin key s s')
    (hhead : (s.site.store.pointers tablePrefix).head? = some q) (hlock : s.lock ctx tablePrefix = some (.job id))
    (hfor : JobId.isFor id ctx.settings.jobPrefix (Backlog.markerFor q) = true) :
    (s'.site.store.pointers tablePrefix).head? = some q := by
  have hmem := List.mem_of_head? hhead
  refine Store.head?_pointers (hconsiderate.stays hmem) fun q' hq' hlt => ?_
  rcases mem_pointers_of_outside h hq' with hq' | ⟨rfl, hstart, -⟩
  · obtain ⟨rest, hrest⟩ := List.head?_eq_some_iff.1 hhead
    have hsorted := s.site.store.pointers_pairwise tablePrefix
    rw [hrest] at hq' hsorted
    rcases List.mem_cons.1 hq' with rfl | hq'
    · exact String.lt_irrefl _ hlt
    · exact String.lt_asymm hlt ((List.pairwise_cons.1 hsorted).1 _ hq')
  · exact String.lt_asymm hlt (hconsiderate.after hstart id hlock q hmem hfor)

/-- **Others who are considerate keep the progress true.** -/
theorem Progress.of_outside (h : Progress agenda origin s closed current) (hkey : key ≠ TableLock.keyOf tablePrefix)
    (houtside : Outside key s s') (hconsiderate : Considerate agenda origin key s s') :
    Progress agenda origin s' closed current := by
  have hlock : s'.lock ctx tablePrefix = s.lock ctx tablePrefix := (houtside.lockKept hkey).lock_eq
  have haccepted := houtside.accepted_eq
  have hids : s'.site.ids = s.site.ids := by rw [Site.ids, haccepted, Site.ids]
  refine ⟨h.tally.of_outside houtside hconsiderate, ?_, by rw [haccepted, h.contents]⟩
  cases h.phase with
  | vacant lock => exact .vacant (hlock.trans lock)
  | between lock mem isFor => exact .between (hlock.trans lock) mem isFor
  | @working q suffix part lock head hex inside names =>
    have hhas := h.tally.known q (List.mem_append_right _ (List.mem_of_head? head))
    rw [← hids]
    exact .working (hlock.trans lock) (hconsiderate.head houtside head lock (isFor_nameOf hhas hex inside)) hex inside
      (haccepted ▸ names)
  | stopped lock started =>
    refine .stopped (hlock.trans lock) (started.imp_right ?_)
    rintro ⟨q, hq, hbegins, hhead⟩
    refine ⟨q, hconsiderate.stays hq, hbegins, fun hquiet => ?_⟩
    rw [pointers_of_unextended houtside hconsiderate.stays hquiet]
    refine hhead fun key hkey => hquiet key ?_
    obtain ⟨e, hlog, -⟩ := houtside.log_eq
    exact hlog ▸ List.mem_append_left _ hkey

/-- **The progress at every point of a chain of subscribers.** -/
theorem exists_progress {others : String → Scene → Scene → Prop} (hlead : JobId.IsLead ctx.settings.jobPrefix)
    (hothers : ∀ {key s s'}, others key s s' → (∀ q ∈ s.site.store.pointers tablePrefix,
      s.site.store.planned ctx q = agenda.due q) → Outside key s s' → Considerate agenda origin key s s')
    {start relay : Relay} (hstart : Orderly tablePrefix agenda.toRoster start)
    (hbegin : ∃ closed current, Progress agenda origin start.scene closed current)
    (hsteps : Relation.ReflTransGen (Step ctx tablePrefix others) start relay) :
    ∃ closed current, Progress agenda origin relay.scene closed current := by
  refine (Relay.induct (fun s => ∃ closed current, Progress agenda origin s closed current) hlead ?_ ?_ ?_ hstart
    hbegin hsteps).2
  · rintro key s s' hbasic ⟨closed, current, h⟩ hkey houtside ho
    exact (hothers ho h.tally.faithful houtside).listed houtside hbasic.listed
  · rintro key s s' hbasic ⟨closed, current, h⟩ hkey houtside ho
    exact ⟨closed, current, h.of_outside hkey houtside (hothers ho h.tally.faithful houtside)⟩
  · rintro c s s' reply hbasic ⟨closed, current, h⟩ hguard hreplies
    refine h.of_move hlead hbasic (move_of_guard hlead hguard hreplies) (fun q hq => ?_) fun key => ?_
    · have hhas := hbasic.listed q ((move_of_guard hlead hguard hreplies).pointers_subset hq)
      exact Store.planned_congr (gives_plan_of_guard (agenda.marker hhas) hguard hreplies)
    · rw [hreplies.log, List.mem_append, List.mem_singleton]
      exact or_iff_left nofun

end Agenda

theorem Trial.isMarker : ∀ q ∈ Trial.pointers, IsMarker "d/t" (Backlog.markerFor q) := by
  have ha : IsMarker "d/t" (Backlog.markerFor "d/t/_backlog/a/_SUCCESS") :=
    ⟨by decide, ⟨"a/_SUCCESS", by decide +kernel⟩, by decide +kernel, by decide +kernel⟩
  have hb : IsMarker "d/t" (Backlog.markerFor "d/t/_backlog/b/_SUCCESS") :=
    ⟨by decide, ⟨"b/_SUCCESS", by decide +kernel⟩, by decide +kernel, by decide +kernel⟩
  intro q hq
  rcases List.mem_cons.1 hq with rfl | hq
  · exact ha
  · rw [List.mem_singleton.1 hq]
    exact hb

end Intake
