import Intake.Proofs.Files
/-!
# Serving — what a pointer is taken away for

A pointer that is written anew asks for the files to be read that are there by then.  When a subscriber takes the pointer
away, a job for its marker that has listed the files since has ended well, unless the lock named the last job of the
marker when the pointer was written and no job was accepted since (`Relay.served_iff`): then the pointer is taken away
for that older job.
-/
namespace Intake
namespace Scene

variable (ctx : Context) (tablePrefix : String)

/-- The job reads what a listing of a marker's data shows: all of it, or one batch. -/
def Takes (marker : String) (listing : Listing) (job : Job) : Prop :=
  job.uris = (Store.batchesOf ctx marker listing).flatMap (·.uris) ∨
    ∃ batch ∈ Store.batchesOf ctx marker listing, job.uris = batch.uris

/-- **A job was gathered and accepted since**: the files beside a marker were listed, and then a job that reads what the
listing shows was submitted and accepted. -/
structure Supplied (marker : String) (since s : Scene) (job : Job) : Prop where
  new : job.id ∉ since.site.ids
  accepted : job ∈ s.site.accepted
  gathered : ∃ before listing after reply, s.log = since.log ++ before ++
    Event.call (.list (Submission.dataPrefix marker) (some "/")) (.ok listing) :: after ∧
      Takes ctx marker listing job ∧ Event.call (.submit job) reply ∈ after

/-- **The marker was served since**: by a job of its own that was gathered and accepted since, and was seen to have ended
well. -/
def Served (marker : String) (since s : Scene) : Prop :=
  ∃ job, Supplied ctx marker since s job ∧ JobId.isFor job.id ctx.settings.jobPrefix marker = true ∧ EndedWell job.id s.log

/-- The lock names the last job of a marker. -/
def NamesLast (marker : String) (s : Scene) (id : String) : Prop :=
  s.lock ctx tablePrefix = some (.job id) ∧ JobId.isFor id ctx.settings.jobPrefix marker = true ∧
    (JobId.splitPart id).2 = none

/-- No job has the name of all parts as long as the lock names one of them. -/
def Unused (s : Scene) : Prop :=
  ∀ id marker suffix index, s.lock ctx tablePrefix = some (.job id) → JobId.IsSuffix suffix →
    JobId.splitPart id = (JobId.make ctx.settings.jobPrefix marker suffix, some index) →
      JobId.make ctx.settings.jobPrefix marker suffix ∉ s.site.ids

variable {ctx tablePrefix} {s s' since : Scene} {marker : String}

theorem Announced.lock_eq (hlead : JobId.IsLead ctx.settings.jobPrefix) {job : Job}
    (h : Announced ctx tablePrefix s job) :
    s.lock ctx tablePrefix = some (.job job.id) ∨ s.lock ctx tablePrefix = some (.manual job.id) := by
  obtain ⟨store, now, q, suffix, plan, part, hwritten, hdue, -⟩ := h
  rw [lock, hwritten, Store.lockBody_write_self]
  exact hdue.ofOctets? hlead

theorem Announced.id_eq (hlead : JobId.IsLead ctx.settings.jobPrefix) {job : Job} {id : String}
    (h : Announced ctx tablePrefix s job) (hlock : s.lock ctx tablePrefix = some (.job id)) : job.id = id := by
  rcases h.lock_eq hlead with hjob | hjob
  · rw [hjob] at hlock
    cases hlock
    rfl
  · rw [hjob] at hlock
    cases hlock

/-! ## Names are new when they are taken -/

/-- What no job has as the name of all its parts, no job is called. -/
theorem notMem_ids_of_fresh {name : String} (hname : JobId.splitPart name = (name, none))
    (h : ∀ job ∈ s.site.accepted, (JobId.splitPart job.id).1 ≠ name) : name ∉ s.site.ids := by
  intro hmem
  obtain ⟨job, hjob, hid⟩ := List.mem_map.1 hmem
  exact h job hjob (by rw [hid, hname])

/-- **The name of all parts is new** when the lock is taken for one of them. -/
theorem Turn.notMem_ids {pointer suffix : String} {part : Nat} (hs : JobId.IsSuffix suffix)
    (hunused : Unused ctx tablePrefix s) (hturn : Turn ctx tablePrefix s pointer suffix part) :
    JobId.make ctx.settings.jobPrefix (Backlog.markerFor pointer) suffix ∉ s.site.ids := by
  cases hturn with
  | first _ hfresh => exact notMem_ids_of_fresh (JobId.splitPart_make _ _ hs) fun job hjob => hfresh job hjob _
  | next hlock _ hsplit => exact hunused _ _ _ _ hlock hs hsplit

theorem Unused.of_move (hlead : JobId.IsLead ctx.settings.jobPrefix) (h : Unused ctx tablePrefix s)
    (hmove : Move ctx tablePrefix s s') : Unused ctx tablePrefix s' := by
  intro id marker suffix index hlock' hs hsplit
  cases hmove with
  | idle hlock _ haccepted =>
    rw [Site.ids, haccepted]
    exact h id marker suffix index (hlock ▸ hlock') hs hsplit
  | fail hlock => rw [hlock] at hlock'; cases hlock'
  | drain _ hlock => rw [hlock] at hlock'; cases hlock'
  | pop _ _ _ hlock haccepted =>
    rw [Site.ids, haccepted]
    exact h id marker suffix index (hlock ▸ hlock') hs hsplit
  | claim hdue hturn hlock _ haccepted =>
    rw [hlock] at hlock'
    cases hlock'
    rw [Site.ids, haccepted, hdue.make_eq hs (by rw [hsplit])]
    exact hturn.notMem_ids hdue.hex h
  | @submit job hannounced _ hstore haccepted _ =>
    have hlock : s.lock ctx tablePrefix = some (.job id) := by rw [lock, ← hstore]; exact hlock'
    have hold := h id marker suffix index hlock hs hsplit
    rw [Site.ids, haccepted, List.map_append, List.mem_append, not_or]
    refine ⟨hold, fun hmem => ?_⟩
    -- the job that is submitted is the one that the lock names, which is a part
    obtain rfl := hannounced.id_eq hlead hlock
    have hname : JobId.make ctx.settings.jobPrefix marker suffix = job.id := List.mem_singleton.1 hmem
    rw [← hname, JobId.splitPart_make _ _ hs] at hsplit
    cases hsplit

/-! ## What was listed since -/

theorem eq_append_of_isCall {log before after more : List Event} {e last : Event} (hlast : ¬ last.IsCall)
    (he : e.IsCall) (hafter : ∀ e ∈ after, e.IsCall) (h : log ++ [last] ++ more = before ++ e :: after) :
    ∃ rest, before = log ++ [last] ++ rest := by
  rcases List.append_eq_append_iff.1 h with ⟨rest, hrest, -⟩ | ⟨rest, hrest, htail⟩
  · exact ⟨rest, hrest⟩
  · rcases List.eq_nil_or_concat rest with rfl | ⟨front, x, rfl⟩
    · exact ⟨[], by rw [List.append_nil] at hrest ⊢; exact hrest.symm⟩
    · rw [List.concat_eq_append, ← List.append_assoc] at hrest
      obtain ⟨-, hx⟩ := List.append_inj' hrest rfl
      cases hx
      have hmem : last ∈ e :: after := by
        rw [htail]
        simp
      rcases List.mem_cons.1 hmem with rfl | hmem
      · exact absurd he hlast
      · exact absurd (hafter _ hmem) hlast

theorem takes_of_due {store : Store} {pointer suffix : String} {plan : Plan} {part : Nat} {job : Job}
    (h : DueJob ctx tablePrefix store pointer suffix plan part job) :
    Takes ctx (Backlog.markerFor pointer)
      (store.list (Submission.dataPrefix (Backlog.markerFor pointer)) (some "/")) job := by
  obtain ⟨content, hcontent, rfl⟩ := h.isPart
  have hmem : content.uris ∈ plan.jobs.map (·.uris) := by
    refine List.mem_map_of_mem ?_
    cases plan with
    | query job =>
      cases hcontent
      exact List.mem_singleton.2 rfl
    | loads jobs => exact List.mem_of_getElem? hcontent
  rcases Store.gives_plan h.planned with hall | hparts
  · rw [hall] at hmem
    exact .inl (List.mem_singleton.1 hmem)
  · rw [hparts] at hmem
    obtain ⟨batch, hbatch, huris⟩ := List.mem_map.1 hmem
    exact .inr ⟨batch, hbatch, huris.symm⟩

theorem Supplied.mono {job : Job} (h : Supplied ctx marker since s job) (hlog : s.log <+: s'.log)
    (haccepted : s.site.accepted ⊆ s'.site.accepted) : Supplied ctx marker since s' job := by
  obtain ⟨before, listing, after, reply, heq, htakes, hsubmit⟩ := h.gathered
  obtain ⟨more, hmore⟩ := hlog
  refine ⟨h.new, haccepted h.accepted, before, listing, after ++ more, reply, ?_, htakes,
    List.mem_append_left _ hsubmit⟩
  rw [← hmore, heq]
  simp

/-! ## From the writing of a pointer on -/

variable (ctx tablePrefix) in
/-- The last job of a marker that the lock names was gathered and accepted since. -/
def Renewed (marker : String) (since s : Scene) : Prop :=
  ∀ id, NamesLast ctx tablePrefix marker s id → id ∈ s.site.ids →
    ∃ job, job.id = id ∧ Supplied ctx marker since s job

variable (ctx tablePrefix) in
/-- **What is true from the writing of a pointer on**: as soon as the lock does not name the last job of before, the one
that it names is newer. -/
structure Since (marker : String) (since s : Scene) : Prop where
  log : since.log <+: s.log
  accepted : since.site.accepted <+: s.site.accepted
  unused : Unused ctx tablePrefix s
  renewed : (¬ ∃ id, NamesLast ctx tablePrefix marker since id) ∨ s.site.accepted ≠ since.site.accepted →
    Renewed ctx tablePrefix marker since s

theorem Since.refl (h : Unused ctx tablePrefix s) : Since ctx tablePrefix marker s s where
  log := List.prefix_rfl
  accepted := List.prefix_rfl
  unused := h
  renewed hcond id hlast _ := by
    rcases hcond with hnone | hne
    · exact absurd ⟨id, hlast⟩ hnone
    · exact absurd rfl hne

theorem Renewed.of_same (h : Renewed ctx tablePrefix marker since s)
    (hlock : s'.lock ctx tablePrefix = s.lock ctx tablePrefix) (haccepted : s'.site.accepted = s.site.accepted)
    (hlog : s.log <+: s'.log) : Renewed ctx tablePrefix marker since s' := by
  rintro id ⟨hid, hlast⟩ hmem
  rw [Site.ids, haccepted] at hmem
  obtain ⟨job, hjob, hsupplied⟩ := h id ⟨hlock ▸ hid, hlast⟩ hmem
  exact ⟨job, hjob, hsupplied.mono hlog (haccepted ▸ List.Subset.refl _)⟩

/-- The last job of a marker is called like all its parts. -/
theorem NamesLast.eq_make {id : String} (h : NamesLast ctx tablePrefix marker s id) :
    ∃ suffix, JobId.IsSuffix suffix ∧ id = JobId.make ctx.settings.jobPrefix marker suffix ∧
      (JobId.splitPart id).1 = JobId.make ctx.settings.jobPrefix marker suffix := by
  obtain ⟨-, hfor, htag⟩ := h
  obtain ⟨suffix, hs, hbase⟩ := JobId.isFor_iff.1 hfor
  refine ⟨suffix, hs, ?_, hbase⟩
  rcases JobId.splitPart_cases id with hsplit | ⟨_, _, _, _, _, _, _, hsplit⟩
  · rw [hsplit] at hbase
    exact hbase
  · rw [hsplit] at htag
    cases htag

theorem renewed_of_claim {pointer suffix : String} {plan : Plan} {part : Nat} {job : Job}
    (hunused : Unused ctx tablePrefix s) (hdue : DueJob ctx tablePrefix s.site.store pointer suffix plan part job)
    (hturn : Turn ctx tablePrefix s pointer suffix part) (hlock : s'.lock ctx tablePrefix = some (.job job.id))
    (haccepted : s'.site.accepted = s.site.accepted) : Renewed ctx tablePrefix marker since s' := by
  intro id hlast hmem
  obtain ⟨suffix', hs', hid, hbase⟩ := hlast.eq_make
  obtain rfl : id = job.id := by
    have := hlast.1
    rw [hlock] at this
    cases this
    rfl
  rw [hid, hdue.make_eq hs' hbase, Site.ids, haccepted] at hmem
  exact absurd hmem (hturn.notMem_ids hdue.hex hunused)

variable {roster : Roster ctx.settings.jobPrefix} {q : String}

theorem renewed_of_submit (hlead : JobId.IsLead ctx.settings.jobPrefix) (hbasic : Basic tablePrefix roster s)
    (hq : roster.has q) (houtside : ∃ front last, since.log = front ++ [last] ∧ ¬ last.IsCall)
    (h : Since ctx tablePrefix (Backlog.markerFor q) since s) {job : Job} (hannounced : Announced ctx tablePrefix s job)
    (hnew : job.id ∉ s.site.ids) (hstore : s'.site.store = s.site.store)
    (haccepted : s'.site.accepted = s.site.accepted ++ [job])
    (hlog : ∃ reply, s'.log = s.log ++ [.call (.submit job) reply]) :
    Renewed ctx tablePrefix (Backlog.markerFor q) since s' := by
  intro id hlast _
  obtain ⟨suffix', hs', -, hbase⟩ := hlast.eq_make
  have hlock : s.lock ctx tablePrefix = some (.job id) := by rw [lock, ← hstore]; exact hlast.1
  obtain rfl := hannounced.id_eq hlead hlock
  obtain ⟨store, now, pointer, suffix, plan, part, hwritten, hdue, -, before, after, heq, hcalls⟩ := hannounced
  have hpointer : roster.has pointer := by
    refine hbasic.listed pointer ?_
    rw [hwritten, Store.pointers_write _ _ (Backlog.lock_notMem_folder tablePrefix)]
    exact List.mem_of_head? hdue.head
  obtain rfl := roster.distinct hq hpointer (JobId.make_inj hs' hdue.hex (hdue.make_eq hs' hbase)).1
  obtain ⟨reply, hreply⟩ := hlog
  obtain ⟨front, last, hfront, hno⟩ := houtside
  obtain ⟨more, hmore⟩ := h.log
  obtain ⟨rest, rfl⟩ : ∃ rest, before = since.log ++ rest := by
    rw [hfront]
    refine eq_append_of_isCall hno ?_ hcalls (by rw [← hfront, hmore, heq])
    exact trivial
  refine ⟨job, rfl, fun hmem => hnew ?_, by rw [haccepted]; simp, rest, _, after ++ [.call (.submit job) reply], reply,
    ?_, takes_of_due hdue, by simp⟩
  · exact List.map_subset _ h.accepted.subset hmem
  · rw [hreply, heq]
    simp

theorem Since.of_move (hlead : JobId.IsLead ctx.settings.jobPrefix) (hbasic : Basic tablePrefix roster s)
    (hq : roster.has q) (houtside : ∃ front last, since.log = front ++ [last] ∧ ¬ last.IsCall)
    (h : Since ctx tablePrefix (Backlog.markerFor q) since s) (hmove : Move ctx tablePrefix s s')
    (hlog : s.log <+: s'.log) : Since ctx tablePrefix (Backlog.markerFor q) since s' := by
  have hunused := h.unused.of_move hlead hmove
  have hgrown : since.log <+: s'.log := h.log.trans hlog
  cases hmove with
  | idle hlock _ haccepted =>
    exact ⟨hgrown, haccepted ▸ h.accepted, hunused,
      fun hcond => (h.renewed (haccepted ▸ hcond)).of_same hlock haccepted hlog⟩
  | pop _ _ _ hlock haccepted =>
    exact ⟨hgrown, haccepted ▸ h.accepted, hunused,
      fun hcond => (h.renewed (haccepted ▸ hcond)).of_same hlock haccepted hlog⟩
  | fail hlock _ haccepted =>
    refine ⟨hgrown, haccepted ▸ h.accepted, hunused, ?_⟩
    rintro - id ⟨hlast, -⟩
    rw [hlock] at hlast
    cases hlast
  | drain _ hlock _ haccepted =>
    refine ⟨hgrown, haccepted ▸ h.accepted, hunused, ?_⟩
    rintro - id ⟨hlast, -⟩
    rw [hlock] at hlast
    cases hlast
  | claim hdue hturn hlock _ haccepted =>
    exact ⟨hgrown, haccepted ▸ h.accepted, hunused, fun _ => renewed_of_claim h.unused hdue hturn hlock haccepted⟩
  | submit hannounced hnew hstore haccepted hcall =>
    refine ⟨hgrown, haccepted ▸ h.accepted.trans (List.prefix_append _ _), hunused, fun _ => ?_⟩
    exact renewed_of_submit hlead hbasic hq houtside h hannounced hnew hstore haccepted hcall

end Scene

namespace Relay

open Scene

variable {ctx : Context} {tablePrefix : String}

theorem unused_of_outside {key : String} {s s' : Scene} (hkey : key ≠ TableLock.keyOf tablePrefix)
    (houtside : Outside key s s') (h : Unused ctx tablePrefix s) : Unused ctx tablePrefix s' := by
  intro id marker suffix index hlock
  rw [Site.ids, houtside.accepted_eq]
  exact h id marker suffix index ((houtside.lockKept hkey).lock_eq ▸ hlock)

theorem since_of_outside {key marker : String} {since s s' : Scene} (hkey : key ≠ TableLock.keyOf tablePrefix)
    (houtside : Outside key s s') (h : Since ctx tablePrefix marker since s) :
    Since ctx tablePrefix marker since s' := by
  have hkept : LockKept tablePrefix s s' := houtside.lockKept hkey
  have haccepted := houtside.accepted_eq
  exact ⟨h.log.trans hkept.log, haccepted ▸ h.accepted, unused_of_outside hkey houtside h.unused,
    fun hcond => (h.renewed (haccepted ▸ hcond)).of_same hkept.lock_eq haccepted hkept.log⟩

/-- Others do what they like, as long as the backlog holds pointers of the roster only. -/
def Rostered {jobPrefix : String} (tablePrefix : String) (roster : Roster jobPrefix) (_key : String) (_s s' : Scene) :
    Prop :=
  ∀ q ∈ s'.site.store.pointers tablePrefix, roster.has q

/-- Others write a pointer. -/
def enqueue (relay : Relay) (pointer : String) (body : Octets) (now : Timestamp) : Relay :=
  ⟨⟨{ relay.scene.site with store := relay.scene.site.store.write pointer body now },
    relay.scene.log ++ [.wrote pointer]⟩, relay.running⟩

variable {roster : Roster ctx.settings.jobPrefix} {start relay later : Relay} {q : String}

theorem orderly_of_steps (hlead : JobId.IsLead ctx.settings.jobPrefix) (hstart : start.Unbegun tablePrefix)
    (hlisted : ∀ q ∈ start.scene.site.store.pointers tablePrefix, roster.has q)
    (hsteps : Relation.ReflTransGen (Step ctx tablePrefix (Rostered tablePrefix roster)) start relay) :
    Orderly tablePrefix roster relay ∧ Unused ctx tablePrefix relay.scene := by
  refine Relay.induct (Unused ctx tablePrefix) hlead (fun _ _ _ _ ho => ho)
    (fun _ hunused hkey houtside _ => unused_of_outside hkey houtside hunused)
    (fun _ hunused hguard hreplies => hunused.of_move hlead (move_of_guard hlead hguard hreplies))
    (hstart.orderly hlisted) ?_ hsteps
  intro id marker suffix index hlock
  rw [Scene.lock, Store.lockBody, hstart.lock] at hlock
  cases hlock

/-- **When a pointer is served.**  A subscriber that is about to take away a pointer which others wrote has seen a job for
its marker end well that listed the files since, exactly if the lock did not name the last job of the marker by then, or
some job was accepted since. -/
theorem served_iff (hlead : JobId.IsLead ctx.settings.jobPrefix) (hstart : start.Unbegun tablePrefix)
    (hlisted : ∀ q ∈ start.scene.site.store.pointers tablePrefix, roster.has q)
    (hbefore : Relation.ReflTransGen (Step ctx tablePrefix (Rostered tablePrefix roster)) start relay)
    (hrest : relay.Resting) (hq : startsWith (Backlog.folder tablePrefix) q = true) (hknown : roster.has q)
    (body : Octets) (now : Timestamp)
    (hafter : Relation.ReflTransGen (Step ctx tablePrefix (Rostered tablePrefix roster)) (relay.enqueue q body now)
      later)
    {precondition : Precondition} {next : CloudCall.Reply (.delete q precondition) → CloudProgram Unit}
    (hdelete : later.running = some (Program.ask (I := Cloud) (.delete q precondition) next)) :
    Served ctx (Backlog.markerFor q) (relay.enqueue q body now).scene later.scene ↔
      (¬ ∃ id, NamesLast ctx tablePrefix (Backlog.markerFor q) relay.scene id) ∨
        later.scene.site.accepted ≠ relay.scene.site.accepted := by
  have hkey : q ≠ TableLock.keyOf tablePrefix := Backlog.ne_lock_of_startsWith hq
  have hwrite : Outside q relay.scene (relay.enqueue q body now).scene := .write body now
  have hlock : (relay.enqueue q body now).scene.lock ctx tablePrefix = relay.scene.lock ctx tablePrefix :=
    (hwrite.lockKept hkey).lock_eq
  have hbasic := (orderly_of_steps hlead hstart hlisted hbefore).1.basic
  have hrostered : Rostered tablePrefix roster q relay.scene (relay.enqueue q body now).scene := by
    intro q' hq'
    rcases Agenda.mem_pointers_of_outside hwrite hq' with hq' | ⟨rfl, -⟩
    · exact hbasic.listed q' hq'
    · exact hknown
  obtain ⟨horderly, hunused⟩ := orderly_of_steps hlead hstart hlisted
    (hbefore.tail (.others hrest hkey hwrite hrostered))
  obtain ⟨horderly', hsince⟩ := Relay.induct
    (Since ctx tablePrefix (Backlog.markerFor q) (relay.enqueue q body now).scene) hlead (fun _ _ _ _ ho => ho)
    (fun _ h hkey houtside _ => since_of_outside hkey houtside h)
    (fun hbasic h hguard hreplies => h.of_move hlead hbasic hknown ⟨_, _, rfl, id⟩
      (move_of_guard hlead hguard hreplies) (hreplies.log ▸ List.prefix_append _ _))
    horderly (Since.refl hunused) hafter
  constructor
  · rintro ⟨job, hsupplied, -⟩
    refine .inr fun heq => hsupplied.new ?_
    exact List.mem_map_of_mem (heq ▸ hsupplied.accepted)
  · intro hcond
    obtain ⟨hguard, -⟩ := horderly'.keeps _ hdelete
    have hfinished : Finished ctx tablePrefix later.scene q := by
      rcases hguard with ⟨he, -⟩ | hfinished | rfl
      · exact absurd he hkey
      · exact hfinished
      · rw [Backlog.backfill_notMem_folder] at hq
        cases hq
    obtain ⟨-, id, hid, hended, hfor, htag⟩ := hfinished
    have ⟨status, hseen, _⟩ := hended
    have hrenewed : Renewed ctx tablePrefix (Backlog.markerFor q) (relay.enqueue q body now).scene later.scene := by
      refine hsince.renewed (hcond.imp_left fun hnone => ?_)
      rintro ⟨id, hlast, hrest⟩
      exact hnone ⟨id, hlock ▸ hlast, hrest⟩
    obtain ⟨job, rfl, hsupplied⟩ := hrenewed id ⟨hid, hfor, htag⟩ (horderly'.basic.seen _ _ hseen)
    exact ⟨job, hsupplied, hfor, hended⟩

/-- A table with a pointer to its second batch; half a second later the batch gets another file, and the pointer is
written anew. -/
def overwrittenTrial : World :=
  { Trial.table ["d/t/_backlog/b/_SUCCESS"] with
    warehouse := { scriptOf := fun _ => { runningPolls := 1 } }
    planned := [(.ofMillis 500, .produce
      [("d/t/b/new.csv", [52]), ("d/t/b/_SUCCESS", []), ("d/t/_backlog/b/_SUCCESS", [])] none)] }

/-- **A pointer that is written anew while the lock names its last job is taken away for that job**: the new file is there
and the backlog is empty, but no job has read it. -/
theorem unread_of_overwritten :
    let site := (overwrittenTrial.shift Trial.context "d/t" 34).site
    (site.store.get? "d/t/b/new.csv").isSome = true ∧ site.store.pointers "d/t" = [] ∧
      ∀ job ∈ site.accepted, "gs://lake/d/t/b/new.csv" ∉ job.uris := by
  decide +kernel

/-- A pointer is written between two subscribers, the second of which is followed for some calls. -/
theorem exists_steps_enqueue (hlead : JobId.IsLead ctx.settings.jobPrefix) {w : World} (hcalm : w.Calm) {n m : Nat}
    (hroom : w.idsDrawn + n + m < 16 ^ 12) (hstart : Unbegun tablePrefix ⟨⟨w.site, []⟩, none⟩)
    (hlisted : ∀ q ∈ w.site.store.pointers tablePrefix, roster.has q)
    (hq : startsWith (Backlog.folder tablePrefix) q = true) (hknown : roster.has q) :
    ∃ log log', Relation.ReflTransGen (Step ctx tablePrefix (Rostered tablePrefix roster)) ⟨⟨w.site, []⟩, none⟩
        ⟨⟨(w.shift ctx tablePrefix n).site, log⟩, none⟩ ∧
      Relation.ReflTransGen (Step ctx tablePrefix (Rostered tablePrefix roster))
        (enqueue ⟨⟨(w.shift ctx tablePrefix n).site, log⟩, none⟩ q [] (w.shift ctx tablePrefix n).instant)
        ⟨⟨((((w.shift ctx tablePrefix n).given q []).given (BackfillMarker.keyOf tablePrefix) []).runFor m
            (Subscriber.run ctx tablePrefix).errand).2.site, log'⟩,
          some ((((w.shift ctx tablePrefix n).given q []).given (BackfillMarker.keyOf tablePrefix) []).runFor m
            (Subscriber.run ctx tablePrefix).errand).1⟩ := by
  obtain ⟨log, hfirst, -, hcalm', hdrawn⟩ :=
    exists_steps_shift ctx tablePrefix (Rostered tablePrefix roster) hcalm n (by omega) []
  have hbasic := (orderly_of_steps hlead hstart hlisted hfirst).1.basic
  have hposted : Rostered tablePrefix roster (BackfillMarker.keyOf tablePrefix)
      ⟨((w.shift ctx tablePrefix n).given q []).site, log ++ [.wrote q]⟩
      ⟨(((w.shift ctx tablePrefix n).given q []).given (BackfillMarker.keyOf tablePrefix) []).site,
        log ++ [.wrote q] ++ [.wrote (BackfillMarker.keyOf tablePrefix)]⟩ := by
    intro q' hq'
    have hq' : q' ∈ ((w.shift ctx tablePrefix n).given q []).site.store.pointers tablePrefix :=
      Store.pointers_write _ _ (Backlog.backfill_notMem_folder tablePrefix) ▸ hq'
    have hwritten : Outside q ⟨(w.shift ctx tablePrefix n).site, log⟩
        ⟨((w.shift ctx tablePrefix n).given q []).site, log ++ [.wrote q]⟩ := .write [] _
    rcases Agenda.mem_pointers_of_outside hwritten hq' with hq' | ⟨rfl, -⟩
    · exact hbasic.listed q' hq'
    · exact hknown
  obtain ⟨log', hsecond, -⟩ := exists_steps_runFor ((hcalm'.given q []).given (BackfillMarker.keyOf tablePrefix) [])
    (n := m) (by rw [World.idsDrawn_given, World.idsDrawn_given]; omega) (Subscriber.run ctx tablePrefix).errand _
  exact ⟨log, log', hfirst, .head (step_given [] _ (BackfillMarker.keyOf_ne_lock _ _) hposted) (.head .start hsecond)⟩

/-- The pointer is written anew when the lock names the first part of two; by the time the pointer is taken away, the
second part has read what is there then. -/
theorem served_iff_trial : ∃ relay later : Relay, ∃ now,
    (¬ ∃ id, NamesLast Trial.context "d/t" "d/t/a/_SUCCESS" relay.scene id) ∧
      Served Trial.context "d/t/a/_SUCCESS" (relay.enqueue "d/t/_backlog/a/_SUCCESS" [] now).scene later.scene := by
  have hlead : JobId.IsLead Trial.context.settings.jobPrefix := ⟨_, _, rfl, by decide⟩
  have hnone : (Trial.table ["d/t/_backlog/a/_SUCCESS"]).idsDrawn = 0 := by decide +kernel
  let roster : Roster Trial.context.settings.jobPrefix :=
    { has := (· = "d/t/_backlog/a/_SUCCESS"), distinct := fun hq hq' _ => hq.trans hq'.symm }
  have hstart : Unbegun "d/t" ⟨⟨(Trial.table ["d/t/_backlog/a/_SUCCESS"]).site, []⟩, none⟩ :=
    ⟨by decide +kernel, by decide +kernel, rfl, rfl⟩
  have hknown : roster.has "d/t/_backlog/a/_SUCCESS" := rfl
  have hlisted : ∀ q ∈ (Trial.table ["d/t/_backlog/a/_SUCCESS"]).site.store.pointers "d/t", roster.has q := by
    show ∀ q ∈ (Trial.table ["d/t/_backlog/a/_SUCCESS"]).site.store.pointers "d/t", q = "d/t/_backlog/a/_SUCCESS"
    decide +kernel
  have hmarker : Backlog.markerFor "d/t/_backlog/a/_SUCCESS" = "d/t/a/_SUCCESS" := by decide +kernel
  have hlock : (((Trial.table ["d/t/_backlog/a/_SUCCESS"]).shift Trial.context "d/t" 20).site.store.lockBody
      Trial.context.settings.jobPrefix "d/t") =
        some (.job "gcf-ingest-d-t-a-_SUCCESS-00000000000040008000000000000001-part0") := by decide +kernel
  have hpart : (JobId.splitPart "gcf-ingest-d-t-a-_SUCCESS-00000000000040008000000000000001-part0").2 ≠ none := by
    decide +kernel
  have hdeleting : World.deleting? (((((Trial.table ["d/t/_backlog/a/_SUCCESS"]).shift Trial.context "d/t" 20).given
      "d/t/_backlog/a/_SUCCESS" []).given (BackfillMarker.keyOf "d/t") []).runFor 32
      (Subscriber.run Trial.context "d/t").errand).1 = some "d/t/_backlog/a/_SUCCESS" := by decide +kernel
  obtain ⟨log, log', hbefore, hafter⟩ := exists_steps_enqueue hlead (Trial.calm_table _) (n := 20) (m := 32) (by omega)
    hstart hlisted (by decide) hknown
  obtain ⟨precondition, next, hdelete⟩ := World.exists_of_deleting? hdeleting
  have hnames : ¬ ∃ id, NamesLast Trial.context "d/t" "d/t/a/_SUCCESS"
      ⟨((Trial.table ["d/t/_backlog/a/_SUCCESS"]).shift Trial.context "d/t" 20).site, log⟩ id := by
    rintro ⟨id, hid, -, hlast⟩
    rw [Scene.lock, hlock] at hid
    cases hid
    exact hpart hlast
  have hserved := (served_iff hlead hstart hlisted hbefore (fun _ h => by cases h) (by decide) hknown [] _ hafter
    (congrArg some hdelete)).2 (.inl (by rw [hmarker]; exact hnames))
  rw [hmarker] at hserved
  exact ⟨⟨⟨_, log⟩, none⟩, _, _, hnames, hserved⟩

end Relay
end Intake
