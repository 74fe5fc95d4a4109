import Intake.Proofs.Dispatching
import Intake.Proofs.Lease
import Intake.Proofs.Pop
/-!
# Frozen — a recorded failure stops its table

A failure that was left in the lock is read as set by hand, under every prefix of job names.  A subscriber that reads such
a lock sleeps and reads it again; it never comes to submitting a job, taking a pointer away or giving up the lock.  No
other notification touches the lock.  In the backlog folder none deletes anything but what it takes for the backfill marker
of a table that lies there.  So nothing that the engine is notified of moves the table, until somebody removes the lock;
but a pointer that has the name of a backfill marker may get lost (`Frozen.deleted_of_abandoned`).
-/
namespace Intake

/-- **What may come of a program that nobody disturbs.** -/
def Site.Yields {α : Type} : CloudProgram α → Site → α → Site → Prop
  | Program.done b, site, a, site' => a = b ∧ site' = site
  | Program.ask c next, site, a, site' => ∃ reply mid, Answers c site reply mid ∧ Yields (next reply) mid a site'
  | Program.halt _, _, _, _ => False

namespace TableLock

variable {lock lock' : TableLock} {site site' : Site}

/-- A failure that was left in the lock stands there, under the version that the handle remembers. -/
theorem yields_recordError {message : String} (h : Site.Yields (lock.recordError message) site (.ok (), lock') site') :
    ∃ now, site'.store = site.store.write lock.key (Utf8.encode (lock.errorText message)) now ∧
      lock'.version = some (decimal site.store.nextGeneration) := by
  obtain ⟨reply, mid, hanswers, hnext⟩ := h
  obtain ⟨-, hunwritten⟩ | ⟨rfl, -, now, rfl⟩ := Site.Answers.put_cases hanswers
  · match reply, hnext, hunwritten with
    | .error fault, ⟨e, _⟩, _ => cases e
    | .ok (.conflict current), ⟨e, _⟩, _ => cases e
    | .ok (.written version), _, hunwritten => exact absurd rfl (hunwritten version)
  · obtain ⟨e, rfl⟩ := hnext
    cases e
    exact ⟨now, rfl, rfl⟩

/-- A failure can be left in a lock that is as it was seen. -/
theorem yields_recordError_of_free {message : String} (now : Timestamp)
    (hfree : Store.refuses? (.unchanged lock.version) (site.store.get? lock.key) = none) :
    Site.Yields (lock.recordError message) site (.ok (), lock.seen (some (decimal site.store.nextGeneration)))
      { site with store := site.store.write lock.key (Utf8.encode (lock.errorText message)) now } := by
  have hput : site.store.put lock.key (Utf8.encode (lock.errorText message)) (.unchanged lock.version) now =
      (.written (decimal site.store.nextGeneration),
        site.store.write lock.key (Utf8.encode (lock.errorText message)) now) := by
    rw [Store.put, hfree]
  exact ⟨.ok (.written (decimal site.store.nextGeneration)), _, .inr ⟨now, by rw [hput], by rw [hput]⟩, rfl, rfl⟩

/-- What a lock is read as, and under which version. -/
theorem yields_read {body : Option LockBody} (h : Site.Yields lock.read site (.ok body, lock') site') :
    lock'.version = none ∨ ∃ object, site.store.get? lock.key = some object ∧
      lock'.version = some (decimal object.generation) ∧ body = LockBody.ofOctets? lock.jobPrefix object.body := by
  obtain ⟨reply, mid, hanswers, hnext⟩ := h
  obtain ⟨rfl, hreply⟩ := hanswers
  match reply, hnext, hreply with
  | .error fault, ⟨e, _⟩, _ => cases e
  | .ok none, ⟨e, _⟩, _ =>
    cases e
    exact .inl rfl
  | .ok (some seen), ⟨reply', mid', hanswers', hnext'⟩, hreply =>
    obtain ⟨rfl, hreply'⟩ := hanswers'
    have hseen : mid'.store.head? lock.key = some seen := by
      obtain hreply | ⟨fault, e, -⟩ := hreply
      · exact Except.ok.inj (Option.some.inj hreply)
      · cases e
    obtain ⟨object, hobject, rfl⟩ := Option.map_eq_some_iff.1 hseen
    match reply', hnext', hreply' with
    | .ok octets, ⟨e, _⟩, hreply' =>
      cases e
      obtain hreply' | ⟨fault, e, -⟩ := hreply'
      · obtain ⟨found, hfound, rfl⟩ := Store.get?_of_reply? hreply'
        obtain rfl : object = found := Option.some.inj (hobject.symm.trans hfound)
        exact .inr ⟨object, hobject, rfl, rfl⟩
      · cases e
    | .error fault, hnext', _ =>
      change Site.Yields (if fault.isNotFound = true then _ else _) _ _ _ at hnext'
      split at hnext'
      · obtain ⟨e, -⟩ := hnext'
        cases e
        exact .inl rfl
      · obtain ⟨e, -⟩ := hnext'
        cases e

end TableLock

/-! ## What leaves a table alone -/

/-- A notification, and the context in which it is handled. -/
structure Notice where
  ctx : Context
  notification : Notification

/-- The notification starts a subscriber of the table. -/
def Notice.Serves (tablePrefix : String) (notice : Notice) : Prop :=
  Dispatch.triggerOf notice.ctx.layout notice.notification = .backfill ∧
    Dispatch.atTablePrefix? notice.ctx.layout notice.notification.key = some tablePrefix

/-- The call leaves the lock of a table alone, and deletes nothing in its backlog but what is a backfill marker to the
notification. -/
def CloudCall.Spares (tablePrefix : String) (notice : Notice) : CloudCall → Prop
  | .put key _ _ => key ≠ TableLock.keyOf tablePrefix
  | .delete key _ => key ≠ TableLock.keyOf tablePrefix ∧ (startsWith (Backlog.folder tablePrefix) key = true →
    ∃ other, Dispatch.table? notice.ctx.layout notice.notification = some other ∧ key = BackfillMarker.keyOf other)
  | _ => True

namespace CloudCall

variable {tablePrefix other : String} {notice : Notice} {c : CloudCall}

theorem IsClaiming.spares (h : c.IsClaiming) : c.Spares tablePrefix notice := by
  cases c with
  | put key =>
    obtain ⟨marker, created, rfl⟩ := h
    exact Claim.key_ne_lock _ _ _
  | delete => exact h.elim
  | _ => trivial

theorem IsModest.spares (h : c.IsModest other)
    (hfound : Dispatch.table? notice.ctx.layout notice.notification = some other)
    (htable : Key.isBacklog (BackfillMarker.keyOf tablePrefix) = false) : c.Spares tablePrefix notice := by
  cases c with
  | put key =>
    rcases h with ⟨marker, created, rfl⟩ | hpointer | rfl
    · exact Claim.key_ne_lock _ _ _
    · exact Backlog.ne_join_of_startsWith htable (by decide) hpointer
    · exact BackfillMarker.keyOf_ne_lock _ _
  | delete key =>
    obtain rfl := h
    exact ⟨BackfillMarker.keyOf_ne_lock _ _, fun _ => ⟨other, hfound, rfl⟩⟩
  | submit => exact h.elim
  | _ => trivial

/-- A subscriber of another table has its own lock and its own pointers. -/
theorem IsOwn.spares {jobPrefix : String} {log : List Deed} (h : c.IsOwn jobPrefix other log)
    (hfound : Dispatch.table? notice.ctx.layout notice.notification = some other) (hne : other ≠ tablePrefix)
    (hapart : Apart tablePrefix other) : c.Spares tablePrefix notice := by
  have hlock : TableLock.keyOf other ≠ TableLock.keyOf tablePrefix := fun e =>
    hne (by rw [← TableLock.directory_keyOf other, e, TableLock.directory_keyOf])
  cases c with
  | put key =>
    rcases h with rfl | rfl | ⟨created, rfl⟩
    · exact hlock
    · exact BackfillMarker.keyOf_ne_lock _ _
    · exact Claim.key_ne_lock _ _ _
  | delete key =>
    rcases h with rfl | rfl | hpopped
    · refine ⟨hlock, fun hin => ?_⟩
      rw [TableLock.keyOf, Backlog.join_notMem_folder_of_apart (by decide) hapart.outside] at hin
      cases hin
    · exact ⟨BackfillMarker.keyOf_ne_lock _ _, fun _ => ⟨other, hfound, rfl⟩⟩
    · have hpointer := hpopped.startsWith
      refine ⟨?_, fun hin => absurd (Backlog.eq_of_startsWith hpointer hin hapart.outside hapart.around) hne⟩
      rintro rfl
      rw [TableLock.keyOf, Backlog.join_notMem_folder_of_apart (by decide) hapart.around] at hpointer
      cases hpointer
  | _ => trivial

end CloudCall

namespace Frozen

open Pool (Stand)

variable {tablePrefix : String}

/-- The lock is this object, which reads as set by hand. -/
structure Held (jobPrefix tablePrefix : String) (object : StoredObject) (site : Site) : Prop where
  get? : site.store.get? (TableLock.keyOf tablePrefix) = some object
  manual : ∃ text, LockBody.ofOctets? jobPrefix object.body = some (.manual text)

/-- **A subscriber that reads a lock set by hand gets no further.** -/
def outline {later : Site → Site → Prop} {ok : CloudCall → Stand → Prop} (ctx : Context) (tablePrefix : String)
    (object : StoredObject) (hfree : ∀ c t, c.IsFree tablePrefix → ok c t) :
    Outline (Stand.among later (Held ctx.settings.jobPrefix tablePrefix object) ok) ctx tablePrefix where
  Seen body _ _ := ∃ text, body = some (.manual text)
  Told _ _ _ _ := False
  Over _ _ _ := False
  First _ _ _ _ := False
  Open _ _ := False
  Next _ _ _ := False
  Turn _ _ _ _ _ := False
  Planned _ _ _ _ _ _ := False
  Claimed _ _ := False
  Mild _ _ := False
  Start _ := True
  posts hx := Stand.keeps_only hx.free hfree
  starts hx _ := Stand.keeps_only hx.posting.free hfree
  trigger _ := Stand.keeps_trigger hfree
  records _ _ _ h := h.elim
  lasts _ _ h := h
  mildSeen h := by
    obtain ⟨text, e⟩ := h
    cases e
  mildTurn h := h
  readLock := by
    refine Leased.keeps_readLock (fun _ _ _ => hfree _ _ trivial) ?_ (fun _ _ _ _ _ _ => hfree _ _ trivial) ?_ ?_
    · rintro s₁ ⟨site, -, hheld, ⟨-, hreply | ⟨fault, e, -⟩⟩, -⟩
      · have hnone : site.store.head? (TableLock.keyOf tablePrefix) = none := Except.ok.inj (Option.some.inj hreply)
        rw [Store.head?, hheld.get?] at hnone
        cases hnone
      · cases e
    · rintro seen s₁ body s₂ - ⟨site, -, hheld, ⟨-, hreply | ⟨fault, e, -⟩⟩, -⟩
      · obtain ⟨found, hfound, rfl⟩ := Store.get?_of_reply? hreply
        obtain rfl : object = found := Option.some.inj (hheld.get?.symm.trans hfound)
        exact hheld.manual
      · cases e
    · rintro seen s₁ fault s₂ - ⟨site, -, hheld, ⟨-, hreply | ⟨fault', e, hfault⟩⟩, -⟩ hgone
      · have hthere : site.store.reply? (.get (TableLock.keyOf tablePrefix)) = some (.ok object.body) := by
          simp only [Store.reply?, hheld.get?]
        cases hthere.symm.trans hreply
      · cases e
        rw [hfault] at hgone
        cases hgone
  waits hseen hx := (Stand.keeps_only hx fun c t hc => hfree c t (hc.isPassive.isFree _)).mono fun _ _ _ => hseen
  asks h := by
    obtain ⟨text, e⟩ := h
    cases e
  checks h := h.elim
  looks h := h.elim
  vacant h := by
    obtain ⟨text, e⟩ := h
    cases e
  empty h := h
  other h _ := h
  resumes h _ _ _ := h
  pops h _ _ := h.elim
  counts h := h.elim
  times h := h.elim
  next h := h.elim
  releases h := h.elim
  finds h := h.elim
  draws h := h.elim
  findsAgain h := h.elim
  plans h := h.elim
  claims h _ := h.elim
  submits h := h.elim

/-! ## Whatever the engine is notified of -/

/-- **Any notifications under valid settings** with this prefix of job names; others write and delete what they like but
the lock. -/
def rules (jobPrefix tablePrefix : String) : Rules Notice where
  program notice := (Dispatch.handle notice.ctx notice.notification).plain
  allows notice := notice.ctx.IsValid ∧ notice.ctx.settings.jobPrefix = jobPrefix
  outside key := key ≠ TableLock.keyOf tablePrefix
  replies _ _ _ _ := True

/-- The calls that are made for a notification: none moves the table, and a subscriber of it submits nothing. -/
def Harmless (tablePrefix : String) (notice : Notice) (c : CloudCall) : Prop :=
  c.Spares tablePrefix notice ∧ (notice.Serves tablePrefix → ∀ job, c ≠ .submit job)

def Later (tablePrefix : String) (s t : Site) : Prop :=
  t.store.get? (TableLock.keyOf tablePrefix) = s.store.get? (TableLock.keyOf tablePrefix)

/-- A call that leaves the lock alone leaves the object, whatever comes of it. -/
theorem later_of_spares {notice : Notice} {c : CloudCall} {reply : c.Reply} {site site' : Site}
    (h : c.Spares tablePrefix notice) (hanswers : Site.Answers c site reply site') : Later tablePrefix site site' := by
  cases c with
  | put key =>
    obtain ⟨rfl, -⟩ | ⟨-, -, now, rfl⟩ := hanswers.put_cases
    · rfl
    · exact Store.get?_write_of_ne _ _ _ (Ne.symm h)
  | delete key =>
    obtain ⟨rfl, -⟩ | ⟨-, -, -, rfl⟩ := hanswers.delete_cases
    · rfl
    · exact Store.get?_remove_of_ne _ (Ne.symm h.1)
  | submit job => obtain rfl | ⟨-, rfl⟩ := hanswers.submit_cases <;> rfl
  | freshId =>
    obtain ⟨-, -, rfl⟩ := hanswers
    rfl
  | _ =>
    rw [hanswers.eq_of_isPassive trivial]
    rfl

section Keeps

variable {jobPrefix : String} {object : StoredObject} {notice : Notice} {s : Stand}

abbrev among (jobPrefix tablePrefix : String) (object : StoredObject) (notice : Notice) : Surroundings Cloud Stand :=
  Stand.among (Later tablePrefix) (Held jobPrefix tablePrefix object) fun c _ => Harmless tablePrefix notice c

theorem harmless_of_isPassive {c : CloudCall} (h : c.IsPassive) : Harmless tablePrefix notice c :=
  ⟨h.isLoading.isClaiming.spares, fun _ job e => by rw [e] at h; exact h⟩

theorem harmless_of_isClaiming {c : CloudCall} (h : c.IsClaiming)
    (htrigger : Dispatch.triggerOf notice.ctx.layout notice.notification = .successMarker) :
    Harmless tablePrefix notice c :=
  ⟨h.spares, fun hserves => by cases htrigger.symm.trans hserves.1⟩

section Table

variable (hne : tablePrefix ≠ "") (htable : Key.isBacklog (BackfillMarker.keyOf tablePrefix) = false)

include htable

theorem harmless_of_isModest {c : CloudCall} {other : String} (h : c.IsModest other)
    (hfound : Dispatch.table? notice.ctx.layout notice.notification = some other) : Harmless tablePrefix notice c :=
  ⟨h.spares hfound htable, fun _ job e => by rw [e] at h; exact h⟩

include hne

/-- A subscriber of the table gets no further than the lock, and one of another table has its own. -/
theorem keeps_run {ctx : Context} (hsame : ctx.settings.jobPrefix = jobPrefix) (hvalid : notice.ctx.IsValid)
    {other : String} (htrigger : Dispatch.triggerOf notice.ctx.layout notice.notification = .backfill)
    (hfound : Dispatch.table? notice.ctx.layout notice.notification = some other) :
    (Subscriber.run ctx other).Keeps (among jobPrefix tablePrefix object notice) (fun _ _ => True) s := by
  subst hsame
  have hother : Dispatch.atTablePrefix? notice.ctx.layout notice.notification.key = some other := by
    simpa only [Dispatch.table?, htrigger] using hfound
  by_cases hsame : other = tablePrefix
  · subst hsame
    exact (outline ctx other object fun c t hc => harmless_of_isModest htable hc.isModest hfound).keeps_run trivial
  · refine (Pop.outline ctx other fun c t hc => ?_).keeps_run trivial
    refine ⟨hc.spares hfound hsame (hvalid.apart (Dispatch.name_of_backfill htrigger) hother hne htable), ?_⟩
    exact fun hserves => absurd (Option.some.inj (hother.symm.trans hserves.2)) hsame

/-- **Nothing that a notification sets off moves the table.** -/
def handling (h : (rules jobPrefix tablePrefix).allows notice) :
    Dispatch.Handling (among jobPrefix tablePrefix object notice) notice.ctx notice.notification where
  Before _ := True
  passive hc _ _ _ := harmless_of_isPassive hc
  looks _ _ _ := trivial
  takes htrigger _ := (Claim.claiming_take _).keeps_all fun hc _ _ _ => harmless_of_isClaiming hc htrigger
  loads htrigger := .any fun hc _ _ _ => harmless_of_isClaiming hc.isClaiming htrigger
  pushes hfound hkey _ _ _ := harmless_of_isModest htable (.inr (.inl hkey)) hfound
  clears hfound _ _ _ := harmless_of_isModest htable rfl hfound
  posts hfound := (BackfillMarker.posting_post _).free.modest.keeps_all fun hc _ _ _ => harmless_of_isModest htable hc hfound
  runs {other _} htrigger hfound _ := by
    generalize hctx : ({ notice.ctx with bucket := notice.notification.bucket } : Context) = ctx
    have hname : ctx.settings.jobPrefix = jobPrefix := by rw [← hctx, h.2]
    exact keeps_run hne htable hname h.1 htrigger hfound

end Table

end Keeps

/-- The discipline of all notifications while the lock is held. -/
def discipline (jobPrefix : String) (object : StoredObject) (hne : tablePrefix ≠ "")
    (htable : Key.isBacklog (BackfillMarker.keyOf tablePrefix) = false) :
    Pool.Discipline (rules jobPrefix tablePrefix) where
  later := Later tablePrefix
  ok notice c _ := Harmless tablePrefix notice c
  sound := Held jobPrefix tablePrefix object
  refl _ := rfl
  trans h h' := h'.trans h
  lasts h hheld := ⟨h.trans hheld.get?, hheld.manual⟩
  call _ hharmless hanswers := later_of_spares hharmless.1 hanswers.site
  write _ _ hkey _ := Store.get?_write_of_ne _ _ _ (Ne.symm hkey)
  remove hkey _ := Store.get?_remove_of_ne _ (Ne.symm hkey)
  keeps hallows := ((handling hne htable hallows).keeps_handle trivial).plain

/-- **A recorded failure freezes its table.**  Once a failure was left in the lock, under whatever prefix of job names,
every reading of the lock under that version says that it was set by hand.  And whatever notifications are handled from
then on, any number of them side by side, as long as nobody else touches the lock: the object stays as it is, no
subscriber of the table submits a job, and in the table's backlog nothing is deleted but what is the backfill marker of
another table, one that the notification is about.  The table is one that lies in no backlog. -/
theorem frozen_of_recorded {failure : Failure} {jobPrefix : String} {lock' : TableLock} {before : Site}
    {start : Pool Notice} (hnonempty : jobPrefix ≠ "") (lock : TableLock)
    (hlock : lock = (TableLock.ofTable tablePrefix jobPrefix).seen lock.version)
    (hrecorded : Site.Yields (lock.recordError failure.message) before (.ok (), lock') start.site)
    (hmembers : start.members = []) :
    (∀ (now now' : Site) (version version' : Option String) (body : Option LockBody),
      Store.Since (TableLock.keyOf tablePrefix) start.site.store now.store →
      Site.Yields ((TableLock.ofTable tablePrefix jobPrefix).seen version).read now
        (.ok body, (TableLock.ofTable tablePrefix jobPrefix).seen version') now' →
      version' = lock'.version → ∃ text, body = some (.manual text)) ∧
    (tablePrefix ≠ "" → Key.isBacklog (BackfillMarker.keyOf tablePrefix) = false →
      ∀ pool, Relation.ReflTransGen (Pool.Step (rules jobPrefix tablePrefix)) start pool →
        pool.site.store.get? (TableLock.keyOf tablePrefix) = start.site.store.get? (TableLock.keyOf tablePrefix) ∧
        ∀ member ∈ pool.members, ∀ deed ∈ member.log,
          (∀ key precondition, deed.call = .delete key precondition →
            startsWith (Backlog.folder tablePrefix) key = true →
            ∃ other, other ≠ tablePrefix ∧ key = BackfillMarker.keyOf other ∧
              Dispatch.table? member.errand.ctx.layout member.errand.notification = some other) ∧
          (member.errand.Serves tablePrefix → ∀ job, deed.call ≠ .submit job)) := by
  obtain ⟨now, hstore, hversion⟩ := TableLock.yields_recordError hrecorded
  let object : StoredObject := ⟨Utf8.encode (lock.errorText failure.message), before.store.nextGeneration, now⟩
  have hkey : lock.key = TableLock.keyOf tablePrefix := by rw [hlock]; rfl
  have hname : lock.jobPrefix = jobPrefix := by rw [hlock]; rfl
  have hheld : Held jobPrefix tablePrefix object start.site := by
    refine ⟨by rw [hstore, hkey, Store.get?_write_self], ?_⟩
    rw [← hname] at hnonempty ⊢
    exact lock.ofOctets?_errorText hnonempty failure
  refine ⟨fun now now' version version' body hsince hread hv => ?_, fun hne htable pool hsteps => ?_⟩
  · rw [hversion] at hv
    obtain hnone | ⟨found, hfound, hfoundVersion, rfl⟩ := TableLock.yields_read hread
    · rw [show version' = none from hnone] at hv
      cases hv
    · -- the object of that generation is the one that was written
      have hgeneration : found.generation = before.store.nextGeneration :=
        decimal_inj (Option.some.inj (hfoundVersion.symm.trans hv))
      have hold : found.generation < start.site.store.nextGeneration := by
        rw [hgeneration, hstore]
        exact Nat.lt_succ_self _
      have hsame : start.site.store.get? (TableLock.keyOf tablePrefix) = some found := hsince.object found hfound hold
      obtain rfl : object = found := Option.some.inj (hheld.get?.symm.trans hsame)
      exact hheld.manual
  · have horderly := (discipline jobPrefix object hne htable).orderly hheld hmembers hsteps
    refine ⟨horderly.sound.get?.trans hheld.get?.symm, fun member hmember deed hdeed => ?_⟩
    obtain ⟨earlier, after, hlog⟩ := List.append_of_mem hdeed
    obtain ⟨-, -, hspares, hserves⟩ := horderly.wentOn member hmember earlier deed after hlog
    refine ⟨fun key precondition hcall hin => ?_, hserves⟩
    rw [hcall] at hspares
    obtain ⟨other, hfound, rfl⟩ := hspares.2 hin
    refine ⟨other, ?_, rfl, hfound⟩
    -- the backfill marker of the table itself stands outside of the folder
    rintro rfl
    rw [Backlog.backfill_notMem_folder] at hin
    cases hin

/-! ## Two tables with a failure in their locks -/

def handle : TableLock := TableLock.ofTable "d/t" "gcf-ingest-"

def stopped (w : World) : World :=
  w.given handle.key (Utf8.encode (handle.errorText (Failure.noInput "d/t/a/").message))

/-- A failure was recorded, and then some calls are made for a notification, whoever else may do something. -/
theorem exists_steps_stopped (outside : String → Prop) {w : World} (calls : Nat)
    (hsteady : w.Steady (fun _ => True) calls) {notice : Notice} (hallows : (rules "gcf-ingest-" "d/t").allows notice)
    (hfree : Store.refuses? (.unchanged handle.version) (w.site.store.get? handle.key) = none) :
    Site.Yields (handle.recordError (Failure.noInput "d/t/a/").message) w.site
        (.ok (), handle.seen (some (decimal w.site.store.nextGeneration))) (stopped w).site ∧
      ∃ since log, Relation.ReflTransGen (Pool.Step { rules "gcf-ingest-" "d/t" with outside := outside })
        ⟨(stopped w).site, w.elapsed, []⟩
        ⟨((stopped w).runFor calls ((rules "gcf-ingest-" "d/t").program notice)).2.site,
          ((stopped w).runFor calls ((rules "gcf-ingest-" "d/t").program notice)).2.elapsed,
          [⟨notice, ((stopped w).runFor calls ((rules "gcf-ingest-" "d/t").program notice)).1, since, log⟩]⟩ := by
  refine ⟨TableLock.yields_recordError_of_free _ hfree, ?_⟩
  have habides : World.Abides { rules "gcf-ingest-" "d/t" with outside := outside } fun _ => True :=
    .of_all fun _ _ _ _ => trivial
  have hstopped : (stopped w).Steady (fun _ => True) calls := ⟨hsteady.calm.given _ _, trivial, hsteady.room⟩
  obtain ⟨since, log, -, -, -, hsteps⟩ := World.steps_runFor habides hstopped (Nat.le_refl calls) rfl (Nat.le_refl _)
    notice [] [] []
  exact ⟨since, log, .head (.join hallows) hsteps⟩

/-- The notification of the backfill marker of a table with usual names. -/
def triggered : Notice :=
  ⟨Trial.contextOf { keyPattern := "^(?P<dataset>[a-z]+)/(?P<table>[a-z]+)/" }, ⟨"lake", "d/t/_BACKFILL", none⟩⟩

/-- A failure is recorded on the trial table, and then a subscriber is started, which takes the backfill marker. -/
theorem frozen_of_recorded_trial : ∃ (start pool : Pool Notice) (member : Member Notice),
    Relation.ReflTransGen (Pool.Step (rules "gcf-ingest-" "d/t")) start pool ∧ start.members = [] ∧
    member ∈ pool.members ∧ member.errand.Serves "d/t" ∧
    start.site.store.nextGeneration < pool.site.store.nextGeneration ∧
    pool.site.store.get? (TableLock.keyOf "d/t") = start.site.store.get? (TableLock.keyOf "d/t") ∧
    ∀ deed ∈ member.log, ∀ job, deed.call ≠ .submit job := by
  have hallows : (rules "gcf-ingest-" "d/t").allows triggered :=
    ⟨⟨_, _, _, Trial.ofSettings_contextOf (by decide +kernel)⟩, by decide +kernel⟩
  have hserves : triggered.Serves "d/t" := ⟨by decide +kernel, by decide +kernel⟩
  obtain ⟨hrecorded, since, log, hsteps⟩ := exists_steps_stopped (rules "gcf-ingest-" "d/t").outside 9
    (Trial.steady_table Trial.pointers trivial (by decide)) hallows (by decide +kernel)
  have hmoved : (stopped (Trial.table Trial.pointers)).bucket.store.nextGeneration <
      ((stopped (Trial.table Trial.pointers)).runFor 9
        ((rules "gcf-ingest-" "d/t").program triggered)).2.bucket.store.nextGeneration := by
    decide +kernel
  obtain ⟨hget, hdeeds⟩ := (frozen_of_recorded (by decide) handle rfl hrecorded rfl).2 (by decide) (by decide) _ hsteps
  exact ⟨_, _, _, hsteps, rfl, List.mem_singleton_self _, hserves, hmoved, hget, fun deed hdeed =>
    (hdeeds _ (List.mem_singleton_self _) deed hdeed).2 hserves⟩

/-- Success markers have the name of backfill markers. -/
def misnamed : Settings where
  keyPattern := "^(?P<dataset>[a-z]+)/(?P<table>[a-z]+)/"
  gateName := some "GO"
  successName := Key.backfillName

def pointed : Notice := ⟨Trial.contextOf misnamed, ⟨"lake", "d/t/_backlog/_BACKFILL", none⟩⟩

/-- **A pointer is deleted although its table is frozen**, if success markers have the name of backfill markers: a
notification of the pointer has the monitor look after the folder of the backlog, in which the pointer is an abandoned
backfill marker. -/
theorem deleted_of_abandoned : ∃ (failure : Failure) (before : Site) (lock' : TableLock) (start pool : Pool Notice),
    Site.Yields (handle.recordError failure.message) before (.ok (), lock') start.site ∧ start.members = [] ∧
    Relation.ReflTransGen (Pool.Step { rules "gcf-ingest-" "d/t" with outside := fun _ => False }) start pool ∧
    Dispatch.triggerOf pointed.ctx.layout pointed.notification = .backlogItem ∧
    "d/t/_backlog/_BACKFILL" ∈ start.site.store.pointers "d/t" ∧ pool.site.store.pointers "d/t" = [] := by
  have hallows : (rules "gcf-ingest-" "d/t").allows pointed :=
    ⟨⟨_, _, _, Trial.ofSettings_contextOf (by decide +kernel)⟩, by decide +kernel⟩
  obtain ⟨hrecorded, since, log, hsteps⟩ := exists_steps_stopped (fun _ => False) 6
    (Trial.steady_bucketOf [("d/t/_backlog/_BACKFILL", [])] (by decide)) hallows (by decide +kernel)
  have hdeleted : ((stopped (Trial.bucketOf [("d/t/_backlog/_BACKFILL", [])])).runFor 6
      ((rules "gcf-ingest-" "d/t").program pointed)).2.site.store.pointers "d/t" = [] := by decide +kernel
  exact ⟨_, _, _, _, _, hrecorded, rfl, hsteps, by decide +kernel, by decide +kernel, hdeleted⟩

end Frozen
end Intake
