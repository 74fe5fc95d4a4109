import Intake.Proofs.Attempt
import Intake.Proofs.Frozen
/-!
# Gate — a table whose gate is closed is not worked on

Before a backfill marker is posted the gate is looked for, and a subscriber works on its table only after it has seen the
backfill marker.  So whoever works on a table has seen its gate or its backfill marker (`Opened`); as long as neither is
there, nobody has.  The monitor deletes an abandoned backfill marker without looking for the gate: an object of that name
in the backlog, which it takes for one, is the only thing there that may be deleted.
-/
namespace Intake

/-- The context of some valid settings, with this gate. -/
def Context.IsGated (gate : String) (ctx : Context) : Prop :=
  ∃ settings bucket patience, ofSettings settings bucket patience = .ok ctx ∧ settings.gateName = some gate

namespace Context.IsGated

variable {gate : String} {ctx : Context}

theorem isValid (h : ctx.IsGated gate) : ctx.IsValid := by
  obtain ⟨settings, bucket, patience, hctx, -⟩ := h
  exact ⟨settings, bucket, patience, hctx⟩

theorem gateName (h : ctx.IsGated gate) : ctx.layout.gateName = some gate := by
  obtain ⟨settings, bucket, patience, hctx, hgate⟩ := h
  obtain ⟨keys, rfl⟩ := eq_of_ofSettings hctx
  exact hgate

end Context.IsGated

/-! ## Looking for an object first -/

namespace Program

variable {α β : Type} {key : String}

/-- **The program only looks until it has seen an object**, if it ever does. -/
def Waits (key : String) : CloudProgram α → Prop
  | Program.done _ => True
  | Program.ask c next => c.IsPassive ∧ ∀ reply, (∃ info, Sighting key info c reply) ∨ (next reply).Waits key
  | Program.halt _ => True

end Program

namespace BackfillMarker

/-- A marker with a gate is posted only when the gate was seen. -/
theorem waits_post (key gate : String) : Program.Waits gate (post ⟨key, some gate⟩).run := by
  refine ⟨trivial, fun reply => ?_⟩
  match reply with
  | .error fault => exact .inr trivial
  | .ok none => exact .inr trivial
  | .ok (some info) => exact .inl ⟨info, .head⟩

end BackfillMarker

/-- A subscriber does nothing until it has seen the backfill marker. -/
theorem Subscriber.waits_run (ctx : Context) (tablePrefix : String) :
    Program.Waits (BackfillMarker.keyOf tablePrefix) (run ctx tablePrefix).run := by
  unfold run work
  cases ctx.settings.subscriberBudget with
  | error e => trivial
  | ok budget =>
    refine ⟨trivial, fun started => .inr ?_⟩
    show Program.Waits _ (Program.bind (Program.bind (Program.bind (Program.bind
      (Invocation.fitted Invocation.clockLimit (started + budget)).run _) _) _) _)
    rcases Nat.lt_or_ge (started + budget) Invocation.clockLimit with hroom | hroom
    · rw [Invocation.fitted_of_lt hroom]
      refine ⟨trivial, fun reply => ?_⟩
      match reply with
      | .error fault => exact .inr trivial
      | .ok none => exact .inr ⟨trivial, fun _ => .inr trivial⟩
      | .ok (some info) => exact .inl ⟨info, .head⟩
    · rw [Invocation.fitted_of_le hroom]
      trivial


/-! ## Behind the gate -/

namespace Gate

open Frozen (misnamed pointed)
open Trial (contextOf bucketOf)
open Pool (Stand)

def Seen (key : String) (log : List Deed) : Prop :=
  ∃ store info, ⟨store, .head key, .ok (some info)⟩ ∈ log

/-- The gate of the table or its backfill marker was seen. -/
def Opened (gate tablePrefix : String) (log : List Deed) : Prop :=
  Seen (Key.join tablePrefix gate) log ∨ Seen (BackfillMarker.keyOf tablePrefix) log

/-- The call works on the table, for a notification: it posts the backfill marker, writes the lock, takes a pointer away
or submits a job of a subscriber. -/
def Works (tablePrefix : String) (notice : Notice) : CloudCall → Prop
  | .put key _ _ => key = BackfillMarker.keyOf tablePrefix ∨ key = TableLock.keyOf tablePrefix
  | .delete key _ => startsWith (Backlog.folder tablePrefix) key = true ∧ Key.name key ≠ Key.backfillName
  | .submit _ => notice.Serves tablePrefix
  | _ => False

/-- **Any notifications under valid settings with this gate**; others write and delete what they like, but the backfill
marker and the lock of the table. -/
def rules (gate tablePrefix : String) : Rules Notice where
  program notice := (Dispatch.handle notice.ctx notice.notification).plain
  allows notice := notice.ctx.IsGated gate
  outside key := key ≠ BackfillMarker.keyOf tablePrefix ∧ key ≠ TableLock.keyOf tablePrefix
  replies _ _ _ _ := True

section Keeps

variable {gate tablePrefix : String} {notice : Notice} {s : Stand}

/-- Nobody works on the table who has not seen its gate or its backfill marker. -/
abbrev among (gate tablePrefix : String) (notice : Notice) : Surroundings Cloud Stand :=
  Stand.among (fun _ _ => True) (fun _ => True) fun c t => Works tablePrefix notice c → Opened gate tablePrefix t.log

theorem Opened.append {log : List Deed} (h : Opened gate tablePrefix log) (more : List Deed) :
    Opened gate tablePrefix (log ++ more) :=
  h.imp (fun ⟨store, info, hmem⟩ => ⟨store, info, List.mem_append_left _ hmem⟩) fun ⟨store, info, hmem⟩ =>
    ⟨store, info, List.mem_append_left _ hmem⟩

theorem keeps_of_opened {α : Type} : ∀ (p : CloudProgram α) {s : Stand}, Opened gate tablePrefix s.log →
    p.Keeps (among gate tablePrefix notice) (fun _ _ => True) s
  | Program.done _, _, _ => trivial
  | Program.halt _, _, _ => trivial
  | Program.ask _ next, s, h => by
    refine ⟨fun _ _ _ _ => h, fun reply t hr => ?_⟩
    obtain ⟨_, -, -, hanswers⟩ := hr
    refine keeps_of_opened (next reply) ?_
    rw [hanswers.log]
    exact h.append _

theorem not_works_of_isPassive {c : CloudCall} (h : c.IsPassive) : ¬ Works tablePrefix notice c := by
  cases c <;> first | exact id | exact h.elim

/-- What waits for the gate or for the backfill marker does not work on the table before it has seen it. -/
theorem keeps_of_waits {α : Type} {key : String} (hkey : ∀ log, Seen key log → Opened gate tablePrefix log) :
    ∀ {p : CloudProgram α} {s : Stand}, p.Waits key → p.Keeps (among gate tablePrefix notice) (fun _ _ => True) s
  | Program.done _, _, _ => trivial
  | Program.halt _, _, _ => trivial
  | Program.ask c next, s, h => by
    refine ⟨fun _ _ _ hworks => absurd hworks (not_works_of_isPassive h.1), fun reply t hr => ?_⟩
    obtain ⟨site, -, -, hanswers⟩ := hr
    rcases h.2 reply with ⟨info, hsighting⟩ | hwaits
    · refine keeps_of_opened (next reply) (hkey _ ⟨site.store, info, ?_⟩)
      cases hsighting
      rw [hanswers.log]
      exact List.mem_append_right _ (List.mem_singleton_self _)
    · exact keeps_of_waits hkey hwaits

theorem keeps_invocation_of_waits {α : Type} {key : String} {x : Invocation α}
    (hkey : ∀ log, Seen key log → Opened gate tablePrefix log) (hx : Program.Waits key x.run) :
    x.Keeps (among gate tablePrefix notice) (fun _ _ => True) s :=
  Program.Keeps.mono (fun _ _ _ _ _ => trivial) (keeps_of_waits hkey hx)

theorem not_works_of_isClaiming {c : CloudCall} (h : c.IsClaiming)
    (htrigger : Dispatch.triggerOf notice.ctx.layout notice.notification = .successMarker) :
    ¬ Works tablePrefix notice c := by
  cases c with
  | put key =>
    obtain ⟨marker, created, rfl⟩ := h
    rintro (hbackfill | hlock)
    · exact Claim.key_ne_backfill _ _ _ hbackfill
    · exact Claim.key_ne_lock _ _ _ hlock
  | delete key => exact h.elim
  | submit job =>
    rintro ⟨hserves, -⟩
    rw [htrigger] at hserves
    cases hserves
  | _ => exact id

theorem ne_keyOf_of_owns {key other : String} (h : BackfillMarker.Owns other key) (hne : other ≠ tablePrefix) :
    key ≠ BackfillMarker.keyOf tablePrefix := by
  rcases h with rfl | ⟨created, rfl⟩
  · exact fun e => hne (by rw [← BackfillMarker.directory_keyOf other, e, BackfillMarker.directory_keyOf])
  · exact Claim.key_ne_backfill _ _ _

theorem not_works_of_isFree {c : CloudCall} {other : String} (h : c.IsFree other) (hne : other ≠ tablePrefix) :
    ¬ Works tablePrefix notice c := by
  cases c with
  | put key => exact not_or.2 ⟨ne_keyOf_of_owns h hne, h.ne_lock⟩
  | delete key =>
    rintro ⟨-, hname⟩
    obtain rfl := h
    exact hname (BackfillMarker.name_keyOf other)
  | submit job => exact h.elim
  | _ => exact id

/-- A subscriber of another table does not work on this one. -/
theorem not_works_of_isOwn {c : CloudCall} {jobPrefix other : String} {log : List Deed}
    (h : c.IsOwn jobPrefix other log) (hne : other ≠ tablePrefix) (hserves : ¬ notice.Serves tablePrefix)
    (hapart : Apart tablePrefix other) : ¬ Works tablePrefix notice c := by
  cases c with
  | put key =>
    rcases h with rfl | howns
    · refine not_or.2 ⟨(BackfillMarker.keyOf_ne_lock _ _).symm, fun e => hne ?_⟩
      rw [← TableLock.directory_keyOf other, e, TableLock.directory_keyOf]
    · exact not_or.2 ⟨ne_keyOf_of_owns howns hne, howns.ne_lock⟩
  | delete key =>
    rintro ⟨hin, hname⟩
    rcases h with rfl | rfl | hpopped
    · rw [TableLock.keyOf, Backlog.join_notMem_folder_of_apart (by decide) hapart.outside] at hin
      cases hin
    · exact hname (BackfillMarker.name_keyOf other)
    · exact hne (Backlog.eq_of_startsWith hpopped.startsWith hin hapart.outside hapart.around)
  | submit job => exact hserves
  | _ => exact id

/-- No subscriber works on another table than its own. -/
theorem keeps_run (hgated : notice.ctx.IsGated gate) (hne : tablePrefix ≠ "")
    (htable : Key.isBacklog (BackfillMarker.keyOf tablePrefix) = false) {ctx : Context} {other : String}
    (htrigger : Dispatch.triggerOf notice.ctx.layout notice.notification = .backfill)
    (hother : Dispatch.atTablePrefix? notice.ctx.layout notice.notification.key = some other) :
    (Subscriber.run ctx other).Keeps (among gate tablePrefix notice) (fun _ _ => True) s := by
  by_cases hsame : other = tablePrefix
  · subst hsame
    exact keeps_invocation_of_waits (fun _ hseen => .inr hseen) (Subscriber.waits_run ctx other)
  · have hname := Dispatch.name_of_backfill htrigger
    have hserves : ¬ notice.Serves tablePrefix := fun h => hsame (Option.some.inj (hother.symm.trans h.2))
    refine (Pop.outline ctx other fun c t hc hworks => absurd hworks ?_).keeps_run trivial
    exact not_works_of_isOwn hc hsame hserves (hgated.isValid.apart hname hother hne htable)

/-- **No notification works on the table before its gate was seen**, or its backfill marker. -/
def handling (hgated : notice.ctx.IsGated gate) (hne : tablePrefix ≠ "")
    (htable : Key.isBacklog (BackfillMarker.keyOf tablePrefix) = false) :
    Dispatch.Handling (among gate tablePrefix notice) notice.ctx notice.notification where
  Before _ := True
  passive hc _ _ _ hworks := absurd hworks (not_works_of_isPassive hc)
  looks _ _ _ := trivial
  takes htrigger _ := (Claim.claiming_take _).keeps_all fun hc _ _ _ hworks =>
    absurd hworks (not_works_of_isClaiming hc htrigger)
  loads htrigger := .any fun hc _ _ _ hworks => absurd hworks (not_works_of_isClaiming hc.isClaiming htrigger)
  pushes _ hkey _ _ _ hworks := hworks.elim (fun e => absurd e (Backlog.ne_join_of_startsWith htable (by decide) hkey))
    fun e => absurd e (Backlog.ne_join_of_startsWith htable (by decide) hkey)
  clears _ _ _ _ hworks := absurd (BackfillMarker.name_keyOf _) hworks.2
  posts {other _} _ := by
    by_cases hsame : other = tablePrefix
    · rw [hsame, hgated.gateName]
      exact keeps_invocation_of_waits (fun _ hseen => .inl hseen) (BackfillMarker.waits_post _ _)
    · exact (BackfillMarker.posting_post _).keeps_all fun hc _ _ _ hworks =>
        absurd hworks (not_works_of_isFree hc.isFree hsame)
  runs htrigger hfound _ := by
    simp only [Dispatch.table?, htrigger] at hfound
    exact keeps_run hgated hne htable htrigger hfound

def discipline (gate : String) (hne : tablePrefix ≠ "")
    (htable : Key.isBacklog (BackfillMarker.keyOf tablePrefix) = false) : Pool.Discipline (rules gate tablePrefix) :=
  .ofCalls (fun notice c t => Works tablePrefix notice c → Opened gate tablePrefix t.log) fun hallows =>
    ((handling hallows hne htable).keeps_handle trivial).plain

/-- The gate of the table is not there. -/
def Closed (gate tablePrefix : String) (pool : Pool Notice) : Prop :=
  pool.site.store.get? (Key.join tablePrefix gate) = none

/-- **What is true while the gate is closed**: there is no backfill marker and no lock, and nobody has seen the gate or
the backfill marker. -/
structure Shut (gate tablePrefix : String) (pool : Pool Notice) : Prop where
  closed : Closed gate tablePrefix pool
  backfill : pool.site.store.get? (BackfillMarker.keyOf tablePrefix) = none
  lock : pool.site.store.get? (TableLock.keyOf tablePrefix) = none
  unseen : ∀ member ∈ pool.members, ¬ Opened gate tablePrefix member.log

theorem not_seen_call {key : String} {c : CloudCall} {reply : c.Reply} {site site' : Site} {log : List Deed}
    (hanswers : Site.Answers c site reply site') (habsent : site.store.get? key = none) (hlog : ¬ Seen key log) :
    ¬ Seen key (log ++ [⟨site.store, c, reply⟩]) := by
  rintro ⟨store, info, hmem⟩
  rcases List.mem_append.1 hmem with hmem | hmem
  · exact hlog ⟨store, info, hmem⟩
  · cases List.mem_singleton.1 hmem
    obtain hreply | ⟨fault, e, -⟩ := hanswers.reply?_eq trivial
    · have hhead : site.store.head? key = some info := Except.ok.inj (Option.some.inj hreply)
      rw [Store.head?, habsent] at hhead
      cases hhead
    · cases e

theorem get?_none_call {key : String} {c : CloudCall} {reply : c.Reply} {site site' : Site}
    (hanswers : Site.Answers c site reply site') (habsent : site.store.get? key = none)
    (hput : ∀ body precondition, c ≠ .put key body precondition) : site'.store.get? key = none := by
  obtain hsame | ⟨body, precondition, now, hc, -⟩ | ⟨precondition, -, -, rfl⟩ := hanswers.get?_cases key
  · rw [hsame, habsent]
  · exact absurd hc (hput body precondition)
  · exact Store.get?_remove_self _ _

/-- **Whatever happens next, the table stays shut** if its gate stays closed. -/
theorem Shut.step {pool pool' : Pool Notice} {hne : tablePrefix ≠ ""}
    {htable : Key.isBacklog (BackfillMarker.keyOf tablePrefix) = false}
    (horderly : pool.Orderly (discipline gate hne htable)) (hstep : Pool.Step (rules gate tablePrefix) pool pool')
    (hclosed : Closed gate tablePrefix pool')
    (h : Shut gate tablePrefix pool) : Shut gate tablePrefix pool' := by
  cases hstep with
  | join _ =>
    refine ⟨hclosed, h.backfill, h.lock, fun member hmember => ?_⟩
    rcases List.mem_append.1 hmember with hmember | hmember
    · exact h.unseen member hmember
    · rw [List.mem_singleton.1 hmember]
      rintro (⟨_, _, hmem⟩ | ⟨_, _, hmem⟩) <;> cases hmem
  | @call i member c next reply site hmember hnext hanswers =>
    have hworks : ¬ Works tablePrefix member.errand c := fun hworks =>
      h.unseen member (List.mem_of_getElem? hmember) (horderly.ok_next (List.mem_of_getElem? hmember) hnext hworks)
    refine ⟨hclosed, get?_none_call hanswers h.backfill fun body precondition e => hworks ?_,
      get?_none_call hanswers h.lock fun body precondition e => hworks ?_, fun other hother => ?_⟩
    · rw [e]
      exact .inl rfl
    · rw [e]
      exact .inr rfl
    · rcases List.mem_or_eq_of_mem_set hother with hother | rfl
      · exact h.unseen other hother
      · have hunseen := not_or.1 (h.unseen member (List.mem_of_getElem? hmember))
        exact not_or.2 ⟨not_seen_call hanswers h.closed hunseen.1, not_seen_call hanswers h.backfill hunseen.2⟩
  | pass => exact ⟨hclosed, h.backfill, h.lock, h.unseen⟩
  | write body now hkey =>
    exact ⟨hclosed, (Store.get?_write_of_ne _ _ _ hkey.1.symm).trans h.backfill,
      (Store.get?_write_of_ne _ _ _ hkey.2.symm).trans h.lock, h.unseen⟩
  | remove hkey =>
    exact ⟨hclosed, (Store.get?_remove_of_ne _ hkey.1.symm).trans h.backfill,
      (Store.get?_remove_of_ne _ hkey.2.symm).trans h.lock, h.unseen⟩

/-- **The gate holds.**  As long as the gate of a table is not there, and nobody but the engine writes the table's
backfill marker or its lock, whatever notifications are handled: the backfill marker is not there, the lock is not
written, no subscriber of the table submits a job, and nothing in the table's backlog is deleted that does not have the
name of a backfill marker.  The table is one that lies in no backlog. -/
theorem shut_of_closed (hne : tablePrefix ≠ "") (htable : Key.isBacklog (BackfillMarker.keyOf tablePrefix) = false)
    {start pool : Pool Notice} (hmembers : start.members = []) (hclosed : Closed gate tablePrefix start)
    (hbackfill : start.site.store.get? (BackfillMarker.keyOf tablePrefix) = none)
    (hlock : start.site.store.get? (TableLock.keyOf tablePrefix) = none)
    (hrun : Pool.Run (rules gate tablePrefix) (Closed gate tablePrefix) start pool) :
    pool.site.store.get? (BackfillMarker.keyOf tablePrefix) = none ∧
    pool.site.store.get? (TableLock.keyOf tablePrefix) = none ∧
    ∀ member ∈ pool.members, ∀ deed ∈ member.log,
      (∀ body precondition, deed.call ≠ .put (TableLock.keyOf tablePrefix) body precondition) ∧
      (∀ key precondition, deed.call = .delete key precondition →
        startsWith (Backlog.folder tablePrefix) key = true → Key.name key = Key.backfillName) ∧
      (member.errand.Serves tablePrefix → ∀ job, deed.call ≠ .submit job) := by
  have hstart : Shut gate tablePrefix start := ⟨hclosed, hbackfill, hlock, by simp [hmembers]⟩
  have hshut : Shut gate tablePrefix pool := Pool.Discipline.run (d := discipline gate hne htable) _ trivial hmembers
    Shut.step hrun hstart
  have horderly := (discipline gate hne htable).orderly trivial hmembers hrun.steps
  refine ⟨hshut.backfill, hshut.lock, fun member hmember deed hdeed => ?_⟩
  have hworks : ¬ Works tablePrefix member.errand deed.call := by
    obtain ⟨before, after, hlog⟩ := List.append_of_mem hdeed
    obtain ⟨site, -, hok⟩ := horderly.wentOn member hmember before deed after hlog
    refine fun hworks => hshut.unseen member hmember ?_
    rw [hlog]
    exact (hok hworks).append _
  refine ⟨fun body precondition e => hworks ?_, fun key precondition e hin => ?_, fun hserves job e => hworks ?_⟩
  · rw [e]
    exact .inr rfl
  · by_contra hname
    rw [e] at hworks
    exact hworks ⟨hin, hname⟩
  · rw [e]
    exact hserves

end Keeps

/-! ## Two tables with a closed gate -/

theorem isGated_contextOf {settings : Settings} {gate : String} (hgate : settings.gateName = some gate)
    (hvalid : (Context.ofSettings settings "lake" 50).toOption.isSome = true) : (contextOf settings).IsGated gate :=
  ⟨settings, "lake", 50, Trial.ofSettings_contextOf hvalid, hgate⟩

def isClosed (store : Store) : Bool := (store.get? "d/t/GO").isNone

theorem closed_of_isClosed {pool : Pool Notice} (h : isClosed pool.site.store = true) : Closed "GO" "d/t" pool :=
  Option.isNone_iff_eq_none.1 h

theorem run_bucketOf (files : List (String × Octets)) (calls : Nat) {notice : Notice} (hgated : notice.ctx.IsGated "GO")
    (hcalls : calls < 16 ^ 12) (hstart : isClosed (bucketOf files).bucket.store = true)
    (hclosed : (bucketOf files).holdsFor isClosed calls ((rules "GO" "d/t").program notice) = true) :
    ∃ since, Pool.Run (rules "GO" "d/t") (Closed "GO" "d/t") ⟨(bucketOf files).site, (bucketOf files).elapsed, []⟩
      ⟨((bucketOf files).runFor calls ((rules "GO" "d/t").program notice)).2.site,
        ((bucketOf files).runFor calls ((rules "GO" "d/t").program notice)).2.elapsed,
        [⟨notice, ((bucketOf files).runFor calls ((rules "GO" "d/t").program notice)).1, since,
          (bucketOf files).deedsFor calls ((rules "GO" "d/t").program notice)⟩]⟩ := by
  have habides : World.Abides (rules "GO" "d/t") fun _ => True := .of_all fun _ _ _ _ => trivial
  obtain ⟨since, log, -, -, hlog, hrun⟩ := World.run_runFor (Closed "GO" "d/t") (fun _ => closed_of_isClosed) habides
    (Trial.steady_bucketOf files hcalls) (Nat.le_refl calls) hclosed rfl (Nat.le_refl _) notice [] [] []
  rw [List.nil_append] at hlog
  subst hlog
  have hjoin : Pool.Step (rules "GO" "d/t") ⟨(bucketOf files).site, (bucketOf files).elapsed, []⟩ _ := .join hgated
  exact ⟨since, .head ⟨hjoin, closed_of_isClosed hstart⟩ hrun⟩

/-- Tables are kept in order, and wait for their gate. -/
def settings : Settings where
  keyPattern := "^(?P<dataset>[a-z]+)/(?P<table>[a-z]+)/"
  gateName := some "GO"
  alwaysOrdered := true
  jobPoll := .ofSeconds 60

def completed : Notice := ⟨contextOf settings, ⟨"lake", "d/t/a/_SUCCESS", none⟩⟩

def files : List (String × Octets) := [("d/t/a/x.csv", [49]), ("d/t/a/_SUCCESS", [])]

/-- A marker is put into the backlog, the monitor looks after it, and no backfill marker is posted. -/
theorem shut_of_closed_trial : ∃ (start pool : Pool Notice) (member : Member Notice),
    Pool.Run (rules "GO" "d/t") (Closed "GO" "d/t") start pool ∧ start.members = [] ∧ member ∈ pool.members ∧
    member.program = .done (.ok ()) ∧ (pool.site.store.get? "d/t/_backlog/a/_SUCCESS").isSome = true ∧
    pool.site.store.get? (BackfillMarker.keyOf "d/t") = none ∧ pool.site.store.get? (TableLock.keyOf "d/t") = none := by
  have hgated : completed.ctx.IsGated "GO" := isGated_contextOf rfl (by decide +kernel)
  obtain ⟨since, hrun⟩ := run_bucketOf files 17 hgated (by decide) (by decide +kernel) (by decide +kernel)
  obtain ⟨hbackfill, hlock, -⟩ := shut_of_closed (by decide) (by decide) rfl (closed_of_isClosed (by decide +kernel))
    (by decide +kernel) (by decide +kernel) hrun
  let handled := (bucketOf files).runFor 17 ((rules "GO" "d/t").program completed)
  have hreturned : World.hasReturned handled.1 = true := by decide +kernel
  have hpointer : (handled.2.site.store.get? "d/t/_backlog/a/_SUCCESS").isSome = true := by decide +kernel
  exact ⟨_, _, _, hrun, rfl, List.mem_singleton_self _, World.eq_done_of_hasReturned hreturned, hpointer, hbackfill,
    hlock⟩

/-- **Behind a closed gate a pointer is deleted**, if success markers have the name of backfill markers: a notification
of the pointer has the monitor look after the folder of the backlog, in which the pointer is an abandoned backfill
marker. -/
theorem deleted_of_misnamed : ∃ (start pool : Pool Notice),
    Pool.Run (rules "GO" "d/t") (Closed "GO" "d/t") start pool ∧ start.members = [] ∧ Closed "GO" "d/t" start ∧
    start.site.store.get? (BackfillMarker.keyOf "d/t") = none ∧ start.site.store.get? (TableLock.keyOf "d/t") = none ∧
    Dispatch.triggerOf pointed.ctx.layout pointed.notification = .backlogItem ∧
    "d/t/_backlog/_BACKFILL" ∈ start.site.store.pointers "d/t" ∧ pool.site.store.pointers "d/t" = [] := by
  have hgated : pointed.ctx.IsGated "GO" := isGated_contextOf rfl (by decide +kernel)
  obtain ⟨since, hrun⟩ := run_bucketOf [("d/t/_backlog/_BACKFILL", [])] 6 hgated (by decide) (by decide +kernel)
    (by decide +kernel)
  let handled := (bucketOf [("d/t/_backlog/_BACKFILL", [])]).runFor 6 ((rules "GO" "d/t").program pointed)
  have hdeleted : handled.2.site.store.pointers "d/t" = [] := by decide +kernel
  exact ⟨_, _, hrun, rfl, closed_of_isClosed (by decide +kernel), by decide +kernel, by decide +kernel,
    by decide +kernel, by decide +kernel, hdeleted⟩

end Gate
end Intake
