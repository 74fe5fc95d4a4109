import Intake.Proofs.Crew
import Intake.Proofs.Trial
/-!
# Manual — a lock set by hand is left alone

A subscriber overwrites and deletes the lock only under the version it has seen, and what it has seen under that version
was not set by hand: it was nothing, or the name of a job, or a name that the subscriber has just put there itself.  So
whoever sets the lock by hand, at whatever moment, keeps it.  The names of jobs are an exception where the name of a part
was cut so far that it lost its prefix and reads as set by hand (`JobId.IsNamed`).
-/
namespace Intake

/-- The text is a name that the engine gives to a job. -/
def JobId.IsNamed (jobPrefix text : String) : Prop :=
  ∃ marker suffix index total, IsSuffix suffix ∧ index < 2 ^ 64 ∧
    text = ofPart (make jobPrefix marker suffix) index total

/-- The text is a name without the tag of a part. -/
def JobId.IsBase (jobPrefix text : String) : Prop := ∃ marker suffix, IsSuffix suffix ∧ text = make jobPrefix marker suffix

theorem JobId.IsBase.isNamed {jobPrefix base : String} (h : IsBase jobPrefix base) {part : Nat} (hpart : part < 2 ^ 64)
    (plan : Plan) : IsNamed jobPrefix (plan.nameOf base part) := by
  obtain ⟨marker, suffix, hsuffix, rfl⟩ := h
  cases plan with
  | query job => exact ⟨marker, suffix, 0, 1, hsuffix, by decide, (ofPart_last rfl).symm⟩
  | loads jobs => exact ⟨marker, suffix, part, jobs.length, hsuffix, hpart, rfl⟩

theorem JobId.IsBase.unpadded {jobPrefix base : String} (h : IsBase jobPrefix base) (hlead : IsLead jobPrefix) :
    Unpadded base := by
  obtain ⟨marker, suffix, hsuffix, rfl⟩ := h
  exact unpadded_make hlead hsuffix

/-- Names keep a prefix that leaves room for the tag of a part. -/
theorem JobId.IsNamed.startsWith {jobPrefix text : String} (h : IsNamed jobPrefix text)
    (hroom : jobPrefix.toList.length + 25 ≤ maxLength) : startsWith jobPrefix text = true := by
  obtain ⟨marker, suffix, index, total, -, hindex, rfl⟩ := h
  have hmake : jobPrefix.toList <+: (make jobPrefix marker suffix).toList := by
    rw [make_eq, String.toList_append, String.toList_append, List.append_assoc]
    exact List.prefix_append _ _
  rw [Intake.startsWith, List.isPrefixOf_iff_prefix]
  by_cases hlast : nextIndex index = total
  · rw [ofPart_last hlast]
    exact hmake
  · have htag : (tag index).utf8ByteSize ≤ 25 :=
      utf8ByteSize_tag 20 (by decide) (Nat.lt_of_lt_of_le hindex (by decide))
    rw [ofPart_of_ne hlast, String.toList_append, String.toList_ofList]
    refine List.IsPrefix.trans ?_ (List.prefix_append _ _)
    rw [List.prefix_take_iff]
    exact ⟨hmake, by omega⟩

/-- **A handle of this version may overwrite or delete what it has seen**: nothing, or the name of a job. -/
def Store.Mild (jobPrefix tablePrefix : String) (version : Option String) (store : Store) : Prop :=
  ∃ body, store.Recalls jobPrefix tablePrefix version body ∧ ∀ text, body = some (.manual text) →
    JobId.IsNamed jobPrefix text

theorem Store.Mild.since {jobPrefix tablePrefix : String} {version : Option String} {s t : Store}
    (h : s.Mild jobPrefix tablePrefix version) (hst : Since (TableLock.keyOf tablePrefix) s t) :
    t.Mild jobPrefix tablePrefix version := by
  obtain ⟨body, hrecalls, hbody⟩ := h
  exact ⟨body, hrecalls.since hst, hbody⟩

namespace Manual

open Pool (Stand)

/-- The call changes the lock of a table only as far as it was seen. -/
def Gentle (jobPrefix tablePrefix : String) : CloudCall → Stand → Prop
  | .put key _ precondition, s => key = TableLock.keyOf tablePrefix →
    ∃ version, precondition = .unchanged version ∧ s.site.store.Mild jobPrefix tablePrefix version
  | .delete key precondition, s => key = TableLock.keyOf tablePrefix →
    ∃ version, precondition = .unchanged version ∧ s.site.store.Mild jobPrefix tablePrefix version
  | _, _ => True

def Later (tablePrefix : String) (s t : Site) : Prop := Store.Since (TableLock.keyOf tablePrefix) s.store t.store

/-- An invocation among others, which may do anything. -/
def among (jobPrefix tablePrefix : String) : Surroundings Cloud Stand :=
  Stand.among (Later tablePrefix) (fun _ => True) (Gentle jobPrefix tablePrefix)

variable {jobPrefix tablePrefix : String} {s t : Stand} {α : Type}

theorem since_of_answers {c : CloudCall} {reply : c.Reply} (h : (among jobPrefix tablePrefix).answers c s reply t) :
    Later tablePrefix s.site t.site := by
  obtain ⟨site, hlater, -, hanswers⟩ := h
  exact hlater.trans (hanswers.site.since _)

theorem gentle_of_aloof {c : CloudCall} (h : c.Aloof tablePrefix) : Gentle jobPrefix tablePrefix c s := by
  cases c with
  | put key body precondition => exact fun hkey => absurd hkey h
  | delete key precondition => exact fun hkey => absurd hkey h
  | submit job => trivial
  | _ => trivial

theorem admits_of_aloof {c : CloudCall} (h : c.Aloof tablePrefix) : (among jobPrefix tablePrefix).admits c s :=
  fun _ _ _ => gentle_of_aloof h

/-- Something that neither the others nor a call of one's own can make untrue. -/
def Lasting (tablePrefix : String) (fact : Store → Prop) : Prop :=
  ∀ s t, Store.Since (TableLock.keyOf tablePrefix) s t → fact s → fact t

theorem lasting_recalls (version : Option String) (body : Option LockBody) :
    Lasting tablePrefix (Store.Recalls jobPrefix tablePrefix version body) := fun _ _ hst h => h.since hst

theorem lasting_mild (version : Option String) : Lasting tablePrefix (Store.Mild jobPrefix tablePrefix version) :=
  fun _ _ hst h => h.since hst

theorem keeps_aloof {x : Invocation α} {fact : Store → Prop} (hx : x.Only (CloudCall.Aloof tablePrefix))
    (hlasting : Lasting tablePrefix fact) (hs : fact s.site.store) :
    x.Keeps (among jobPrefix tablePrefix) (fun _ t => fact t.site.store) s :=
  hx.keeps (fun _ _ hc _ => admits_of_aloof hc) (fun _ _ _ _ _ hs hr => hlasting _ _ (since_of_answers hr) hs) hs

theorem keeps_passive {x : Invocation α} {fact : Store → Prop} (hx : x.Only CloudCall.IsPassive)
    (hlasting : Lasting tablePrefix fact) (hs : fact s.site.store) :
    x.Keeps (among jobPrefix tablePrefix) (fun _ t => fact t.site.store) s :=
  keeps_aloof (hx.mono fun _ hc => hc.aloof tablePrefix) hlasting hs

theorem keeps_readLock {version : Option String} :
    Leased.readLock.Keeps (among jobPrefix tablePrefix) (.ofTable tablePrefix jobPrefix)
      (fun body version t => t.site.store.Recalls jobPrefix tablePrefix version body) version s := by
  refine Leased.keeps_readLock (admits_of_aloof trivial) (fun _ _ => .inl rfl) (fun _ _ _ => admits_of_aloof trivial)
    ?_ (fun _ _ _ _ _ _ _ => .inl rfl)
  rintro seen t body u ⟨site, -, -, ⟨hsite, hreply | ⟨fault, e, -⟩⟩, -⟩ ⟨site', hlater, -, hanswers, -⟩
  · obtain ⟨hsite', hreply' | ⟨fault, e, -⟩⟩ := hanswers
    · have hseen : site.store.head? (TableLock.keyOf tablePrefix) = some seen :=
        Except.ok.inj (Option.some.inj hreply)
      obtain ⟨object, hobject, rfl⟩ := Store.get?_of_reply? hreply'
      rw [hsite']
      rw [hsite] at hlater
      exact Store.recalls_of_read hseen hlater hobject
    · cases e
  · cases e

/-- **A name that was put into the lock may be overwritten by a failure**, even if it reads as set by hand. -/
theorem mild_of_written {name : String} {version : Option String} {v : String} (hname : JobId.IsNamed jobPrefix name)
    (hunpadded : Unpadded name)
    (h : (among jobPrefix tablePrefix).answers (.put (TableLock.keyOf tablePrefix) (Utf8.encode name) (.unchanged version)) s
      (.ok (.written v)) t) : t.site.store.Mild jobPrefix tablePrefix (some v) := by
  obtain ⟨site, -, -, hanswers, -⟩ := h
  obtain ⟨-, hunwritten⟩ | ⟨e, -, now, hsite⟩ := hanswers.put_cases
  · exact absurd rfl (hunwritten v)
  · obtain rfl : v = decimal site.store.nextGeneration := PutResult.written.inj (Except.ok.inj e)
    rw [hsite]
    refine ⟨_, .inr ⟨_, Utf8.encode name, rfl, Nat.lt_succ_self _, LockBody.ofOctets?_encode jobPrefix hunpadded, ?_⟩, ?_⟩
    · intro object hobject _
      rw [Store.get?_write_self] at hobject
      exact (congrArg _ (Option.some.inj hobject)).symm
    · intro text htext
      split at htext
      · cases htext
      · cases htext
        exact hname

theorem keeps_claimLock {name : String} {version : Option String} (hname : JobId.IsNamed jobPrefix name)
    (hunpadded : Unpadded name) (hs : s.site.store.Mild jobPrefix tablePrefix version) :
    (Leased.claimLock name).Keeps (among jobPrefix tablePrefix) (.ofTable tablePrefix jobPrefix)
      (fun locked version t => locked = true ∧ True ∧ t.site.store.Mild jobPrefix tablePrefix version) version s
      (fun version t => t.site.store.Mild jobPrefix tablePrefix version) :=
  Leased.keeps_claimLock (fun _ hlater _ _ => ⟨version, rfl, hs.since hlater⟩)
    (fun _ _ hr => ⟨rfl, trivial, mild_of_written hname hunpadded hr⟩) (fun _ _ hr => hs.since (since_of_answers hr))

theorem keeps_pop {version : Option String} (hs : s.site.store.Mild jobPrefix tablePrefix version) :
    (Backlog.pop tablePrefix).Keeps (among jobPrefix tablePrefix)
      (fun _ t => t.site.store.Mild jobPrefix tablePrefix version) s := by
  refine (Stand.keeps_next fun _ => trivial).bind fun q t h => ?_
  obtain ⟨site, hlater, hsite, hq, -⟩ := h
  have ht : t.site.store.Mild jobPrefix tablePrefix version := hsite ▸ hs.since hlater
  split
  · exact Invocation.keeps_pure ht
  · rename_i q
    have hne : q ≠ TableLock.keyOf tablePrefix :=
      Backlog.ne_lock_of_startsWith (Store.startsWith_of_mem_pointers (List.mem_of_head? hq.symm))
    exact keeps_aloof ((Invocation.only_store (Invocation.only_call hne)).bind fun _ => Invocation.only_pure _)
      (lasting_mild version) ht

theorem keeps_draw {version : Option String} (hs : s.site.store.Mild jobPrefix tablePrefix version) :
    (Invocation.ask .freshId).Keeps (among jobPrefix tablePrefix)
      (fun suffix t => JobId.IsSuffix suffix ∧ t.site.store.Mild jobPrefix tablePrefix version) s := by
  refine Invocation.keeps_ask (admits_of_aloof trivial) fun suffix t hr => ⟨?_, hs.since (since_of_answers hr)⟩
  obtain ⟨site, -, -, hanswers⟩ := hr
  exact hanswers.site.1

/-- **What a subscriber relies on**: that what it has seen of the lock is not set by hand. -/
def outline (ctx : Context) (tablePrefix : String) (hlead : JobId.IsLead ctx.settings.jobPrefix) :
    Outline (among ctx.settings.jobPrefix tablePrefix) ctx tablePrefix where
  Seen body version s := s.site.store.Recalls ctx.settings.jobPrefix tablePrefix version body
  Told id _ version s := s.site.store.Recalls ctx.settings.jobPrefix tablePrefix version (some (.job id))
  Over _ version s := s.site.store.Mild ctx.settings.jobPrefix tablePrefix version
  First _ _ version s := s.site.store.Mild ctx.settings.jobPrefix tablePrefix version
  Open version s := s.site.store.Mild ctx.settings.jobPrefix tablePrefix version
  Next _ version s := s.site.store.Mild ctx.settings.jobPrefix tablePrefix version
  Turn _ base part version s := (JobId.IsBase ctx.settings.jobPrefix base ∧ part < 2 ^ 64) ∧
    s.site.store.Mild ctx.settings.jobPrefix tablePrefix version
  Planned _ base part _ version s := (JobId.IsBase ctx.settings.jobPrefix base ∧ part < 2 ^ 64) ∧
    s.site.store.Mild ctx.settings.jobPrefix tablePrefix version
  Claimed _ _ := True
  Mild version s := s.site.store.Mild ctx.settings.jobPrefix tablePrefix version
  Start _ := True
  posts hx := hx.free.modest.keeps_all fun hc => admits_of_aloof hc.aloof
  starts hx _ := hx.posting.free.modest.keeps_all fun hc => admits_of_aloof hc.aloof
  trigger _ := Stand.keeps_trigger fun _ _ hc => gentle_of_aloof hc.isModest.aloof
  records _ version _ hs _ hlater _ _ := ⟨version, rfl, hs.since hlater⟩
  lasts _ hr hs := hs.since (since_of_answers hr)
  mildSeen hs := ⟨_, hs, nofun⟩
  mildTurn hs := hs.2
  readLock := keeps_readLock
  waits hs hx := keeps_passive hx.passive (lasting_recalls _ _) hs
  asks hs := (keeps_passive (Invocation.only_warehouse (Invocation.only_call trivial)) (lasting_recalls _ _) hs).mono
    fun _ _ h => ⟨h, fun _ _ _ => h⟩
  checks hs := (keeps_passive (JobWatch.waiting_check _ _).passive (lasting_recalls _ _) hs).mono fun _ _ h => ⟨_, h, nofun⟩
  looks hs := keeps_passive (Backlog.reads_next _).passive (lasting_mild _) hs
  vacant hs := ⟨_, hs, nofun⟩
  empty hs := hs
  other hs _ := hs
  resumes hs hfor hsplit hpart := by
    obtain ⟨suffix, hsuffix, hbase⟩ := JobId.isFor_iff.1 hfor
    simp only [hsplit] at hbase
    exact ⟨⟨⟨_, suffix, hsuffix, hbase⟩, hpart⟩, hs⟩
  pops hs _ _ := keeps_pop hs
  counts hs := keeps_passive (Invocation.passive_count _) (lasting_mild _) hs
  times hs := keeps_passive Invocation.passive_now (lasting_mild _) hs
  next hs := keeps_passive (Backlog.reads_next _).passive (lasting_mild _) hs
  releases hs := Leased.keeps_releaseLock (fun _ => trivial)
    (fun v e _ hlater _ _ => ⟨some v, rfl, e ▸ hs.since hlater⟩) (fun _ _ _ _ _ _ => trivial)
  finds hs := keeps_passive (Invocation.reads_head _).passive (lasting_mild _) hs
  draws hs := (keeps_draw hs).mono fun suffix _ h => ⟨⟨⟨_, suffix, h.1, rfl⟩, by decide⟩, h.2⟩
  findsAgain hs := (keeps_passive (Invocation.reads_head _).passive (lasting_mild _) hs.2).mono fun _ _ h => ⟨hs.1, h⟩
  plans hs := (keeps_passive (Submission.reads_plan _ _).passive (lasting_mild _) hs.2).mono fun _ _ h => ⟨hs.1, h⟩
  claims hs _ := by
    obtain ⟨⟨hbase, hpart⟩, hmild⟩ := hs
    exact keeps_claimLock (hbase.isNamed hpart _) (Plan.unpadded_nameOf (hbase.unpadded hlead) _) hmild
  submits _ := Invocation.keeps_warehouse ⟨fun _ _ _ => trivial, fun _ _ _ _ _ => trivial⟩

/-- **Every errand of the table keeps to what it has seen.** -/
def discipline (jobPrefix tablePrefix : String) (hlead : JobId.IsLead jobPrefix) :
    Pool.Discipline (Pool.lenient jobPrefix tablePrefix) where
  later := Later tablePrefix
  ok _ := Gentle jobPrefix tablePrefix
  sound _ := True
  refl _ := .refl _ _
  trans := .trans
  lasts _ _ := trivial
  call _ _ hanswers := hanswers.site.since _
  write _ _ _ _ := .write ..
  remove _ _ := .remove ..
  keeps {errand site} hallows := by
    show Program.Keeps (among jobPrefix tablePrefix) _ _ _
    cases errand with
    | subscribe ctx =>
      obtain rfl := hallows
      exact ((outline ctx tablePrefix hlead).keeps_run trivial).plain
    | enqueue ctx marker => exact (keeps_enqueue_ensureSubscriber (fun hc => admits_of_aloof hc.aloof) hallows).plain
    | monitor ctx =>
      exact ((Monitor.modest_ensureSubscriber ctx).keeps_all fun hc => admits_of_aloof hc.aloof).plain

/-- A gentle call leaves what was set by hand alone, whatever comes of it. -/
theorem get?_eq_of_gentle {c : CloudCall} {reply : c.Reply} {site : Site} {text : String}
    (h : Gentle jobPrefix tablePrefix c s) (hanswers : Site.Answers c s.site reply site)
    (hlock : s.site.store.lockBody jobPrefix tablePrefix = some (.manual text))
    (hname : ¬ JobId.IsNamed jobPrefix text) :
    site.store.get? (TableLock.keyOf tablePrefix) = s.site.store.get? (TableLock.keyOf tablePrefix) := by
  -- what may be overwritten or deleted is not what is there
  have hrefused : ∀ version, s.site.store.Mild jobPrefix tablePrefix version →
      Store.refuses? (.unchanged version) (s.site.store.get? (TableLock.keyOf tablePrefix)) ≠ none := by
    rintro version ⟨body, hrecalls, hbody⟩ hfree
    obtain hnone | hread := hrecalls.lockBody_eq hfree
    · rw [Store.lockBody, hnone] at hlock
      cases hlock
    · exact hname (hbody text (hread.symm.trans hlock))
  cases c with
  | put key body precondition =>
    obtain ⟨rfl, -⟩ | ⟨-, hfree, now, rfl⟩ := hanswers.put_cases
    · rfl
    · by_cases hkey : key = TableLock.keyOf tablePrefix
      · obtain ⟨version, rfl, hmild⟩ := h hkey
        exact absurd (hkey ▸ hfree) (hrefused version hmild)
      · exact Store.get?_write_of_ne _ _ _ (Ne.symm hkey)
  | delete key precondition =>
    obtain ⟨rfl, -⟩ | ⟨-, hfree, -, rfl⟩ := hanswers.delete_cases
    · rfl
    · by_cases hkey : key = TableLock.keyOf tablePrefix
      · obtain ⟨version, rfl, hmild⟩ := h hkey
        exact absurd (hkey ▸ hfree) (hrefused version hmild)
      · exact Store.get?_remove_of_ne _ (Ne.symm hkey)
  | submit job =>
    obtain rfl | ⟨-, rfl⟩ := hanswers.submit_cases <;> rfl
  | freshId =>
    obtain ⟨-, -, rfl⟩ := hanswers
    rfl
  | _ => rw [hanswers.eq_of_isPassive trivial]

section Runs

variable {start pool : Pool Pool.Errand} {member : Member Pool.Errand} {c : CloudCall}
  {next : c.Reply → CloudProgram (Except Failure Unit)} {reply : c.Reply} {site : Site} {text : String}

/-- A text in the lock that reads as set by hand is left alone, unless it is a name that the engine gives to a job. -/
theorem get?_lock_of_unnamed (hlead : JobId.IsLead jobPrefix) (hmembers : start.members = [])
    (hsteps : Relation.ReflTransGen (Pool.Step (Pool.lenient jobPrefix tablePrefix)) start pool)
    (hmember : member ∈ pool.members) (hnext : member.program = Program.ask c next)
    (hanswers : Site.Answers c pool.site reply site)
    (hlock : pool.site.store.lockBody jobPrefix tablePrefix = some (.manual text))
    (hname : ¬ JobId.IsNamed jobPrefix text) :
    site.store.get? (TableLock.keyOf tablePrefix) = pool.site.store.get? (TableLock.keyOf tablePrefix) := by
  have horderly := (discipline jobPrefix tablePrefix hlead).orderly trivial hmembers hsteps
  exact get?_eq_of_gentle (horderly.ok_next hmember hnext) hanswers hlock hname

/-- **Nobody but an operator overwrites or deletes a lock set by hand.**  Any number of subscribers, enqueuings and
monitors of the table run side by side, while others write, overwrite and delete what they like, the lock included.
Whenever the lock reads as set by hand, the next call of each of them leaves the object as it is.  The prefix of job names
is not empty, not led by a blank, and leaves room for the tag of a part. -/
theorem get?_lock_of_manual (hlead : JobId.IsLead jobPrefix)
    (hroom : jobPrefix.toList.length + 25 ≤ JobId.maxLength) (hmembers : start.members = [])
    (hsteps : Relation.ReflTransGen (Pool.Step (Pool.lenient jobPrefix tablePrefix)) start pool)
    (hmember : member ∈ pool.members) (hnext : member.program = Program.ask c next)
    (hanswers : Site.Answers c pool.site reply site)
    (hlock : pool.site.store.lockBody jobPrefix tablePrefix = some (.manual text)) :
    site.store.get? (TableLock.keyOf tablePrefix) = pool.site.store.get? (TableLock.keyOf tablePrefix) := by
  refine get?_lock_of_unnamed hlead hmembers hsteps hmember hnext hanswers hlock fun hnamed => ?_
  obtain ⟨object, -, hread⟩ := Option.bind_eq_some_iff.1 hlock
  have hstarts := hnamed.startsWith hroom
  rw [LockBody.startsWith_of_manual hread] at hstarts
  cases hstarts

end Runs

/-- The lock of the table is set by hand. -/
def handSet (site : Site) : Site :=
  { site with store := site.store.write (TableLock.keyOf "d/t") (Utf8.encode "hands off") World.start }

/-- Somebody sets the lock by hand after some calls of a subscriber. -/
theorem steps_handSet {w : World} {calls : Nat} (h : w.Steady (fun _ => True) calls)
    {reached : CloudProgram (Except Failure Unit) × World}
    (hreached : reached = w.runFor calls (Pool.Errand.program "d/t" (.subscribe Trial.context))) :
    ∃ since log, Relation.ReflTransGen (Pool.Step (Pool.lenient "gcf-ingest-" "d/t")) ⟨w.site, w.elapsed, []⟩
      ⟨handSet reached.2.site, reached.2.elapsed, [⟨.subscribe Trial.context, reached.1, since, log⟩]⟩ := by
  have hallows : (Pool.lenient "gcf-ingest-" "d/t").allows (.subscribe Trial.context) := rfl
  obtain ⟨since, log, -, -, -, hsteps⟩ := World.steps_runFor (World.abides_lenient "gcf-ingest-" "d/t") h
    (Nat.le_refl calls) hreached (Nat.le_refl _) (Pool.Errand.subscribe Trial.context) [] [] []
  exact ⟨since, log, .head (.enter hallows ..) (hsteps.tail (.write (Utf8.encode "hands off") World.start trivial))⟩

/-- A subscriber of the trial table that is about to take the lock. -/
def trial : CloudProgram (Except Failure Unit) × World :=
  (Trial.table Trial.pointers).runFor 18 (Pool.Errand.program "d/t" (.subscribe Trial.context))

/-- Somebody sets the lock by hand when a subscriber is about to take it. -/
theorem get?_lock_of_manual_trial : ∃ (pool : Pool Pool.Errand) (member : Member Pool.Errand) (body : Octets)
    (precondition : Precondition) (next : Except StoreFault PutResult → CloudProgram (Except Failure Unit)),
    member ∈ pool.members ∧
    member.program = Program.ask (I := Cloud) (.put (TableLock.keyOf "d/t") body precondition) next ∧
    pool.site.store.lockBody "gcf-ingest-" "d/t" = some (.manual "hands off") ∧
    ∀ reply site, Site.Answers (.put (TableLock.keyOf "d/t") body precondition) pool.site reply site →
      site.store.get? (TableLock.keyOf "d/t") = pool.site.store.get? (TableLock.keyOf "d/t") := by
  have hwriting : World.writing? trial.1 = some (TableLock.keyOf "d/t") := by decide +kernel
  have hlock : (handSet trial.2.site).store.lockBody "gcf-ingest-" "d/t" = some (.manual "hands off") := by decide +kernel
  obtain ⟨since, log, hsteps⟩ := steps_handSet (Trial.steady_table Trial.pointers trivial (show 18 < _ by decide))
    trial.eq_1
  -- What the calls come to matters no more.
  generalize trial = reached at hwriting hlock hsteps
  obtain ⟨body, precondition, next, hnext⟩ := World.exists_of_writing? hwriting
  exact ⟨_, _, body, precondition, next, List.mem_singleton_self _, hnext, hlock, fun reply site hanswers =>
    get?_lock_of_manual ⟨_, _, rfl, by decide⟩ (by decide) rfl hsteps (List.mem_singleton_self _) hnext hanswers hlock⟩

end Manual
end Intake
