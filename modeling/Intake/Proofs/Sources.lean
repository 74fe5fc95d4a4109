import Intake.Proofs.Files
import Intake.Proofs.Gate
/-!
# Sources — what the engine writes is not what it loads

The files of a job are those that a listing has shown beside its marker, and none of them was empty.  The engine writes
empty objects only, but for the locks of tables.  So an object of the engine is never a source of a job, unless it is the
lock of a table whose prefix is the directory of the marker itself (`lock_of_wrote`).
-/
namespace Intake

/-- The call writes nothing but empty objects, and submits nothing. -/
def CloudCall.IsBlank : CloudCall → Prop
  | .put _ body _ => body = []
  | .submit _ => False
  | _ => True

theorem CloudCall.IsPassive.isBlank {c : CloudCall} (h : c.IsPassive) : c.IsBlank := by
  cases c <;> first | exact h.elim | trivial

theorem CloudCall.IsPosting.isBlank {c : CloudCall} {tablePrefix : String} (h : c.IsPosting tablePrefix) :
    c.IsBlank := by
  cases c <;> first | exact h.2 | exact h.elim | trivial

open Invocation

theorem Claim.blank_takeObject (marker : ObjectInfo) : (takeObject marker).Only CloudCall.IsBlank := only_takeObject rfl

theorem Claim.blank_take (marker : String) : (take marker).Only CloudCall.IsBlank := only_take trivial fun _ => rfl

theorem Backlog.blank_pop (tablePrefix : String) : (pop tablePrefix).Only CloudCall.IsBlank := by
  refine ((reads_next tablePrefix).passive.mono fun _ hc => hc.isBlank).bind fun first => ?_
  split
  · exact only_pure _
  · exact (only_store (only_call trivial)).bind fun _ => only_pure _

namespace Sources

open Pool (Stand)

/-! ## Where the files of a job come from -/

/-- **The job takes its files from a listing**: they are data beside a marker of its table, as the store was then. -/
def Sourced (ctx : Context) (log : List Deed) (job : Job) : Prop :=
  ∃ marker destination, ctx.layout.destination marker = .ok destination ∧ job.destination = destination.table ∧
    ∃ listed ∈ log, listed.call = .list (Submission.dataPrefix marker) (some "/") ∧
      ∀ uri ∈ job.uris, ∃ key ∈ listed.store.dataKeys ctx.layout.successName marker, uri = Key.uri ctx.bucket key

theorem Sourced.append {ctx : Context} {log : List Deed} {job : Job} (h : Sourced ctx log job) (more : List Deed) :
    Sourced ctx (log ++ more) job := by
  obtain ⟨marker, destination, hdestination, htable, listed, hlisted, hfiles⟩ := h
  exact ⟨marker, destination, hdestination, htable, listed, List.mem_append_left _ hlisted, hfiles⟩

/-- The call writes something only into the lock of a table, and submits only jobs with files from a listing. -/
def Ok (ctx : Context) (c : CloudCall) (t : Stand) : Prop :=
  match c with
  | .put key body _ => body = [] ∨ ∃ tablePrefix, key = TableLock.keyOf tablePrefix
  | .submit job => Sourced ctx t.log job
  | _ => True

theorem ok_of_isBlank {ctx : Context} {c : CloudCall} (h : c.IsBlank) (t : Stand) : Ok ctx c t := by
  cases c <;> first | exact .inl h | exact h.elim | trivial

/-- Others may do what they like before each call. -/
abbrev among (ctx : Context) : Surroundings Cloud Stand := Stand.among (fun _ _ => True) (fun _ => True) (Ok ctx)

section Keeps

variable {ctx : Context} {marker : String} {s : Stand}

theorem admits_of_isBlank {c : CloudCall} (h : c.IsBlank) : (among ctx).admits c s := fun _ _ _ => ok_of_isBlank h _

theorem keeps_blank {α : Type} {x : Invocation α} (hx : x.Only CloudCall.IsBlank) :
    x.Keeps (among ctx) (fun _ _ => True) s :=
  hx.keeps_all admits_of_isBlank

theorem keeps_passive {α : Type} {x : Invocation α} (hx : x.Only CloudCall.IsPassive) :
    x.Keeps (among ctx) (fun _ _ => True) s :=
  keeps_blank (hx.mono fun _ hc => hc.isBlank)

/-- The batches of a marker hold data beside it, as it was listed. -/
theorem keeps_gather : (Submission.gather ctx.bucket (Submission.dataPrefix marker) ctx.layout.successName
    (Submission.limits ctx.settings)).Keeps (among ctx) (fun batches t =>
      ∃ listed ∈ t.log, listed.call = .list (Submission.dataPrefix marker) (some "/") ∧
        batches.flatMap (·.uris) =
          (listed.store.dataKeys ctx.layout.successName marker).map (Key.uri ctx.bucket)) s := by
  have hlist : (Invocation.list (Submission.dataPrefix marker) (some "/")).Keeps (among ctx) (fun listing t =>
      ∃ listed ∈ t.log, listed.call = .list (Submission.dataPrefix marker) (some "/") ∧
        listing = listed.store.list (Submission.dataPrefix marker) (some "/")) s := by
    refine keeps_store ⟨admits_of_isBlank trivial, fun reply t hr listing e => ?_⟩
    obtain ⟨site, -, -, ⟨-, hreply | ⟨fault, e', -⟩⟩, hlog⟩ := hr
    · rw [e] at hreply
      refine ⟨⟨site.store, _, reply⟩, ?_, rfl, (Except.ok.inj (Option.some.inj hreply)).symm⟩
      rw [hlog]
      exact List.mem_append_right _ (List.mem_singleton_self _)
    · rw [e] at e'
      cases e'
  refine hlist.bind fun listing t h => ?_
  split
  · exact keeps_throw _
  · obtain ⟨listed, hmem, hcall, rfl⟩ := h
    exact keeps_pure ⟨listed, hmem, hcall, Store.batchesOf_uris ..⟩

/-- The jobs of a plan share out the files of its batches. -/
theorem keeps_planFor {destination : Destination} {batches : List Batch} :
    (Submission.planFor ctx marker destination batches).Keeps (among ctx) (fun plan _ => ∀ job ∈ plan.jobs,
      job.destination = destination.table ∧ ∀ uri ∈ job.uris, uri ∈ batches.flatMap (·.uris)) s := by
  dsimp only [Submission.planFor]
  refine (keeps_passive (ConfigFiles.reads_transformSql marker).passive).bind fun sql s _ => ?_
  cases sql with
  | some sql =>
    refine (keeps_passive (ConfigFiles.reads_externalConfig marker).passive).bind fun external s _ => ?_
    refine keeps_pure fun job hjob => ?_
    rw [List.mem_singleton.1 hjob]
    exact ⟨rfl, fun _ huri => huri⟩
  | none =>
    refine (keeps_passive (ConfigFiles.reads_loadConfig marker _).passive).bind fun config s _ => ?_
    refine keeps_pure fun job hjob => ?_
    obtain ⟨batch, hbatch, rfl⟩ := List.mem_map.1 hjob
    exact ⟨rfl, fun uri huri => List.mem_flatMap.2 ⟨batch, hbatch, huri⟩⟩

theorem mem_log_of_answers {listed : Deed} {c : CloudCall} {s t : Stand} {reply : c.Reply}
    (h : (among ctx).answers c s reply t) (hlisted : listed ∈ s.log) : listed ∈ t.log := by
  obtain ⟨_, -, -, hanswers⟩ := h
  rw [hanswers.log]
  exact List.mem_append_left _ hlisted

/-- **The jobs of every plan take their files from a listing.** -/
theorem keeps_plan : (Submission.plan ctx marker).Keeps (among ctx)
    (fun plan t => ∀ job ∈ plan.jobs, Sourced ctx t.log job) s := by
  have hfound : (ofExcept (ctx.layout.destination marker)).Keeps (among ctx)
      (fun destination _ => ctx.layout.destination marker = .ok destination) s := keeps_ofExcept fun _ e => e
  refine hfound.bind fun destination s hdestination => ?_
  refine keeps_gather.bind fun batches s h => ?_
  obtain ⟨listed, hlisted, hcall, huris⟩ := h
  refine (keeps_planFor.carry (fun _ => mem_log_of_answers) hlisted).mono fun plan t h job hjob => ?_
  obtain ⟨htable, hfiles⟩ := h.1 job hjob
  refine ⟨marker, destination, hdestination, htable, listed, h.2, hcall, fun uri huri => ?_⟩
  have hmem := hfiles uri huri
  rw [huris] at hmem
  obtain ⟨key, hkey, rfl⟩ := List.mem_map.1 hmem
  exact ⟨key, hkey, rfl⟩

/-- Jobs that take their files from a listing may be submitted. -/
def source (ctx : Context) : Sourcing (among ctx) ctx where
  May job s := Sourced ctx s.log job
  passive hc := admits_of_isBlank hc.isBlank
  draws := admits_of_isBlank trivial
  lasts _ hr h := by
    obtain ⟨_, -, -, hanswers⟩ := hr
    rw [hanswers.log]
    exact h.append _
  named _ h := h
  plans := keeps_plan
  submits h _ _ _ := h

/-- **A subscriber** writes into its lock only. -/
def outline (ctx : Context) (tablePrefix : String) : Outline (among ctx) ctx tablePrefix where
  toTurnOutline := .loose (source ctx) tablePrefix fun _ _ _ => .inr ⟨tablePrefix, rfl⟩
  First _ _ _ _ := True
  Open _ _ := True
  Start _ := True
  posts hx := keeps_blank (hx.mono fun _ hc => hc.isBlank)
  starts hx _ := keeps_passive hx
  trigger _ := (keeps_passive (reads_head _).passive).mono fun _ _ _ _ _ => keeps_blank (Claim.blank_takeObject _)
  readLock := Leased.keeps_readLock (admits_of_isBlank trivial) (fun _ _ => trivial)
    (fun _ _ _ => admits_of_isBlank trivial) (fun _ _ _ _ _ _ => trivial) fun _ _ _ _ _ _ _ => trivial
  looks _ := keeps_passive (Backlog.reads_next _).passive
  vacant _ := trivial
  empty _ := trivial
  other _ _ := trivial
  resumes _ _ _ _ := trivial
  pops _ _ _ := keeps_blank (Backlog.blank_pop _)
  counts _ := keeps_passive (passive_count _)
  times _ := keeps_passive passive_now
  next _ := keeps_passive (Backlog.reads_next _).passive
  releases _ := Leased.keeps_releaseLock (fun _ => trivial) (fun _ _ => admits_of_isBlank trivial)
    fun _ _ _ _ _ _ => trivial

/-- **Every notification** writes into locks only, and loads what it has listed. -/
def handling (ctx : Context) (n : Notification) :
    Dispatch.Handling (among { ctx with bucket := n.bucket }) ctx n where
  Before _ := True
  passive hc := admits_of_isBlank hc.isBlank
  looks _ _ _ := trivial
  takes _ _ := keeps_blank (Claim.blank_take _)
  loads _ := source _
  pushes _ _ := admits_of_isBlank rfl
  clears _ := admits_of_isBlank trivial
  posts _ := keeps_blank ((BackfillMarker.posting_post _).mono fun _ hc => hc.isBlank)
  runs _ _ _ := (outline _ _).keeps_run trivial

end Keeps

/-! ## Who wrote a source -/

/-- **Any notifications, under any settings**; others write and delete what they like. -/
def rules : Rules Notice where
  program notice := (Dispatch.handle notice.ctx notice.notification).plain
  allows _ := True
  outside _ := True
  replies _ _ _ _ := True

def discipline : Pool.Discipline rules :=
  .ofCalls (fun notice => Ok { notice.ctx with bucket := notice.notification.bucket }) fun _ =>
    ((handling _ _).keeps_handle trivial).plain

/-- A store that the pool has had: at one of the calls that were made, or now. -/
inductive Had (pool : Pool Notice) : Store → Prop where
  | now : Had pool pool.site.store
  | once {member : Member Notice} {deed : Deed} (hmember : member ∈ pool.members) (hdeed : deed ∈ member.log) :
    Had pool deed.store

/-- One of the invocations has written this generation of the object under a key. -/
def Wrote (pool : Pool Notice) (key : String) (generation : Nat) : Prop :=
  ∃ member ∈ pool.members, ∃ store body precondition,
    ⟨store, .put key body precondition, .ok (.written (decimal generation))⟩ ∈ member.log

/-- **What an invocation has written under the key was empty**, in every store that the pool has had. -/
structure Blank (key : String) (pool : Pool Notice) : Prop where
  past : ∀ {store}, Had pool store → store.nextGeneration ≤ pool.site.store.nextGeneration
  given : ∀ {generation}, Wrote pool key generation → generation < pool.site.store.nextGeneration
  empty : ∀ {generation store object}, Wrote pool key generation → Had pool store → store.get? key = some object →
    object.generation = generation → object.body = []

section Blank

variable {key : String} {pool pool' : Pool Notice}

/-- Generations are given out in order, so only the last one given out may be a new object. -/
theorem Blank.of_since (h : Blank key pool) (hsince : Store.Since key pool.site.store pool'.site.store)
    (hhad : ∀ {store}, Had pool' store → Had pool store ∨ store = pool'.site.store)
    (hwrote : ∀ {generation}, Wrote pool' key generation → Wrote pool key generation ∨
      generation = pool.site.store.nextGeneration ∧ generation < pool'.site.store.nextGeneration ∧
        ∀ object, pool'.site.store.get? key = some object → object.body = []) : Blank key pool' where
  past hstore := by
    rcases hhad hstore with hstore | rfl
    · exact (h.past hstore).trans hsince.next
    · exact le_rfl
  given hgeneration := by
    rcases hwrote hgeneration with hgeneration | ⟨-, hlt, -⟩
    · exact (h.given hgeneration).trans_le hsince.next
    · exact hlt
  empty {generation store object} hgeneration hstore hobject he := by
    rcases hwrote hgeneration with hold | ⟨hnew, -, hempty⟩
    · rcases hhad hstore with hstore | rfl
      · exact h.empty hold hstore hobject he
      · exact h.empty hold .now (hsince.object object hobject (he ▸ h.given hold)) he
    · rcases hhad hstore with hstore | rfl
      · -- the generation was not given out yet when the store was as it was
        have := Store.generation_lt hobject
        have := h.past hstore
        omega
      · exact hempty object hobject

/-- Something happened to the store, and no member has made a call. -/
theorem Blank.move (h : Blank key pool) (hsince : Store.Since key pool.site.store pool'.site.store)
    (hmembers : pool'.members = pool.members) : Blank key pool' := by
  refine h.of_since hsince (fun hhad => ?_) fun hwrote => .inl ?_
  · cases hhad with
    | now => exact .inr rfl
    | once hmember hdeed => exact .inl (.once (hmembers ▸ hmember) hdeed)
  · obtain ⟨member, hmember, hdeed⟩ := hwrote
    exact ⟨member, hmembers ▸ hmember, hdeed⟩

theorem Blank.join (h : Blank key pool) (errand : Notice) (program : CloudProgram (Except Failure Unit)) :
    Blank key { pool with members := pool.members ++ [⟨errand, program, pool.clock, []⟩] } := by
  refine h.of_since (.refl _ _) (fun hhad => ?_) fun hwrote => .inl ?_
  · cases hhad with
    | now => exact .inr rfl
    | once hmember hdeed =>
      rcases List.mem_append.1 hmember with hmember | hmember
      · exact .inl (.once hmember hdeed)
      · rw [List.mem_singleton.1 hmember] at hdeed
        cases hdeed
  · obtain ⟨member, hmember, store, body, precondition, hdeed⟩ := hwrote
    rcases List.mem_append.1 hmember with hmember | hmember
    · exact ⟨member, hmember, store, body, precondition, hdeed⟩
    · rw [List.mem_singleton.1 hmember] at hdeed
      cases hdeed

/-- A member makes a call that may write something only into a lock. -/
theorem Blank.call (h : Blank key pool) (hkey : ∀ tablePrefix, key ≠ TableLock.keyOf tablePrefix) {ctx : Context}
    {i : Nat} {member : Member Notice} {rest : CloudProgram (Except Failure Unit)} {c : CloudCall} {reply : c.Reply}
    {site : Site} (hmember : pool.members[i]? = some member) (hok : Ok ctx c ⟨pool.site, member.log⟩)
    (hanswers : Site.Answers c pool.site reply site) : Blank key ⟨site, pool.clock, pool.members.set i
      ⟨member.errand, rest, pool.clock, member.log ++ [⟨pool.site.store, c, reply⟩]⟩⟩ := by
  refine h.of_since (hanswers.since key) (fun hhad => ?_) fun hwrote => ?_
  · cases hhad with
    | now => exact .inr rfl
    | once hother hdeed =>
      rcases List.mem_or_eq_of_mem_set hother with hother | rfl
      · exact .inl (.once hother hdeed)
      · rcases List.mem_append.1 hdeed with hdeed | hdeed
        · exact .inl (.once (List.mem_of_getElem? hmember) hdeed)
        · rw [List.mem_singleton.1 hdeed]
          exact .inl .now
  · obtain ⟨other, hother, store, body, precondition, hdeed⟩ := hwrote
    rcases List.mem_or_eq_of_mem_set hother with hother | rfl
    · exact .inl ⟨other, hother, store, body, precondition, hdeed⟩
    rcases List.mem_append.1 hdeed with hdeed | hdeed
    · exact .inl ⟨member, List.mem_of_getElem? hmember, store, body, precondition, hdeed⟩
    -- the write is the call that was just made
    cases List.mem_singleton.1 hdeed
    obtain ⟨-, hnot⟩ | ⟨hreply, -, now, rfl⟩ := hanswers.put_cases
    · exact absurd rfl (hnot _)
    refine .inr ⟨decimal_inj (PutResult.written.inj (Except.ok.inj hreply)), ?_, fun object hobject => ?_⟩
    · rw [decimal_inj (PutResult.written.inj (Except.ok.inj hreply))]
      exact Nat.lt_succ_self _
    · rw [Store.get?_write_self, Option.some.injEq] at hobject
      rw [← hobject]
      exact hok.resolve_right fun ⟨tablePrefix, e⟩ => hkey tablePrefix e

/-- **Whatever happens next, what the invocations write is empty**, if the key is not one of a lock. -/
theorem Blank.step (hkey : ∀ tablePrefix, key ≠ TableLock.keyOf tablePrefix) (horderly : pool.Orderly discipline)
    (hstep : Pool.Step rules pool pool') (h : Blank key pool) : Blank key pool' := by
  cases hstep with
  | join _ => exact h.join _ _
  | call hmember hnext hanswers =>
    exact h.call hkey hmember (horderly.ok_next (List.mem_of_getElem? hmember) hnext) hanswers
  | pass => exact h.move (.refl _ _) rfl
  | write body now _ => exact h.move (.write ..) rfl
  | remove _ => exact h.move (.remove ..) rfl

theorem Blank.steps (hkey : ∀ tablePrefix, key ≠ TableLock.keyOf tablePrefix) (hmembers : pool.members = [])
    (hsteps : Relation.ReflTransGen (Pool.Step rules) pool pool') : Blank key pool' := by
  induction hsteps with
  | refl =>
    have hnobody : ∀ member, member ∉ pool.members := by simp [hmembers]
    have hwrote : ∀ generation, ¬ Wrote pool key generation := fun _ ⟨member, hmember, _⟩ => hnobody member hmember
    refine ⟨fun hhad => ?_, fun h => absurd h (hwrote _), fun h => absurd h (hwrote _)⟩
    cases hhad with
    | now => exact Nat.le_refl _
    | once hmember => exact absurd hmember (hnobody _)
  | tail hsteps hstep ih => exact ih.step hkey (discipline.orderly trivial hmembers hsteps) hstep

end Blank

/-- **No source of a job is an object that the engine has written**, but the lock beside the marker.  Whatever
notifications are handled side by side, whatever others write and delete, and whatever was there before: every file that a
submitted job names was seen in a listing of the directory of a marker of the job's table, was not empty and was no
success marker; and if one of the invocations had written it, then it is the lock of a table whose prefix is that
directory. -/
theorem lock_of_wrote {start pool : Pool Notice} (hmembers : start.members = [])
    (hsteps : Relation.ReflTransGen (Pool.Step rules) start pool) {member : Member Notice}
    (hmember : member ∈ pool.members) {before after : List Deed} {store : Store} {job : Job}
    {reply : Except WarehouseFault JobStatus} (hlog : member.log = before ++ ⟨store, .submit job, reply⟩ :: after)
    {key : String} (hsource : Key.uri member.errand.notification.bucket key ∈ job.uris) :
    ∃ marker destination, member.errand.ctx.layout.destination marker = .ok destination ∧
      job.destination = destination.table ∧
      Key.directory key = Key.directory marker ∧ Key.name key ≠ member.errand.ctx.layout.successName ∧
      ∃ listed ∈ before, listed.call = .list (Submission.dataPrefix marker) (some "/") ∧
        ∃ object, listed.store.get? key = some object ∧ object.body ≠ [] ∧
          (Wrote pool key object.generation → key = TableLock.keyOf (Key.directory marker)) := by
  have horderly : pool.Orderly discipline := discipline.orderly trivial hmembers hsteps
  obtain ⟨site, -, marker, destination, hdestination, htable, listed, hlisted, hcall, hfiles⟩ :=
    horderly.wentOn member hmember before _ after hlog
  obtain ⟨found, hfound, huri⟩ := hfiles _ hsource
  obtain rfl := Key.uri_injective _ huri
  obtain ⟨hdirectory, hname, object, hobject, hbody⟩ := Store.of_mem_dataKeys hfound
  refine ⟨marker, destination, hdestination, htable, hdirectory, hname, listed, hlisted, hcall, object, hobject, hbody,
    fun hwrote => ?_⟩
  by_cases hlock : ∃ tablePrefix, key = TableLock.keyOf tablePrefix
  · obtain ⟨tablePrefix, rfl⟩ := hlock
    rw [← hdirectory, TableLock.directory_keyOf]
  · -- what is not a lock was empty when it was written, and is so in every store
    have hblank : Blank key pool := .steps (not_exists.1 hlock) hmembers hsteps
    refine absurd (hblank.empty hwrote (.once hmember ?_) hobject rfl) hbody
    rw [hlog]
    exact List.mem_append_left _ hlisted

/-! ## A marker at its table prefix -/

def submits (check : Job → Bool) (log : List Deed) : Bool :=
  log.any fun deed => match deed.call with
    | .submit job => check job
    | _ => false

theorem exists_of_submits {check : Job → Bool} {log : List Deed} (h : submits check log = true) :
    ∃ before store job reply after, log = before ++ ⟨store, .submit job, reply⟩ :: after ∧ check job = true := by
  obtain ⟨⟨store, c, reply⟩, hdeed, hcheck⟩ := List.any_eq_true.1 h
  obtain ⟨before, after, rfl⟩ := List.append_of_mem hdeed
  cases c with
  | submit job => exact ⟨before, store, job, reply, after, rfl, hcheck⟩
  | _ => cases hcheck

def settings : Settings where
  keyPattern := "^(?P<dataset>[a-z]+)/(?P<table>[a-z]+)/"
  jobPoll := .ofSeconds 60

/-- A batch in a folder of the table, a batch at the table prefix, and pointers to both. -/
def files : List (String × Octets) :=
  [("d/t/0/x.csv", [49]), ("d/t/0/_SUCCESS", []), ("d/t/y.csv", [50]), ("d/t/_SUCCESS", []),
    ("d/t/_backlog/0/_SUCCESS", []), ("d/t/_backlog/_SUCCESS", []), ("d/t/_BACKFILL", [])]

def woken : Notice := ⟨Trial.contextOf settings, ⟨"lake", "d/t/_BACKFILL", none⟩⟩

def worked (calls : Nat) : CloudProgram (Except Failure Unit) × World :=
  (Trial.bucketOf files).runFor calls (rules.program woken)

def deeds (calls : Nat) : List Deed := (Trial.bucketOf files).deedsFor calls (rules.program woken)

/-- The subscriber works, whoever else may. -/
theorem steps_worked (outside : String → Prop) (calls : Nat) (hcalls : calls < 16 ^ 12) :
    ∃ since, Relation.ReflTransGen (Pool.Step { rules with outside := outside })
      ⟨(Trial.bucketOf files).site, (Trial.bucketOf files).elapsed, []⟩
      ⟨(worked calls).2.site, (worked calls).2.elapsed, [⟨woken, (worked calls).1, since, deeds calls⟩]⟩ := by
  have habides : World.Abides { rules with outside := outside } fun _ => True := .of_all fun _ _ _ _ => trivial
  obtain ⟨since, log, -, -, hlog, hsteps⟩ := World.steps_runFor habides (Trial.steady_bucketOf files hcalls)
    (Nat.le_refl calls) (worked.eq_1 calls) (Nat.le_refl _) woken [] [] []
  rw [List.nil_append] at hlog
  subst hlog
  exact ⟨since, .head (.join trivial) hsteps⟩

/-- The batch at the table prefix is loaded from what was listed there. -/
theorem lock_of_wrote_prefix : ∃ (start pool : Pool Notice) (member : Member Notice) (before after : List Deed)
    (store : Store) (job : Job) (reply : Except WarehouseFault JobStatus),
    start.members = [] ∧ Relation.ReflTransGen (Pool.Step rules) start pool ∧ member ∈ pool.members ∧
    member.log = before ++ ⟨store, .submit job, reply⟩ :: after ∧ Key.uri "lake" "d/t/y.csv" ∈ job.uris ∧
    ∃ marker, Key.directory marker = "d/t" ∧
      ∃ listed ∈ before, listed.call = .list (Submission.dataPrefix marker) (some "/") ∧
        (listed.store.get? "d/t/y.csv").isSome = true := by
  obtain ⟨since, hsteps⟩ := steps_worked (fun _ => True) 47 (by decide)
  have hloaded : submits (fun job => job.uris.contains (Key.uri "lake" "d/t/y.csv")) (deeds 47) = true := by
    decide +kernel
  obtain ⟨before, store, job, reply, after, hlog, hcheck⟩ := exists_of_submits hloaded
  have hsource : Key.uri "lake" "d/t/y.csv" ∈ job.uris := List.contains_iff_mem.1 hcheck
  obtain ⟨marker, destination, -, -, hdirectory, -, listed, hlisted, hcall, object, hobject, -⟩ :=
    lock_of_wrote rfl hsteps (List.mem_singleton_self _) hlog hsource
  exact ⟨_, _, _, before, after, store, job, reply, rfl, hsteps, List.mem_singleton_self _, hlog, hsource, marker,
    hdirectory.symm.trans (by decide), listed, hlisted, hcall, by rw [hobject]; rfl⟩

/-- **The lock is loaded with the batch at the table prefix**, although nobody but the engine has written it: the first job
has left its name there. -/
theorem lock_mem_uris : ∃ (start pool : Pool Notice) (member : Member Notice) (deed : Deed) (job : Job),
    start.members = [] ∧ start.site.store.get? (TableLock.keyOf "d/t") = none ∧
    Relation.ReflTransGen (Pool.Step { rules with outside := fun _ => False }) start pool ∧ member ∈ pool.members ∧
    deed ∈ member.log ∧ deed.call = .submit job ∧ Key.uri "lake" (TableLock.keyOf "d/t") ∈ job.uris := by
  obtain ⟨since, hsteps⟩ := steps_worked (fun _ => False) 47 (by decide)
  have hloaded : submits (fun job => job.uris.contains (Key.uri "lake" (TableLock.keyOf "d/t"))) (deeds 47) = true := by
    decide +kernel
  obtain ⟨before, store, job, reply, after, hlog, hcheck⟩ := exists_of_submits hloaded
  refine ⟨_, _, _, ⟨store, .submit job, reply⟩, job, rfl, by decide +kernel, hsteps, List.mem_singleton_self _, ?_, rfl,
    List.contains_iff_mem.1 hcheck⟩
  rw [hlog]
  exact List.mem_append_right _ List.mem_cons_self

end Sources
end Intake
