import Intake.Dispatch
import Intake.Proofs.Modest
/-!
# Dispatching — the calls that a notification sets off

A success marker that is applied at once is worked on without a lock: the only object that is written is its claim.  Every
other notification is about one table (`Dispatch.table?`), and apart from what a subscriber does it writes claims, pointers
and the backfill marker of that table.
-/
namespace Intake

open Invocation

/-- The call writes only claims, and deletes nothing. -/
def CloudCall.IsClaiming : CloudCall → Prop
  | .put key _ _ => ∃ marker created, key = Claim.key marker created
  | .delete .. => False
  | _ => True

theorem CloudCall.IsLoading.isClaiming {c : CloudCall} (h : c.IsLoading) : c.IsClaiming := by
  cases c <;> trivial

theorem Claim.claiming_take (marker : String) : (take marker).Only CloudCall.IsClaiming :=
  only_take trivial fun _ => ⟨_, _, rfl⟩

/-! ## Without a lock -/

namespace Leased

variable {α β σ : Type} {env : Surroundings Cloud σ} {s : σ}

/-- Without a handle on a lock the invocation makes admitted calls only, does not get one, and promises something if it
succeeds, and something of each failure. -/
def KeepsFree (env : Surroundings Cloud σ) (good : α → σ → Prop) (x : Leased α) (s : σ)
    (bad : Failure → σ → Prop := fun _ _ => True) : Prop :=
  Program.Keeps env (fun r s => r.2 = none ∧ (∀ a, r.1 = .ok a → good a s) ∧ ∀ e, r.1 = .error e → bad e s)
    (x.run.run none) s

variable {bad : Failure → σ → Prop}

theorem keepsFree_pure {good : α → σ → Prop} {a : α} (h : good a s) : (pure a : Leased α).KeepsFree env good s bad :=
  ⟨rfl, fun _ e => by cases e; exact h, nofun⟩

theorem keepsFree_throw {good : α → σ → Prop} {e : Failure} (h : bad e s) :
    (throw e : Leased α).KeepsFree env good s bad :=
  ⟨rfl, nofun, fun _ he => by cases he; exact h⟩

theorem keepsFree_claimLock {good : Bool → σ → Prop} (id : String) (h : good false s) :
    (claimLock id).KeepsFree env good s bad :=
  ⟨rfl, fun _ e => by cases e; exact h, nofun⟩

theorem KeepsFree.bind {mid : α → σ → Prop} {good : β → σ → Prop} {x : Leased α} {f : α → Leased β}
    (hx : x.KeepsFree env mid s bad) (hf : ∀ a s, mid a s → (f a).KeepsFree env good s bad) :
    (x >>= f).KeepsFree env good s bad := by
  unfold KeepsFree
  rw [run_bind]
  refine Program.Keeps.bind hx fun r s hr => ?_
  obtain ⟨r, held⟩ := r
  obtain ⟨rfl, hr, hbad⟩ := hr
  cases r with
  | ok a => exact hf a s (hr a rfl)
  | error e => exact ⟨rfl, nofun, fun _ he => by cases he; exact hbad e rfl⟩

theorem keepsFree_lift_run {good : α → σ → Prop} {x : Invocation α}
    (hx : Program.Keeps env (fun r s => (∀ a, r = .ok a → good a s) ∧ ∀ e, r = .error e → bad e s) x.run s) :
    (lift x).KeepsFree env good s bad :=
  Program.Keeps.bind hx fun _ _ hr => ⟨rfl, hr⟩

theorem keepsFree_lift {good : α → σ → Prop} {x : Invocation α} (hx : x.Keeps env good s) :
    (lift x).KeepsFree env good s :=
  keepsFree_lift_run (Program.Keeps.mono (fun _ _ hr => ⟨hr, fun _ _ => trivial⟩) hx)

theorem KeepsFree.recording {good : α → σ → Prop} {x : Leased α} (hx : x.KeepsFree env good s bad) :
    (recording x).KeepsFree env good s bad := by
  unfold KeepsFree
  rw [run_recording]
  refine Program.Keeps.bind hx fun r s hr => ?_
  obtain ⟨r, held⟩ := r
  obtain ⟨rfl, hr, hbad⟩ := hr
  cases r with
  | ok a => exact ⟨rfl, hr, nofun⟩
  | error e => exact ⟨rfl, nofun, fun _ he => by cases he; exact hbad e rfl⟩

theorem KeepsFree.life {good : α → σ → Prop} {x : Leased α} (hx : x.KeepsFree env good s bad) :
    Program.Keeps env (fun r s => (∀ a, r = .ok a → good a s) ∧ ∀ e, r = .error e → bad e s) (do
      let (result, _) ← x.run.run none
      return result) s :=
  Program.Keeps.bind hx fun _ _ hr => hr.2

end Leased

namespace Sourcing

variable {σ : Type} {env : Surroundings Cloud σ} {ctx : Context} (source : Sourcing env ctx)

include source

theorem keeps_submitAndWatch {job : Job} {s : σ} (h : source.May job s) :
    (Submission.submitAndWatch ctx job).Keeps env (fun _ _ => True) s :=
  Submission.keeps_submitAndWatch (fun hx => hx.keeps_all source.passive)
    (keeps_warehouse ⟨source.submits h, fun _ _ _ _ _ => trivial⟩)

/-- Jobs that may be submitted are submitted one after the other. -/
theorem keepsFree_loadJobs (jobId : String) (total : Nat) : ∀ (jobs : List Job) (index : Nat) (lastId : String) (s : σ),
    (∀ job ∈ jobs, source.May job s) →
      (Submission.loadJobs ctx jobId total index lastId jobs).KeepsFree env (fun _ _ => True) s
  | [], _, _, _, _ => Leased.keepsFree_pure trivial
  | job :: rest, index, _, s, h => by
    have hclaim : (Leased.claimLock (JobId.ofPart jobId index total)).KeepsFree env
        (fun _ s => ∀ other ∈ job :: rest, source.May other s) s := Leased.keepsFree_claimLock _ h
    refine hclaim.bind fun locked s h => ?_
    -- the rest may be submitted whatever comes of the first
    have hrest : ∀ {c s reply s'}, env.admits c s → env.answers c s reply s' → (∀ other ∈ rest, source.May other s) →
        ∀ other ∈ rest, source.May other s' := fun hc hr hmay other hother => source.lasts hc hr (hmay other hother)
    have hsubmit := (source.keeps_submitAndWatch (source.named (JobId.ofPart jobId index total)
      (h job List.mem_cons_self))).carry hrest fun other hother => h other (List.mem_cons_of_mem _ hother)
    refine (Leased.keepsFree_lift hsubmit).bind fun _ s h => ?_
    split
    · exact Leased.keepsFree_pure trivial
    · exact keepsFree_loadJobs jobId total rest _ _ s h.2

theorem keepsFree_carryOut (jobId : String) (firstPart : Nat) {plan : Plan} {s : σ}
    (h : ∀ job ∈ plan.jobs, source.May job s) :
    (Submission.carryOut ctx jobId firstPart plan).KeepsFree env (fun _ _ => True) s := by
  cases plan with
  | query job =>
    have hclaim : (Leased.claimLock jobId).KeepsFree env (fun _ s => source.May job s) s :=
      Leased.keepsFree_claimLock _ (h job (List.mem_singleton_self _))
    refine hclaim.bind fun _ s h => ?_
    exact (Leased.keepsFree_lift (source.keeps_submitAndWatch (source.named jobId h))).bind fun _ _ _ =>
      Leased.keepsFree_pure trivial
  | loads jobs =>
    have hload := source.keepsFree_loadJobs jobId jobs.length (jobs.drop firstPart) firstPart jobId s
      fun job hjob => h job (List.mem_of_mem_drop hjob)
    simp only [Submission.carryOut]
    split
    · exact (Leased.keepsFree_throw trivial).bind fun _ _ (h : False) => h.elim
    · exact hload.bind fun _ _ _ => Leased.keepsFree_pure trivial

/-- **Without a lock, all jobs of a plan are submitted.** -/
theorem keepsFree_apply (marker jobId : String) (firstPart : Nat) {s : σ} :
    (Submission.apply ctx marker jobId firstPart).KeepsFree env (fun _ _ => True) s := by
  refine Leased.KeepsFree.recording ?_
  rw [Submission.submitJobs_eq]
  exact (Leased.keepsFree_lift source.plans).bind fun _ _ h => source.keepsFree_carryOut jobId firstPart h

end Sourcing

theorem ConfigFiles.reads_orderedIn : ∀ folders, (orderedIn folders).Reads
  | [] => reads_pure _
  | _ :: rest => by
    refine (reads_head _).bind fun found => ?_
    split
    · exact reads_pure _
    · exact reads_orderedIn rest

/-! ## Notifications -/

namespace Dispatch

/-- The table that a notification is about. -/
def table? (layout : Layout) (n : Notification) : Option String :=
  match triggerOf layout n with
  | .successMarker | .backlogItem => (layout.tablePrefix n.key).toOption
  | .backfill | .startGate => atTablePrefix? layout n.key
  | .ignored => none

/-- Whether the batches of a marker are to be applied in order. -/
def isOrdered (ctx : Context) (marker : String) : Invocation Bool :=
  if ctx.settings.alwaysOrdered then pure true else ConfigFiles.isOrdered marker

theorem reads_isOrdered (ctx : Context) (marker : String) : (isOrdered ctx marker).Reads := by
  unfold isOrdered
  split
  · exact reads_pure true
  · exact ConfigFiles.reads_orderedIn _

/-- What is done for a marker once it is known whether it is put into the backlog. -/
def deliver (ctx : Context) (marker : String) (ordered : Bool) : Invocation Outcome :=
  if ordered then do
    let enqueued ← enqueue ctx marker
    return .enqueued enqueued (← Monitor.ensureSubscriber ctx enqueued.tablePrefix)
  else return .applied (← applyNow ctx marker)

theorem successMarker_eq (ctx : Context) (marker : String) :
    successMarker ctx marker = isOrdered ctx marker >>= deliver ctx marker := by
  unfold successMarker isOrdered
  split <;> rfl

section Triggers

variable {layout : Layout} {n : Notification} {tablePrefix : String}

/-- A success marker lies in no backlog. -/
theorem isBacklog_of_successMarker (h : triggerOf layout n = .successMarker) : Key.isBacklog n.key = false := by
  unfold triggerOf classify at h
  grind

theorem name_of_backfill (h : triggerOf layout n = .backfill) : Key.name n.key = Key.backfillName := by
  unfold triggerOf classify at h
  grind

theorem gateName_of_startGate (h : triggerOf layout n = .startGate) : layout.gateName = some (Key.name n.key) := by
  unfold triggerOf classify at h
  grind

theorem directory_of_atTablePrefix? {key : String} (h : atTablePrefix? layout key = some tablePrefix) :
    Key.directory key = tablePrefix := by
  unfold atTablePrefix? at h
  grind

/-- **A notification is about the table that its key belongs to.** -/
theorem eq_of_table? {other : String} (htable : layout.tablePrefix n.key = .ok tablePrefix)
    (h : table? layout n = some other) : other = tablePrefix := by
  have hlevel : layout.isTableLevel (Key.name n.key) = true → tablePrefix = Key.directory n.key := fun hlevel => by
    rw [Layout.tablePrefix, if_pos hlevel] at htable
    exact (Except.ok.inj htable).symm
  cases htrigger : triggerOf layout n with
  | ignored => simp [table?, htrigger] at h
  | successMarker | backlogItem =>
    simp only [table?, htrigger, htable] at h
    exact (Option.some.inj h).symm
  | backfill =>
    simp only [table?, htrigger] at h
    rw [← directory_of_atTablePrefix? h, hlevel (by simp [Layout.isTableLevel, name_of_backfill htrigger])]
  | startGate =>
    simp only [table?, htrigger] at h
    rw [← directory_of_atTablePrefix? h, hlevel (by simp [Layout.isTableLevel, gateName_of_startGate htrigger])]

end Triggers

variable {σ : Type} {env : Surroundings Cloud σ} {ctx : Context} {n : Notification} {s : σ}

theorem passive_countResult (result : Except Failure Outcome) :
    Program.Only (I := Cloud) CloudCall.IsPassive (countResult result) := by
  unfold countResult
  split
  · trivial
  · exact only_call trivial
  · split
    · trivial
    · exact only_call trivial

theorem keeps_applyNow {marker : String} (htakes : (Claim.take marker).Keeps env (fun _ _ => True) s)
    (source : Sourcing env ctx) : (applyNow ctx marker).Keeps env (fun _ _ => True) s := by
  refine htakes.bind fun _ s _ => ?_
  have hfresh : (Invocation.ask .freshId).Keeps env (fun _ _ => True) s := keeps_ask source.draws fun _ _ _ => trivial
  exact hfresh.bind fun _ _ _ => Program.Keeps.mono (fun _ _ hr => hr.1) (source.keepsFree_apply ..).life

/-- What a notification sets off is counted before and after. -/
theorem keeps_handle_of_act {before : σ → Prop} (hpassive : ∀ {c s}, CloudCall.IsPassive c → env.admits c s)
    (hlooks : ∀ {c s reply s'}, CloudCall.IsPassive c → before s → env.answers c s reply s' → before s')
    (hact : ∀ {s}, before s → (act { ctx with bucket := n.bucket } n.key (triggerOf ctx.layout n)).Keeps env
      (fun _ _ => True) s) (hs : before s) : (handle ctx n).Keeps env (fun _ _ => True) s := by
  refine Program.Keeps.bind (?_ : Program.Keeps env (fun _ => before) _ s) fun _ s hs => ?_
  · exact Program.Only.keeps (fun _ _ hc _ => hpassive hc) (fun _ _ _ _ hc hs hr => hlooks hc hs hr) (only_call trivial) hs
  · refine Program.Keeps.bind (?_ : Invocation.Keeps env (fun _ _ => True) _ s) fun result s _ => ?_
    · split
      · have hopen : (Invocation.store (CloudProgram.ask (.openBucket n.bucket))).Keeps env (fun _ => before) s :=
          (only_store (only_call trivial)).keeps (fun _ _ hc _ => hpassive hc) (fun _ _ _ _ hc hs hr => hlooks hc hs hr) hs
        exact hopen.bind fun _ _ hs => hact hs
      · exact hact hs
    · refine Program.Keeps.bind (?_ : Program.Keeps env (fun _ _ => True) _ s) fun _ _ _ _ _ => trivial
      exact Program.Only.keeps (fun _ _ hc _ => hpassive hc) (fun _ _ _ _ _ _ _ => trivial) (passive_countResult result) trivial

/-- **What surroundings have to admit** for a notification to be handled there.  Some assertion holds until the
notification makes its claim. -/
structure Handling (env : Surroundings Cloud σ) (ctx : Context) (n : Notification) where
  Before : σ → Prop
  passive : ∀ {c s}, c.IsPassive → env.admits c s
  looks : ∀ {c s reply s'}, c.IsPassive → Before s → env.answers c s reply s' → Before s'
  /-- A success marker is claimed, and its jobs may be submitted. -/
  takes : ∀ {s}, triggerOf ctx.layout n = .successMarker → Before s → (Claim.take n.key).Keeps env (fun _ _ => True) s
  loads : triggerOf ctx.layout n = .successMarker → Sourcing env { ctx with bucket := n.bucket }
  /-- The backlog and the backfill marker of the table are looked after. -/
  pushes : ∀ {tablePrefix key s}, table? ctx.layout n = some tablePrefix →
    startsWith (Backlog.folder tablePrefix) key = true → env.admits (.put key [] .always) s
  clears : ∀ {tablePrefix version s}, table? ctx.layout n = some tablePrefix →
    env.admits (.delete (BackfillMarker.keyOf tablePrefix) (.version version)) s
  posts : ∀ {tablePrefix s}, table? ctx.layout n = some tablePrefix →
    (BackfillMarker.ofTable tablePrefix ctx.layout.gateName).post.Keeps env (fun _ _ => True) s
  runs : ∀ {tablePrefix s}, triggerOf ctx.layout n = .backfill → table? ctx.layout n = some tablePrefix → Before s →
    (Subscriber.run { ctx with bucket := n.bucket } tablePrefix).Keeps env (fun _ _ => True) s

namespace Handling

variable (h : Handling env ctx n)

include h

theorem keeps_looking {α : Type} {x : Invocation α} (hx : x.Only CloudCall.IsPassive) (hs : h.Before s) :
    x.Keeps env (fun _ => h.Before) s :=
  hx.keeps (fun _ _ hc _ => h.passive hc) (fun _ _ _ _ hc hs hr => h.looks hc hs hr) hs

theorem keeps_ensureSubscriber {tablePrefix : String} (htable : table? ctx.layout n = some tablePrefix) :
    (Monitor.ensureSubscriber { ctx with bucket := n.bucket } tablePrefix).Keeps env (fun _ _ => True) s :=
  Monitor.keeps_ensureSubscriber h.passive (h.clears htable) (h.posts htable) s

/-- A success marker is applied at once, or put into the backlog of its table. -/
theorem keeps_successMarker (htrigger : triggerOf ctx.layout n = .successMarker) (hs : h.Before s) :
    (successMarker { ctx with bucket := n.bucket } n.key).Keeps env (fun _ _ => True) s := by
  have htable : ∀ {tablePrefix}, ctx.layout.tablePrefix n.key = .ok tablePrefix →
      table? ctx.layout n = some tablePrefix := fun e => by
    simp only [table?, htrigger, e]
    rfl
  rw [successMarker_eq]
  refine (h.keeps_looking (reads_isOrdered _ _).passive hs).bind fun ordered s hs => ?_
  unfold deliver
  split
  · refine (keeps_enqueue h.passive (h.takes htrigger hs) (fun e => h.pushes (htable e)) fun e =>
      h.posts (htable e)).bind fun enqueued s hfound => ?_
    exact (h.keeps_ensureSubscriber (htable hfound)).bind fun _ _ _ => keeps_pure trivial
  · exact (keeps_applyNow (h.takes htrigger hs) (h.loads htrigger)).bind fun _ _ _ => keeps_pure trivial

theorem keeps_act (hs : h.Before s) : (act { ctx with bucket := n.bucket } n.key (triggerOf ctx.layout n)).Keeps env
    (fun _ _ => True) s := by
  cases htrigger : triggerOf ctx.layout n with
  | ignored => exact keeps_pure trivial
  | successMarker => exact h.keeps_successMarker htrigger hs
  | backlogItem =>
    have hfound : (ofExcept (ctx.layout.tablePrefix n.key)).Keeps env
        (fun found _ => ctx.layout.tablePrefix n.key = .ok found) s := keeps_ofExcept fun _ e => e
    refine hfound.bind fun found s hfound => ?_
    refine (h.keeps_ensureSubscriber ?_).bind fun _ _ _ => keeps_pure trivial
    simp only [table?, htrigger, hfound]
    rfl
  | backfill =>
    simp only [act, backfill]
    split
    · rename_i tablePrefix htable
      refine (h.runs htrigger ?_ hs).bind fun _ _ _ => keeps_pure trivial
      simpa only [table?, htrigger] using htable
    · exact keeps_throw _
  | startGate =>
    simp only [act, startGate]
    split
    · rename_i tablePrefix htable
      refine (h.posts ?_).bind fun _ _ _ => keeps_pure trivial
      simpa only [table?, htrigger] using htable
    · exact keeps_pure trivial

/-- **Such a notification keeps to its surroundings.** -/
theorem keeps_handle (hs : h.Before s) : (handle ctx n).Keeps env (fun _ _ => True) s :=
  keeps_handle_of_act h.passive h.looks h.keeps_act hs

end Handling
end Dispatch

/-! ## Where tables lie -/

theorem KeyPattern.prefix_of_resolve {keys : KeyPattern} {key : String} {found : Destination}
    (h : keys.resolve key = .ok found) : found.tablePrefix.toList <+: key.toList := by
  unfold resolve at h
  simp only at h
  split at h
  · split at h
    · split at h
      · cases h
        simpa only [String.toList_ofList] using List.take_prefix _ _
      · cases h
    · cases h
  · cases h

/-- Without its first inner backlog folder a key has fewer letters. -/
theorem Key.count_withoutBacklog {key : String} (h : holdsText "/_backlog/" key = true) :
    (withoutBacklog key).toList.count 'b' < key.toList.count 'b' := by
  obtain ⟨⟨before, after⟩, hcut⟩ := Option.isSome_iff_exists.1 h
  have hparts : withoutBacklog key = String.ofList before ++ "/" ++ String.ofList after := by
    simp only [withoutBacklog, cutText?, hcut, Option.map_some]
  rw [hparts, Text.cut?_eq_some hcut]
  simp only [String.toList_append, String.toList_ofList, List.count_append]
  have hslash : "/".toList.count 'b' = 0 := by decide
  have hfolder : "/_backlog/".toList.count 'b' = 1 := by decide
  omega

theorem Context.eq_of_ofSettings {settings : Settings} {bucket : String} {patience : Nat} {ctx : Context}
    (h : ofSettings settings bucket patience = .ok ctx) :
    ∃ keys : KeyPattern, ctx = ⟨settings, .withResolver keys.resolve settings, bucket, patience⟩ := by
  unfold ofSettings Layout.ofSettings at h
  cases hkeys : settings.validate with
  | error e =>
    rw [hkeys] at h
    cases h
  | ok keys =>
    rw [hkeys] at h
    cases h
    exact ⟨keys, rfl⟩

/-- The context of some valid settings. -/
def Context.IsValid (ctx : Context) : Prop := ∃ settings bucket patience, ofSettings settings bucket patience = .ok ctx

/-- Neither of two tables lies in the backlog folder of the other. -/
structure Apart (tablePrefix other : String) : Prop where
  outside : startsWith (Backlog.folder tablePrefix) (other ++ "/") = false
  around : startsWith (Backlog.folder other) (tablePrefix ++ "/") = false

namespace Backlog

variable {tablePrefix : String}

/-- No pointer stands at the prefix of a table that lies in no backlog folder. -/
theorem ne_join_of_startsWith (htable : Key.isBacklog (BackfillMarker.keyOf tablePrefix) = false)
    {key name other : String} (hname : '/' ∉ name.toList) (hkey : startsWith (folder other) key = true) :
    key ≠ Key.join tablePrefix name := by
  rintro rfl
  have hbacklog := (Key.isBacklog_join_iff _ hname).1 (isBacklog_of_startsWith hkey)
  rw [BackfillMarker.keyOf, (Key.isBacklog_join_iff _ (by decide)).2 hbacklog] at htable
  cases htable

theorem around_of_isBacklog (hne : tablePrefix ≠ "")
    (htable : Key.isBacklog (BackfillMarker.keyOf tablePrefix) = false) (other : String) :
    startsWith (folder other) (tablePrefix ++ "/") = false := by
  rw [← Bool.not_eq_true]
  intro hin
  have hroot : Key.root tablePrefix = (tablePrefix ++ "/").toList := by
    rw [Key.root, if_neg (by simpa using hne), String.toList_append]
    rfl
  have hbacklog := (Key.isBacklog_iff _).1 (isBacklog_of_startsWith hin)
  rw [← hroot] at hbacklog
  rw [BackfillMarker.keyOf, (Key.isBacklog_join_iff _ (by decide)).2 hbacklog] at htable
  cases htable

end Backlog

namespace Context.IsValid

variable {ctx : Context} {key tablePrefix other : String}

theorem prefix_of_destination (h : ctx.IsValid) {found : Destination}
    (hfound : ctx.layout.destination key = .ok found) :
    found.tablePrefix.toList <+: (Key.withoutBacklog key).toList := by
  obtain ⟨settings, bucket, patience, hctx⟩ := h
  obtain ⟨keys, rfl⟩ := eq_of_ofSettings hctx
  unfold Layout.destination at hfound
  cases hresolve : keys.resolve (Key.withoutBacklog key) with
  | error e =>
    simp only [Layout.withResolver, hresolve] at hfound
    cases hfound
  | ok resolved =>
    simp only [Layout.withResolver, hresolve] at hfound
    cases hfound
    have hprefix := KeyPattern.prefix_of_resolve hresolve
    exact hprefix

/-- **A backfill marker in a backlog folder starts no subscriber.**  Its directory is not the table prefix that it
belongs to, which is that of the key without the folder. -/
theorem holdsText_of_atTablePrefix? (h : ctx.IsValid) (hname : Key.name key = Key.backfillName)
    (htable : Dispatch.atTablePrefix? ctx.layout key = some tablePrefix) : holdsText "/_backlog/" key = false := by
  unfold Dispatch.atTablePrefix? at htable
  split at htable
  · rename_i found hfound
    split at htable
    · rename_i hdirectory
      have hprefix := (h.prefix_of_destination hfound).sublist.count_le 'b'
      rw [hdirectory] at hprefix
      by_contra hholds
      rw [Bool.not_eq_false] at hholds
      have hfewer := Key.count_withoutBacklog hholds
      -- the name of the marker has no such letter
      have hcount : key.toList.count 'b' = (Key.directory key).toList.count 'b' := by
        rcases Key.eq_directory_name key with hslash | ⟨hkey, -⟩
        · exact absurd ((holdsText_iff.1 hholds).subset (by decide)) hslash
        · rw [hname] at hkey
          conv_lhs => rw [hkey]
          simp only [String.toList_append, List.count_append]
          rfl
      omega
    · cases htable
  · cases htable

/-- The table of a subscriber does not lie in the backlog of another table. -/
theorem startsWith_of_atTablePrefix? (h : ctx.IsValid) (hname : Key.name key = Key.backfillName)
    (htable : Dispatch.atTablePrefix? ctx.layout key = some other) (hne : tablePrefix ≠ "") :
    startsWith (Backlog.folder tablePrefix) (other ++ "/") = false := by
  have hholds := h.holdsText_of_atTablePrefix? hname htable
  rw [← Bool.not_eq_true] at hholds ⊢
  intro hin
  refine hholds (holdsText_iff.2 ?_)
  have hfolder : "/_backlog/".toList <:+: (Backlog.folder tablePrefix).toList := by
    rw [Backlog.toList_folder_eq, Key.root, if_neg (by simpa using hne)]
    exact ⟨tablePrefix.toList, [], by simp⟩
  have hprefix : (other ++ "/").toList <+: key.toList := by
    have hdirectory := Dispatch.directory_of_atTablePrefix? htable
    rcases Key.eq_directory_name key with hslash | ⟨hkey, -⟩
    · -- without a slash the directory is empty, and no folder starts there
      have hempty : other = "" := by simpa [Key.directory, Key.cutTextLast?_slash_none hslash] using hdirectory.symm
      rw [hempty] at hin
      have := (List.isPrefixOf_iff_prefix.1 hin).length_le
      rw [Backlog.toList_folder_eq, List.length_append] at this
      exact absurd this (by simp)
    · rw [hdirectory] at hkey
      refine ⟨(Key.name key).toList, ?_⟩
      rw [← String.toList_append, ← hkey]
  exact hfolder.trans ((List.isPrefixOf_iff_prefix.1 hin).trans hprefix).isInfix

theorem apart (h : ctx.IsValid) (hname : Key.name key = Key.backfillName)
    (hother : Dispatch.atTablePrefix? ctx.layout key = some other) (hne : tablePrefix ≠ "")
    (htable : Key.isBacklog (BackfillMarker.keyOf tablePrefix) = false) : Apart tablePrefix other :=
  ⟨h.startsWith_of_atTablePrefix? hname hother hne, Backlog.around_of_isBacklog hne htable other⟩

end Context.IsValid

end Intake
