import Intake.Proofs.Attempt
import Intake.Proofs.Frozen
/-!
# Redelivery — a marker is worked on once

However often a success marker that is not rewritten is notified of, and whatever happens in between, its claim is
created once, because nothing that the engine does deletes a claim.  A delivery that did not create it has left
everything as it was, and returns that it is a duplicate.
-/
namespace Intake

/-- The call does not delete the object under a key. -/
def CloudCall.Leaves (key : String) : CloudCall → Prop
  | .delete asked _ => asked ≠ key
  | _ => True

/-- The call left everything as it was. -/
def Deed.Inert (deed : Deed) : Prop :=
  ∀ site site' : Site, site.store = deed.store → Site.Answers deed.call site deed.reply site' → site' = site

/-- The call submits a job, or writes a pointer into a backlog. -/
def CloudCall.goesOn : CloudCall → Bool
  | .submit _ => true
  | .put key _ _ => Key.isBacklog key
  | _ => false

theorem Site.Answers.isSome_of_leaves {c : CloudCall} {site site' : Site} {reply : c.Reply} {key : String}
    (h : Answers c site reply site') (hc : c.Leaves key) (hthere : (site.store.get? key).isSome = true) :
    (site'.store.get? key).isSome = true := by
  obtain hsame | ⟨body, precondition, now, -, -, rfl⟩ | ⟨precondition, rfl, -⟩ := h.get?_cases key
  · rw [hsame]
    exact hthere
  · simp
  · exact absurd rfl hc

theorem Invocation.Gated.plain {α : Type} {marker : String} {x : Invocation α} (h : x.Gated marker) :
    Program.Gated marker x.plain := by
  refine Program.Gated.bind (fun e => ?_) h
  rfl

namespace Redelivery

open Pool (Stand)

/-- A notification is handled, or somebody else does something. -/
inductive Errand where
  | handle (notice : Notice)
  | other (program : CloudProgram (Except Failure Unit))

def Errand.Delivers (marker : String) : Errand → Prop
  | .handle notice => Dispatch.triggerOf notice.ctx.layout notice.notification = .successMarker ∧
    notice.notification.key = marker
  | .other _ => False

/-- **Any notifications, and whatever others do**, as long as nobody else deletes the claim. -/
def rules (claim : String) : Rules Errand where
  program
    | .handle notice => (Dispatch.handle notice.ctx notice.notification).plain
    | .other program => program
  allows
    | .handle _ => True
    | .other program => Program.Only (I := Cloud) (CloudCall.Leaves claim) program
  outside key := key ≠ claim
  replies _ _ _ _ := True

/-! ## Nothing deletes a claim -/

section Leaves

variable {marker : String} {created : Timestamp} {c : CloudCall}

theorem leaves_of_isModest {tablePrefix : String} (h : c.IsModest tablePrefix) :
    c.Leaves (Claim.key marker created) := by
  cases c with
  | delete key =>
    obtain rfl := h
    exact (Claim.key_ne_backfill _ _ _).symm
  | _ => trivial

theorem leaves_of_isClaiming (h : c.IsClaiming) : c.Leaves (Claim.key marker created) := by
  cases c <;> trivial

theorem leaves_of_isOwn {jobPrefix tablePrefix : String} {log : List Deed} (hmarker : Key.isBacklog marker = false)
    (h : c.IsOwn jobPrefix tablePrefix log) : c.Leaves (Claim.key marker created) := by
  cases c with
  | delete key =>
    rcases h with rfl | rfl | hpopped
    · exact (Claim.key_ne_lock _ _ _).symm
    · exact (Claim.key_ne_backfill _ _ _).symm
    · rintro rfl
      rw [Claim.isBacklog_key (Backlog.isBacklog_of_startsWith hpopped.startsWith)] at hmarker
      cases hmarker
  | _ => trivial

/-- **No notification deletes the claim on a marker** that lies in no backlog. -/
def handling (hmarker : Key.isBacklog marker = false) (created : Timestamp) (notice : Notice) :
    Dispatch.Handling (Stand.among (fun _ _ => True) (fun _ => True) fun c _ => c.Leaves (Claim.key marker created))
      notice.ctx notice.notification where
  Before _ := True
  passive hc _ _ _ := leaves_of_isClaiming hc.isLoading.isClaiming
  looks _ _ _ := trivial
  takes _ _ := (Claim.claiming_take _).keeps_all fun hc _ _ _ => leaves_of_isClaiming hc
  loads _ := .any fun hc _ _ _ => leaves_of_isClaiming hc.isClaiming
  pushes _ _ _ _ _ := trivial
  clears _ _ _ _ := leaves_of_isModest rfl
  posts _ := (BackfillMarker.posting_post _).free.modest.keeps_all fun hc _ _ _ => leaves_of_isModest hc
  runs _ _ _ := (Pop.outline _ _ fun _ _ hc => leaves_of_isOwn hmarker hc).keeps_run trivial

def discipline (hmarker : Key.isBacklog marker = false) (created : Timestamp) :
    Pool.Discipline (rules (Claim.key marker created)) :=
  .ofCalls (fun _ c _ => c.Leaves (Claim.key marker created)) fun {errand _} hallows => by
    cases errand with
    | handle notice => exact ((handling hmarker created notice).keeps_handle trivial).plain
    | other program =>
      exact Program.Only.keeps (fun c _ hc _ _ _ _ => hc) (fun _ _ _ _ _ _ _ => trivial) hallows trivial

end Leaves

/-! ## How a delivery stands -/

section Stage

variable {marker claim : String} {program : CloudProgram (Except Failure Unit)} {log : List Deed}

/-- The claim was created. -/
def Taken (claim : String) (log : List Deed) : Prop :=
  ∃ store version, ⟨store, .put claim [] .absent, .ok (.written version)⟩ ∈ log

/-- The claim was there already. -/
def Refused (claim : String) (log : List Deed) : Prop :=
  ∃ store current, ⟨store, .put claim [] .absent, .ok (.conflict current)⟩ ∈ log

/-- The call only looked, or did not get the claim. -/
def Fruitless (claim : String) (deed : Deed) : Prop :=
  deed.call.IsPassive ∨ ∃ store reply, deed = ⟨store, .put claim [] .absent, reply⟩ ∧
    ∀ version, reply ≠ .ok (.written version)

theorem Fruitless.inert {deed : Deed} (h : Fruitless claim deed) : deed.Inert := by
  intro site site' _ hanswers
  rcases h with hpassive | ⟨store, reply, rfl, hunwritten⟩
  · exact hanswers.eq_of_isPassive hpassive
  · obtain ⟨rfl, -⟩ | ⟨hwritten, -⟩ := hanswers.put_cases
    · rfl
    · exact absurd hwritten (hunwritten _)

/-- **How a delivery stands**, by what it has left to do and the calls it has made. -/
inductive Stage (marker claim : String) (program : CloudProgram (Except Failure Unit)) (log : List Deed) : Prop where
  | looking (hgated : program.Gated marker) (hlog : ∀ deed ∈ log, deed.call.IsPassive)
  | claiming (info : ObjectInfo) (hclaim : Claim.key info.key info.created = claim) (hclaims : program.Claims info)
    (hlog : ∀ deed ∈ log, deed.call.IsPassive)
  | ending (e : Failure) (hends : program.Ends (.error e)) (hlog : ∀ deed ∈ log, Fruitless claim deed)
    (hrefused : Refused claim log → e = .duplicate claim)
  | past (htaken : Taken claim log)

theorem not_refused_of_passive (h : ∀ deed ∈ log, deed.call.IsPassive) : ¬ Refused claim log := by
  rintro ⟨store, current, hmem⟩
  exact h _ hmem

/-- A delivery that did not get the claim has changed nothing, and if it was there already ends as a duplicate. -/
theorem Stage.of_not_taken (h : Stage marker claim program log) (htaken : ¬ Taken claim log) :
    (∀ deed ∈ log, Fruitless claim deed) ∧ (Refused claim log → program.Ends (.error (.duplicate claim))) := by
  cases h with
  | looking hgated hlog =>
    exact ⟨fun deed hdeed => .inl (hlog deed hdeed), fun h => absurd h (not_refused_of_passive hlog)⟩
  | claiming info hclaim hclaims hlog =>
    exact ⟨fun deed hdeed => .inl (hlog deed hdeed), fun h => absurd h (not_refused_of_passive hlog)⟩
  | ending e hends hlog hrefused => exact ⟨hlog, fun h => hrefused h ▸ hends⟩
  | past h => exact absurd h htaken

/-- What is seen of the marker is what was created at that time, and the claim is on that. -/
theorem claim_of_sighting {info : ObjectInfo} {c : CloudCall} {reply : c.Reply} {site site' : Site}
    (hsighting : Program.Sighting marker info c reply) (hanswers : Site.Answers c site reply site')
    (hmarker : ∀ object, site.store.get? marker = some object → Claim.key marker object.created = claim) :
    Claim.key info.key info.created = claim := by
  cases hsighting
  obtain hreply | ⟨fault, e, -⟩ := hanswers.reply?_eq trivial
  · have hhead : site.store.head? marker = some info := Except.ok.inj (Option.some.inj hreply)
    obtain ⟨object, hobject, rfl⟩ := Option.map_eq_some_iff.1 hhead
    exact hmarker object hobject
  · cases e

/-- **A delivery goes on from stage to stage.** -/
theorem Stage.call {c : CloudCall} {next : c.Reply → CloudProgram (Except Failure Unit)} {reply : c.Reply}
    {site site' : Site} (h : Stage marker claim (Program.ask c next) log) (hanswers : Site.Answers c site reply site')
    (hmarker : ∀ object, site.store.get? marker = some object → Claim.key marker object.created = claim) :
    Stage marker claim (next reply) (log ++ [⟨site.store, c, reply⟩]) := by
  cases h with
  | looking hgated hlog =>
    have hlog' : ∀ deed ∈ log ++ [⟨site.store, c, reply⟩], deed.call.IsPassive :=
      List.forall_mem_append.2 ⟨hlog, List.forall_mem_singleton.2 hgated.1⟩
    -- it goes on looking, or what it has just seen of the marker is what it claims next
    rcases hgated.2 reply with hgated | ⟨info, hsighting, hclaims⟩
    · exact .looking hgated hlog'
    · exact .claiming info (claim_of_sighting hsighting hanswers hmarker) hclaims hlog'
  | claiming info hclaim hclaims hlog =>
    obtain ⟨after, hprogram, hconflict, hfault⟩ := hclaims
    cases hprogram
    rw [hclaim] at hconflict
    have hidle : ∀ result : Except StoreFault PutResult, (∀ version, result ≠ .ok (.written version)) →
        ∀ deed ∈ log ++ [⟨site.store, .put (Claim.key info.key info.created) [] .absent, result⟩], Fruitless claim deed := by
      intro result hunwritten
      refine List.forall_mem_append.2 ⟨fun deed hdeed => .inl (hlog deed hdeed), List.forall_mem_singleton.2 ?_⟩
      exact .inr ⟨_, result, by rw [hclaim], hunwritten⟩
    -- only a claim that was written takes it past
    match reply with
    | .ok (.written version) =>
      refine .past ⟨site.store, version, ?_⟩
      rw [hclaim]
      exact List.mem_append_right _ (List.mem_singleton_self _)
    | .ok (.conflict current) => exact .ending _ (hconflict current) (hidle _ nofun) fun _ => rfl
    | .error fault =>
      refine .ending _ (hfault fault) (hidle _ nofun) ?_
      rintro ⟨store, current, hmem⟩
      rcases List.mem_append.1 hmem with hmem | hmem
      · exact absurd (hlog _ hmem) id
      · rw [hclaim] at hmem
        cases List.mem_singleton.1 hmem
  | ending e hends hlog hrefused =>
    obtain ⟨⟨metric, rfl⟩, hnext⟩ := hends
    refine .ending e (hnext reply) (List.forall_mem_append.2 ⟨hlog, List.forall_mem_singleton.2 (.inl trivial)⟩) ?_
    rintro ⟨store, current, hmem⟩
    rcases List.mem_append.1 hmem with hmem | hmem
    · exact hrefused ⟨store, current, hmem⟩
    · cases List.mem_singleton.1 hmem
  | past htaken =>
    obtain ⟨store, version, hmem⟩ := htaken
    exact .past ⟨store, version, List.mem_append_left _ hmem⟩

theorem not_taken_nil : ¬ Taken claim [] := by
  rintro ⟨store, version, hmem⟩
  cases hmem

/-- The claim was created before the last call, or by it, and then was not there before. -/
theorem taken_call {c : CloudCall} {reply : c.Reply} {site site' : Site} (hanswers : Site.Answers c site reply site')
    (h : Taken claim (log ++ [⟨site.store, c, reply⟩])) :
    Taken claim log ∨ site.store.get? claim = none ∧ (site'.store.get? claim).isSome = true := by
  obtain ⟨store, version, hmem⟩ := h
  rcases List.mem_append.1 hmem with hmem | hmem
  · exact .inl ⟨store, version, hmem⟩
  · cases List.mem_singleton.1 hmem
    obtain ⟨-, hunwritten⟩ | ⟨-, hfree, now, rfl⟩ := hanswers.put_cases
    · exact absurd rfl (hunwritten version)
    · exact .inr ⟨Store.eq_none_of_refuses?_absent hfree, by simp⟩

end Stage

/-! ## Many deliveries -/

section Deliveries

variable {marker : String} {created : Timestamp} {pool pool' : Pool Errand}

/-- The marker is not rewritten: what is there was created at this time. -/
def Lasting (marker : String) (created : Timestamp) (pool : Pool Errand) : Prop :=
  ∀ object, pool.site.store.get? marker = some object → object.created = created

/-- **What is true of many deliveries of a marker**: each stands somewhere, and the claim is there from the time that
one of them has created it. -/
structure Sound (marker claim : String) (pool : Pool Errand) : Prop where
  stage : ∀ member ∈ pool.members, member.errand.Delivers marker → Stage marker claim member.program member.log
  held : ∀ member ∈ pool.members, Taken claim member.log → (pool.site.store.get? claim).isSome = true
  single : ∀ (i j : Nat) (a b : Member Errand), pool.members[i]? = some a → pool.members[j]? = some b →
    Taken claim a.log → Taken claim b.log → i = j

theorem Sound.join {claim : String} {errand : Errand} {clock : Duration} (h : Sound marker claim pool) :
    Sound marker claim
      { pool with members := pool.members ++ [⟨errand, (rules claim).program errand, clock, []⟩] } where
  stage member hmember hdelivers := by
    rcases List.mem_append.1 hmember with hmember | hmember
    · exact h.stage member hmember hdelivers
    · obtain rfl := List.mem_singleton.1 hmember
      cases errand with
      | handle notice =>
        obtain ⟨htrigger, rfl⟩ := hdelivers
        exact .looking (Dispatch.gated_handle htrigger).plain (by simp)
      | other program => exact hdelivers.elim
  held member hmember htaken := by
    rcases List.mem_append.1 hmember with hmember | hmember
    · exact h.held member hmember htaken
    · rw [List.mem_singleton.1 hmember] at htaken
      exact absurd htaken not_taken_nil
  single i j a b hi hj ha hb := by
    obtain hi | ⟨-, rfl⟩ := Pool.member_of_join hi
    · obtain hj | ⟨-, rfl⟩ := Pool.member_of_join hj
      · exact h.single i j a b hi hj ha hb
      · exact absurd hb not_taken_nil
    · exact absurd ha not_taken_nil

theorem Sound.call {claim : String} {i : Nat} {member : Member Errand} {c : CloudCall}
    {next : c.Reply → CloudProgram (Except Failure Unit)} {reply : c.Reply} {site : Site} {clock : Duration}
    (h : Sound marker claim pool)
    (hmarker : ∀ object, pool.site.store.get? marker = some object → Claim.key marker object.created = claim)
    (hmember : pool.members[i]? = some member) (hnext : member.program = Program.ask c next) (hleaves : c.Leaves claim)
    (hanswers : Site.Answers c pool.site reply site) :
    Sound marker claim ⟨site, clock, pool.members.set i
      ⟨member.errand, next reply, clock, member.log ++ [⟨pool.site.store, c, reply⟩]⟩⟩ where
  stage other hother hdelivers := by
    rcases List.mem_or_eq_of_mem_set hother with hother | rfl
    · exact h.stage other hother hdelivers
    · have hstage := h.stage member (List.mem_of_getElem? hmember) hdelivers
      rw [hnext] at hstage
      exact hstage.call hanswers hmarker
  held other hother htaken := by
    rcases List.mem_or_eq_of_mem_set hother with hother | rfl
    · exact hanswers.isSome_of_leaves hleaves (h.held other hother htaken)
    · obtain htaken | ⟨-, hthere⟩ := taken_call hanswers htaken
      · exact hanswers.isSome_of_leaves hleaves (h.held member (List.mem_of_getElem? hmember) htaken)
      · exact hthere
  single j k a b hj hk ha hb := by
    -- whoever has just created the claim is the first
    have hfirst : ∀ {k : Nat} {b : Member Errand}, pool.members[k]? = some b → Taken claim b.log →
        Taken claim (member.log ++ [⟨pool.site.store, c, reply⟩]) → i = k := by
      intro k b hk hb hcaller
      obtain hcaller | ⟨hnone, -⟩ := taken_call hanswers hcaller
      · exact h.single i k member b hmember hk hcaller hb
      · have hheld := h.held b (List.mem_of_getElem? hk) hb
        rw [hnone] at hheld
        cases hheld
    obtain ⟨rfl, rfl⟩ | ⟨-, hj⟩ := Pool.member_of_call hj <;> obtain ⟨rfl, rfl⟩ | ⟨-, hk⟩ := Pool.member_of_call hk
    · rfl
    · exact hfirst hk hb ha
    · exact (hfirst hj ha hb).symm
    · exact h.single j k a b hj hk ha hb

theorem Sound.move {claim : String} {site : Site} {clock : Duration} (h : Sound marker claim pool)
    (hheld : (pool.site.store.get? claim).isSome = true → (site.store.get? claim).isSome = true) :
    Sound marker claim ⟨site, clock, pool.members⟩ :=
  ⟨h.stage, fun member hmember htaken => hheld (h.held member hmember htaken), h.single⟩

/-- **Whatever happens next, the deliveries stay as they should be.** -/
theorem Sound.step {hmarker : Key.isBacklog marker = false} (horderly : pool.Orderly (discipline hmarker created))
    (hstep : Pool.Step (rules (Claim.key marker created)) pool pool') (hlasting : Lasting marker created pool)
    (h : Sound marker (Claim.key marker created) pool) : Sound marker (Claim.key marker created) pool' := by
  cases hstep with
  | join => exact h.join
  | call hmember hnext hanswers =>
    have hleaves := horderly.ok_next (List.mem_of_getElem? hmember) hnext
    exact h.call (fun object hobject => by rw [hlasting object hobject]) hmember hnext hleaves hanswers
  | pass => exact h.move id
  | write body now hkey => exact h.move fun hthere => by rwa [Store.get?_write_of_ne _ _ _ (Ne.symm hkey)]
  | remove hkey => exact h.move fun hthere => by rwa [Store.get?_remove_of_ne _ (Ne.symm hkey)]

theorem isBacklog_of_delivers {errand : Errand} (h : errand.Delivers marker) : Key.isBacklog marker = false := by
  cases errand with
  | handle notice =>
    obtain ⟨htrigger, rfl⟩ := h
    exact Dispatch.isBacklog_of_successMarker htrigger
  | other program => exact h.elim

theorem Sound.taken_of_goesOn {claim : String} (h : Sound marker claim pool) {member : Member Errand}
    (hmember : member ∈ pool.members) (hdelivers : member.errand.Delivers marker) {deed : Deed}
    (hdeed : deed ∈ member.log) (hgoes : deed.call.goesOn = true) (hclaim : Key.isBacklog claim = false) : Taken claim member.log := by
  by_contra htaken
  rcases ((h.stage member hmember hdelivers).of_not_taken htaken).1 deed hdeed with hpassive | ⟨store, reply, rfl, -⟩
  · obtain ⟨store, call, reply⟩ := deed
    cases call <;> first | exact hpassive | cases hgoes
  · rw [CloudCall.goesOn, hclaim] at hgoes
    cases hgoes

/-- **A marker is worked on once.**  However many notifications of a success marker are handled that is not rewritten,
along with any others, and whatever else happens between any two calls, only one of them submits jobs or writes a
pointer.  All that do not create the claim leave everything as it was; if it was there already nothing is left to do but
to return that this is a duplicate. -/
theorem worked_on_once {start : Pool Errand} (hmembers : start.members = []) (hlasting : Lasting marker created start)
    (hrun : Pool.Run (rules (Claim.key marker created)) (Lasting marker created) start pool) :
    (∀ (i j : Nat) (a b : Member Errand), pool.members[i]? = some a → pool.members[j]? = some b →
      a.errand.Delivers marker → b.errand.Delivers marker → (∃ deed ∈ a.log, deed.call.goesOn = true) →
      (∃ deed ∈ b.log, deed.call.goesOn = true) → i = j) ∧
    ∀ member ∈ pool.members, member.errand.Delivers marker → ¬ Taken (Claim.key marker created) member.log →
      (∀ deed ∈ member.log, deed.Inert) ∧ (Refused (Claim.key marker created) member.log →
        member.program.Ends (.error (.duplicate (Claim.key marker created)))) := by
  have hsound : Key.isBacklog marker = false → Sound marker (Claim.key marker created) pool := by
    intro hmarker
    have hstart : Sound marker (Claim.key marker created) start := by
      constructor <;> simp [hmembers]
    have hstep := Pool.Discipline.run (d := discipline hmarker created)
      (fun pool => Lasting marker created pool ∧ Sound marker (Claim.key marker created) pool) trivial hmembers
      (fun horderly hstep hlasting' h => ⟨hlasting', h.2.step horderly hstep h.1⟩) hrun ⟨hlasting, hstart⟩
    exact hstep.2
  have hclaim : Key.isBacklog marker = false → Key.isBacklog (Claim.key marker created) = false := by
    intro hmarker
    by_contra hbacklog
    rw [Bool.not_eq_false] at hbacklog
    rw [Claim.isBacklog_key hbacklog] at hmarker
    cases hmarker
  refine ⟨?_, fun member hmember hdelivers htaken => ?_⟩
  · rintro i j a b hi hj hda hdb ⟨deed, hdeed, hgoes⟩ ⟨deed', hdeed', hgoes'⟩
    have hmarker := isBacklog_of_delivers hda
    have h := hsound hmarker
    exact h.single i j a b hi hj (h.taken_of_goesOn (List.mem_of_getElem? hi) hda hdeed hgoes (hclaim hmarker))
      (h.taken_of_goesOn (List.mem_of_getElem? hj) hdb hdeed' hgoes' (hclaim hmarker))
  · obtain ⟨hidle, hrefused⟩ :=
      ((hsound (isBacklog_of_delivers hdelivers)).stage member hmember hdelivers).of_not_taken htaken
    exact ⟨fun deed hdeed => (hidle deed hdeed).inert, hrefused⟩

end Deliveries

/-! ## Two deliveries on the trial table -/

def creation? (claim : String) : Deed → Option PutResult
  | ⟨_, .put key [] .absent, .ok result⟩ => if key = claim then some result else none
  | _ => none

theorem creation?_put (claim : String) (store : Store) (result : PutResult) :
    creation? claim ⟨store, .put claim [] .absent, .ok result⟩ = some result := by
  simp [creation?]

theorem of_creation? {claim : String} {deed : Deed} {result : PutResult} (h : creation? claim deed = some result) :
    ∃ store, deed = ⟨store, .put claim [] .absent, .ok result⟩ := by
  unfold creation? at h
  split at h
  · split at h
    · rename_i hkey
      cases h
      exact ⟨_, by rw [hkey]⟩
    · cases h
  · cases h

def created : Timestamp := World.start.later (.ofMillis 2)

def claim : String := Claim.key "d/t/a/_SUCCESS" created

def atOnce : Errand := .handle ⟨Trial.context, ⟨"lake", "d/t/a/_SUCCESS", none⟩⟩

/-- The same marker is to be put into the backlog. -/
def inOrder : Errand :=
  .handle ⟨{ Trial.context with settings.alwaysOrdered := true }, ⟨"lake", "d/t/a/_SUCCESS", none⟩⟩

/-- The first delivery is about to claim the marker. -/
def arriving : CloudProgram (Except Failure Unit) × World := (Trial.table []).runFor 7 ((rules claim).program atOnce)

/-- The second one claims it and puts it into the backlog. -/
def overtaking : CloudProgram (Except Failure Unit) × World := arriving.2.runFor 5 ((rules claim).program inOrder)

/-- The first one finds the claim there. -/
def late : CloudProgram (Except Failure Unit) × World := overtaking.2.runFor 2 arriving.1

def isLasting (store : Store) : Bool := (store.get? "d/t/a/_SUCCESS").all (·.created = created)

theorem lasting_of_isLasting {pool : Pool Errand} (h : isLasting pool.site.store = true) :
    Lasting "d/t/a/_SUCCESS" created pool := by
  intro object hobject
  rw [isLasting, hobject] at h
  exact of_decide_eq_true h

/-- Of two deliveries the one that claims the marker first puts it into the backlog, and the other is a duplicate, which
was going to apply it at once. -/
theorem worked_on_once_race : ∃ (pool : Pool Errand) (first second : Member Errand), pool.members = [first, second] ∧
    first.errand = atOnce ∧ second.errand = inOrder ∧ (∃ deed ∈ second.log, deed.call.goesOn = true) ∧
    (¬ ∃ deed ∈ first.log, deed.call.goesOn = true) ∧ (∀ deed ∈ first.log, deed.Inert) ∧
    first.program.Ends (.error (.duplicate claim)) := by
  have habides : World.Abides (rules claim) fun _ => True := .of_all fun _ _ _ _ => trivial
  have hsteady : (Trial.table []).Steady (fun _ => True) 14 := Trial.steady_table _ trivial (by decide)
  -- the second delivery comes before the first one has claimed the marker
  have hwithin : ∀ pool : Pool Errand, isLasting pool.site.store = true → Lasting "d/t/a/_SUCCESS" created pool :=
    fun _ => lasting_of_isLasting
  obtain ⟨since₁, log₁, hsteady₁, hsince₁, hlog₁, hrun₁⟩ := World.run_runFor (Lasting "d/t/a/_SUCCESS" created) hwithin
    habides hsteady (show 7 ≤ 14 by decide) (by decide +kernel) arriving.eq_1 (Nat.le_refl _) atOnce [] [] []
  obtain ⟨since₂, log₂, hsteady₂, hsince₂, hlog₂, hrun₂⟩ := World.run_runFor (Lasting "d/t/a/_SUCCESS" created) hwithin
    habides hsteady₁ (show 5 ≤ 14 - 7 by decide) (by decide +kernel) overtaking.eq_1 (Nat.le_refl _) inOrder []
    [⟨atOnce, arriving.1, since₁, log₁⟩] []
  obtain ⟨since₃, log₃, -, -, hlog₃, hrun₃⟩ := World.run_runFor (Lasting "d/t/a/_SUCCESS" created) hwithin
    habides hsteady₂ (show 2 ≤ 14 - 7 - 5 by decide) (by decide +kernel) late.eq_1
    (Nat.le_trans hsince₁ (World.elapsed_le_runFor overtaking.eq_1)) atOnce log₁ [] [⟨inOrder, overtaking.1, since₂, log₂⟩]
  have hlasting : Lasting "d/t/a/_SUCCESS" created ⟨(Trial.table []).site, (Trial.table []).elapsed, []⟩ :=
    lasting_of_isLasting (by decide +kernel)
  have hlasting₁ : Lasting "d/t/a/_SUCCESS" created ⟨arriving.2.site, arriving.2.elapsed, []⟩ :=
    lasting_of_isLasting (by decide +kernel)
  have hjoin₁ : Pool.Step (rules claim) ⟨(Trial.table []).site, (Trial.table []).elapsed, []⟩ _ :=
    .join (show (rules claim).allows atOnce from trivial)
  have hjoin₂ : Pool.Step (rules claim) ⟨arriving.2.site, arriving.2.elapsed, [⟨atOnce, arriving.1, since₁, log₁⟩]⟩ _ :=
    .join (show (rules claim).allows inOrder from trivial)
  have hrun : Pool.Run (rules claim) (Lasting "d/t/a/_SUCCESS" created) _ _ :=
    ((Relation.ReflTransGen.head ⟨hjoin₁, hlasting⟩ hrun₁).tail ⟨hjoin₂, hlasting₁⟩).trans (hrun₂.trans hrun₃)
  obtain ⟨hsingle, hothers⟩ := worked_on_once rfl hlasting hrun
  let first : Member Errand := ⟨atOnce, late.1, since₃, log₃⟩
  let second : Member Errand := ⟨inOrder, overtaking.1, since₂, log₂⟩
  have hfirst : first.errand.Delivers "d/t/a/_SUCCESS" := ⟨by decide +kernel, rfl⟩
  have hsecond : second.errand.Delivers "d/t/a/_SUCCESS" := ⟨by decide +kernel, rfl⟩
  have hlog : log₃ =
      (Trial.table []).deedsFor 7 ((rules claim).program atOnce) ++ overtaking.2.deedsFor 2 arriving.1 := by
    rw [hlog₃, hlog₁, List.nil_append]
  have hrefused : Refused claim log₃ := by
    have hany : ∃ deed ∈ log₃, creation? claim deed = some (.conflict "7") := by
      rw [hlog]
      decide +kernel
    obtain ⟨deed, hmem, hcreation⟩ := hany
    obtain ⟨store, rfl⟩ := of_creation? hcreation
    exact ⟨store, "7", hmem⟩
  have htaken : ¬ Taken claim log₃ := by
    have hall : ∀ deed ∈ log₃, creation? claim deed ∈ [none, some (.conflict "7")] := by
      rw [hlog]
      decide +kernel
    rintro ⟨store, version, hmem⟩
    have hcreation := hall _ hmem
    rw [creation?_put] at hcreation
    simp at hcreation
  have hgoes : ∃ deed ∈ log₂, deed.call.goesOn = true := by
    rw [hlog₂, List.nil_append]
    decide +kernel
  obtain ⟨hinert, hends⟩ := hothers first List.mem_cons_self hfirst htaken
  refine ⟨⟨late.2.site, late.2.elapsed, [first, second]⟩, first, second, rfl, rfl, rfl, hgoes, fun hgoes' => ?_, hinert,
    hends hrefused⟩
  exact absurd (hsingle 0 1 first second rfl rfl hfirst hsecond hgoes' hgoes) (by decide)

end Redelivery
end Intake
