import Intake.Proofs.Pool
import Intake.Sandbox.World
/-!
# Trial — the sandbox is one of the surroundings

Whatever the sandbox answers is something that may come of the call (`World.answers`), as long as nobody else has
anything planned and the ids have not run out.  So a trial there is one of the runs that the theory is about.
-/
namespace Intake

/-! ## The ids of the sandbox -/

theorem toList_paddedHex (width n : Nat) : (paddedHex width n).toList =
    List.replicate (width - (Nat.toDigits 16 n).length) '0' ++ Nat.toDigits 16 n := by
  simp [paddedHex]

theorem toList_paddedHex_succ (width n : Nat) :
    (paddedHex (width + 2) n).toList = (paddedHex (width + 1) (n / 16)).toList ++ [(n % 16).digitChar] := by
  rw [toList_paddedHex, toList_paddedHex, Nat.toDigits_eq_if (by omega : 1 < 16)]
  split
  · rename_i h
    rw [Nat.div_eq_of_lt h, Nat.mod_eq_of_lt h, Nat.toDigits_zero]
    simp [List.replicate_succ']
  · rw [List.length_append, List.length_singleton, List.append_assoc]
    congr 2
    omega

theorem toList_paddedHex_one {n : Nat} (h : n < 16) : (paddedHex 1 n).toList = [n.digitChar] := by
  rw [toList_paddedHex, Nat.toDigits_of_lt_base h]
  rfl

theorem length_paddedHex (width : Nat) {n : Nat} (h : n < 16 ^ (width + 1)) :
    (paddedHex (width + 1) n).toList.length = width + 1 := by
  induction width generalizing n with
  | zero =>
    rw [toList_paddedHex_one (by simpa using h)]
    rfl
  | succ width ih =>
    rw [toList_paddedHex_succ, List.length_append, ih (by rw [Nat.pow_succ] at h; omega)]
    rfl

theorem isHexDigit_digitChar : ∀ d < 16, JobId.isHexDigit (Nat.digitChar d) = true := by decide

theorem isHexDigit_of_mem_paddedHex (width : Nat) {n : Nat} {c : Char} (h : n < 16 ^ (width + 1))
    (hc : c ∈ (paddedHex (width + 1) n).toList) : JobId.isHexDigit c = true := by
  induction width generalizing n with
  | zero =>
    have hn : n < 16 := by simpa using h
    rw [toList_paddedHex_one hn, List.mem_singleton] at hc
    rw [hc]
    exact isHexDigit_digitChar n hn
  | succ width ih =>
    rw [toList_paddedHex_succ, List.mem_append, List.mem_singleton] at hc
    rcases hc with hc | rfl
    · exact ih (by rw [Nat.pow_succ] at h; omega) hc
    · exact isHexDigit_digitChar _ (Nat.mod_lt _ (by omega))

theorem digitChar_inj : ∀ d < 16, ∀ e < 16, Nat.digitChar d = Nat.digitChar e → d = e := by decide

theorem paddedHex_inj (width : Nat) {n m : Nat} (hn : n < 16 ^ (width + 1)) (hm : m < 16 ^ (width + 1))
    (h : (paddedHex (width + 1) n).toList = (paddedHex (width + 1) m).toList) : n = m := by
  induction width generalizing n m with
  | zero =>
    have hn : n < 16 := by simpa using hn
    have hm : m < 16 := by simpa using hm
    rw [toList_paddedHex_one hn, toList_paddedHex_one hm] at h
    exact digitChar_inj n hn m hm (List.singleton_inj.1 h)
  | succ width ih =>
    rw [toList_paddedHex_succ, toList_paddedHex_succ] at h
    rw [Nat.pow_succ] at hn hm
    obtain ⟨hfront, hlast⟩ := List.append_inj' h rfl
    have hdiv := ih (by omega) (by omega) hfront
    have hmod := digitChar_inj _ (Nat.mod_lt n (by omega)) _ (Nat.mod_lt m (by omega)) (List.singleton_inj.1 hlast)
    omega

namespace World

theorem toList_idOf (n : Nat) : (idOf n).toList = "00000000000040008000".toList ++ (paddedHex 12 n).toList := by
  unfold idOf
  exact String.toList_append

theorem isSuffix_idOf {n : Nat} (h : n < 16 ^ 12) : JobId.IsSuffix (idOf n) := by
  have hhex : ∀ c ∈ (idOf n).toList, JobId.isHexDigit c = true := by
    intro c hc
    rw [toList_idOf] at hc
    rcases List.mem_append.1 hc with hc | hc
    · exact List.all_eq_true.1 (by decide : "00000000000040008000".toList.all JobId.isHexDigit = true) c hc
    · exact isHexDigit_of_mem_paddedHex 11 h hc
  refine ⟨?_, List.all_eq_true.2 hhex⟩
  rw [utf8ByteSize_of_ascii fun c hc => JobId.utf8Size_of_isHexDigit (hhex c hc), toList_idOf, List.length_append,
    length_paddedHex 11 h]
  rfl

theorem idOf_inj {n m : Nat} (hn : n < 16 ^ 12) (hm : m < 16 ^ 12) (h : idOf n = idOf m) : n = m := by
  have hlist := toList_idOf n
  rw [h, toList_idOf m] at hlist
  exact (paddedHex_inj 11 hm hn (List.append_cancel_left hlist)).symm

/-- The first ids that are drawn, the latest in front. -/
def idsUpTo : Nat → List String
  | 0 => []
  | n + 1 => idOf (n + 1) :: idsUpTo n

theorem exists_of_mem_idsUpTo {id : String} {n : Nat} (h : id ∈ idsUpTo n) : ∃ m ≤ n, id = idOf m := by
  induction n with
  | zero => cases h
  | succ n ih =>
    rcases List.mem_cons.1 h with rfl | h
    · exact ⟨n + 1, Nat.le_refl _, rfl⟩
    · obtain ⟨m, hm, rfl⟩ := ih h
      exact ⟨m, by omega, rfl⟩

/-! ## What the sandbox answers -/

/-- The site that a sandbox is. -/
def site (w : World) : Site := ⟨w.bucket.store, w.warehouse.accepted, idsUpTo w.idsDrawn⟩

/-- Nobody else has anything planned, and the warehouse knows the jobs that it has accepted. -/
structure Calm (w : World) : Prop where
  planned : w.planned = []
  known : ∀ id, (Fields.get? id w.warehouse.jobs).isSome = true ↔ id ∈ w.site.ids

variable {w : World}

theorem isNotFound_of_fault? {b : Bucket} {key : String} {fault : StoreFault} (h : b.fault? key = some fault) :
    fault.isNotFound = false := by
  unfold Bucket.fault? at h
  split at h
  · cases h
    rfl
  · cases h

theorem answers_get (key : String) :
    Site.Answers (.get key) w.site (answer (.get key) w).1 (answer (.get key) w).2.site := by
  simp only [answer, Bucket.get]
  cases hfault : w.bucket.fault? key with
  | some fault => exact ⟨rfl, .inr ⟨fault, rfl, isNotFound_of_fault? hfault⟩⟩
  | none =>
    refine ⟨?_, .inl ?_⟩
    · cases w.bucket.store.get? key <;> rfl
    · have hstore : w.site.store = w.bucket.store := rfl
      simp only [Store.reply?, hstore]
      cases w.bucket.store.get? key <;> rfl

theorem answers_head (key : String) :
    Site.Answers (.head key) w.site (answer (.head key) w).1 (answer (.head key) w).2.site := by
  simp only [answer, Bucket.head]
  cases hfault : w.bucket.fault? key with
  | some fault => exact ⟨rfl, .inr ⟨fault, rfl, isNotFound_of_fault? hfault⟩⟩
  | none => exact ⟨rfl, .inl rfl⟩

theorem answers_list (start : String) (delimiter : Option String) :
    Site.Answers (.list start delimiter) w.site (answer (.list start delimiter) w).1
      (answer (.list start delimiter) w).2.site := by
  simp only [answer, Bucket.list]
  cases hfault : w.bucket.fault? start with
  | some fault => exact ⟨rfl, .inr ⟨fault, rfl, isNotFound_of_fault? hfault⟩⟩
  | none => exact ⟨rfl, .inl rfl⟩

theorem answers_put (key : String) (body : Octets) (precondition : Precondition) :
    Site.Answers (.put key body precondition) w.site (answer (.put key body precondition) w).1
      (answer (.put key body precondition) w).2.site := by
  simp only [answer, put, Bucket.put]
  cases hfault : w.bucket.fault? key with
  | some fault => exact .inl ⟨⟨fault, rfl, isNotFound_of_fault? hfault⟩, rfl⟩
  | none =>
    refine .inr ⟨w.instant, ?_⟩
    have hstore : w.site.store = w.bucket.store := rfl
    rw [hstore]
    rcases w.bucket.store.put_cases key body precondition w.instant with ⟨current, hput⟩ | ⟨-, hput⟩
    · rw [hput]
      exact ⟨rfl, rfl⟩
    · rw [hput]
      exact ⟨rfl, rfl⟩

theorem answers_delete (key : String) (precondition : Precondition) :
    Site.Answers (.delete key precondition) w.site (answer (.delete key precondition) w).1
      (answer (.delete key precondition) w).2.site := by
  simp only [answer, Bucket.delete]
  cases hfault : w.bucket.fault? key with
  | some fault => exact .inl ⟨⟨fault, rfl, isNotFound_of_fault? hfault⟩, rfl⟩
  | none => exact .inr ⟨rfl, rfl⟩

theorem answers_submit (hcalm : w.Calm) (job : Job) :
    Site.Answers (.submit job) w.site (answer (.submit job) w).1 (answer (.submit job) w).2.site := by
  simp only [answer, ScriptedWarehouse.submit]
  cases hreject : (w.warehouse.scriptOf job).reject with
  | some reason => exact .inl ⟨⟨_, rfl⟩, rfl⟩
  | none =>
    simp only
    split
    · exact .inl ⟨⟨_, rfl⟩, rfl⟩
    · rename_i hnew
      exact .inr ⟨fun hmem => hnew ((hcalm.known job.id).2 hmem), rfl⟩

theorem answers_freshId (hroom : w.idsDrawn + 1 < 16 ^ 12) :
    Site.Answers .freshId w.site (answer .freshId w).1 (answer .freshId w).2.site := by
  refine ⟨isSuffix_idOf hroom, fun hmem => ?_, rfl⟩
  obtain ⟨m, hm, heq⟩ := exists_of_mem_idsUpTo hmem
  have := idOf_inj hroom (by omega) heq
  omega

/-- **What the sandbox answers is something that may come of the call.** -/
theorem answers (hcalm : w.Calm) (hroom : w.idsDrawn + 1 < 16 ^ 12) (c : CloudCall) :
    Site.Answers c w.site (answer c w).1 (answer c w).2.site := by
  cases c with
  | get => exact answers_get _
  | head => exact answers_head _
  | list => exact answers_list _ _
  | put => exact answers_put _ _ _
  | delete => exact answers_delete _ _
  | submit => exact answers_submit hcalm _
  | freshId => exact answers_freshId hroom
  | job id =>
    show (answer (.job id) w).2.site = w.site
    simp only [answer, ScriptedWarehouse.poll]
    cases Fields.get? id w.warehouse.jobs <;> rfl
  | sleep span =>
    show (w.sleep span).site = w.site
    rw [sleep, hcalm.planned]
    rfl
  | _ => rfl

/-- The sandbox knows only of jobs that it has accepted. -/
theorem mem_ids_of_job (hcalm : w.Calm) {id : String} {status : JobStatus}
    (h : (answer (.job id) w).1 = .ok (some status)) : id ∈ w.site.ids := by
  rw [← hcalm.known]
  simp only [answer, ScriptedWarehouse.poll] at h
  cases hjob : Fields.get? id w.warehouse.jobs with
  | some => rfl
  | none => rw [hjob] at h; cases h

theorem Calm.of_warehouse {w' : World} (hcalm : w.Calm) (hplanned : w'.planned = [])
    (hwarehouse : w'.warehouse = w.warehouse) : w'.Calm where
  planned := hplanned
  known := by
    intro id
    rw [Site.ids, site, hwarehouse]
    exact hcalm.known id

theorem Calm.put (hcalm : w.Calm) (key : String) (body : Octets) (precondition : Precondition) :
    (w.put key body precondition).2.Calm := by
  simp only [World.put]
  split <;> exact hcalm.of_warehouse hcalm.planned rfl

theorem Calm.answer_submit (hcalm : w.Calm) (job : Job) : (answer (.submit job) w).2.Calm := by
  simp only [answer, ScriptedWarehouse.submit]
  cases hreject : (w.warehouse.scriptOf job).reject with
  | some reason => exact hcalm
  | none =>
    simp only
    split
    · exact hcalm
    · refine ⟨hcalm.planned, fun id => ?_⟩
      show (Fields.get? id (Fields.insert job.id _ w.warehouse.jobs)).isSome = true ↔
        id ∈ (w.warehouse.accepted ++ [job]).map (·.id)
      rw [List.map_append, List.mem_append, List.map_singleton, List.mem_singleton]
      by_cases hid : id = job.id
      · rw [hid, Fields.get?_insert_self]
        exact ⟨fun _ => .inr rfl, fun _ => rfl⟩
      · rw [Fields.get?_insert_of_ne _ _ hid]
        exact (hcalm.known id).trans (or_iff_left hid).symm

theorem Calm.answer_job (hcalm : w.Calm) (id : String) : (answer (.job id) w).2.Calm := by
  simp only [answer, ScriptedWarehouse.poll]
  cases hjob : Fields.get? id w.warehouse.jobs with
  | none => exact hcalm
  | some j =>
    refine ⟨hcalm.planned, fun other => ?_⟩
    refine Iff.trans ?_ (hcalm.known other)
    show (Fields.get? other (Fields.insert id j.polled w.warehouse.jobs)).isSome = true ↔ _
    by_cases hid : other = id
    · rw [hid, Fields.get?_insert_self, hjob]
      exact Iff.rfl
    · rw [Fields.get?_insert_of_ne _ _ hid]

theorem Calm.answer (hcalm : w.Calm) (c : CloudCall) : (answer c w).2.Calm := by
  cases c with
  | put key body precondition => exact hcalm.put key body precondition
  | submit => exact hcalm.answer_submit _
  | job => exact hcalm.answer_job _
  | sleep span =>
    refine hcalm.of_warehouse ?_ ?_ <;> simp only [World.answer, sleep, hcalm.planned] <;> rfl
  | _ => exact hcalm.of_warehouse hcalm.planned rfl

theorem idsDrawn_answer_le (hcalm : w.Calm) (c : CloudCall) : (answer c w).2.idsDrawn ≤ w.idsDrawn + 1 := by
  cases c with
  | put key body precondition =>
    simp only [answer, put]
    split <;> exact Nat.le_succ _
  | freshId => exact Nat.le_refl _
  | sleep span =>
    simp only [answer, sleep, hcalm.planned]
    exact Nat.le_succ _
  | _ => exact Nat.le_succ _

/-- Answers so many calls of a program. -/
def runFor {α : Type} (w : World) : Nat → CloudProgram α → CloudProgram α × World
  | n + 1, Program.ask c next => (answer c w).2.runFor n (next (answer c w).1)
  | _, p => (p, w)

/-- The calls that it makes. -/
def deedsFor {α : Type} (w : World) : Nat → CloudProgram α → List Deed
  | n + 1, Program.ask c next =>
    ⟨w.bucket.store, c, (answer c w).1⟩ :: (answer c w).2.deedsFor n (next (answer c w).1)
  | _, _ => []

/-- Whether something is true of the store before each of so many calls, and after the last. -/
def holdsFor {α : Type} (w : World) (check : Store → Bool) (n : Nat) (p : CloudProgram α) : Bool :=
  ((w.deedsFor n p).all fun deed => check deed.store) && check (w.runFor n p).2.bucket.store

theorem elapsed_le_answer (w : World) (c : CloudCall) : w.elapsed ≤ (answer c w).2.elapsed := by
  cases c with
  | put key body precondition =>
    simp only [answer, put]
    split <;> exact Nat.le_refl _
  | sleep span => exact Nat.le_add_right _ _
  | _ => exact Nat.le_refl _

/-- The sandbox keeps to the rules of a pool, in worlds of a kind that it does not leave. -/
structure Abides {ι : Type} (rules : Rules ι) (fine : World → Prop) : Prop where
  replies : ∀ {w : World} {since : Duration} (c : CloudCall), w.Calm → fine w → since ≤ w.elapsed →
    rules.replies c (answer c w).1 (answer c w).2.elapsed since
  lasts : ∀ {w : World} (c : CloudCall), w.Calm → fine w → fine (answer c w).2

theorem Abides.of_all {ι : Type} {rules : Rules ι} (h : ∀ c reply clock since, rules.replies c reply clock since) :
    Abides rules fun _ => True :=
  ⟨fun _ _ _ _ => h _ _ _ _, fun _ _ _ => trivial⟩

theorem abides_lenient (jobPrefix tablePrefix : String) : Abides (Pool.lenient jobPrefix tablePrefix) fun _ => True :=
  .of_all fun _ _ _ _ => trivial

/-- A world of a kind in which nobody else has anything planned, with ids for so many calls. -/
structure Steady (fine : World → Prop) (room : Nat) (w : World) : Prop where
  calm : w.Calm
  fine : fine w
  room : w.idsDrawn + room < 16 ^ 12

section Steady

variable {ι : Type} {rules : Rules ι} {fine : World → Prop} {room n : Nat}

theorem Steady.mono {room' : Nat} (h : Steady fine room w) (hle : room' ≤ room) : Steady fine room' w :=
  ⟨h.calm, h.fine, Nat.lt_of_le_of_lt (Nat.add_le_add_left hle _) h.room⟩

theorem Steady.answer (h : Steady fine (room + 1) w) (habides : Abides rules fine) (c : CloudCall) :
    Steady fine room (answer c w).2 := by
  have hdrawn := idsDrawn_answer_le h.calm c
  have hroom := h.room
  exact ⟨h.calm.answer c, habides.lasts c h.calm h.fine, by omega⟩

theorem Steady.runFor {α : Type} (h : Steady fine room w) (habides : Abides rules fine) (hn : n ≤ room)
    (program : CloudProgram α) : Steady fine (room - n) (w.runFor n program).2 := by
  induction n generalizing w program room with
  | zero => exact h
  | succ n ih =>
    cases program with
    | done => exact h.mono (Nat.sub_le _ _)
    | halt => exact h.mono (Nat.sub_le _ _)
    | ask c next =>
      obtain ⟨room, rfl⟩ := Nat.exists_eq_add_of_le' hn
      have hanswer : Steady fine (room + n) (World.answer c w).2 := h.answer habides c
      have hnext := ih hanswer (Nat.le_add_left n room) (next (World.answer c w).1)
      rwa [Nat.add_sub_cancel] at hnext ⊢

theorem elapsed_le_runFor {α : Type} {program : CloudProgram α} {reached : CloudProgram α × World}
    (hreached : reached = w.runFor n program) : w.elapsed ≤ reached.2.elapsed := by
  subst hreached
  induction n generalizing w program with
  | zero => exact Nat.le_refl _
  | succ n ih =>
    cases program with
    | done => exact Nat.le_refl _
    | halt => exact Nat.le_refl _
    | ask c next => exact Nat.le_trans (elapsed_le_answer w c) ih

/-- **A trial is made of calls**: what every call leaves true, some calls leave true. -/
theorem Steady.trial {α : Type} {motive : World → CloudProgram α → List Deed → Prop}
    (hlasts : ∀ {w : World} (c : CloudCall), w.Calm → fine w → fine (World.answer c w).2)
    (hcall : ∀ {w : World} {c : CloudCall} {next : c.Reply → CloudProgram α} {deeds : List Deed}, Steady fine 1 w →
      motive w (Program.ask (I := Cloud) c next) deeds → motive (World.answer c w).2 (next (World.answer c w).1)
        (deeds ++ [⟨w.bucket.store, c, (World.answer c w).1⟩]))
    (h : Steady fine n w) {program : CloudProgram α} (deeds : List Deed) (hstart : motive w program deeds) :
    motive (w.runFor n program).2 (w.runFor n program).1 (deeds ++ w.deedsFor n program) := by
  induction n generalizing w program deeds with
  | zero =>
    rw [show w.deedsFor 0 program = [] from rfl, List.append_nil]
    exact hstart
  | succ n ih =>
    cases program with
    | done =>
      rw [show w.deedsFor (n + 1) _ = [] from rfl, List.append_nil]
      exact hstart
    | halt =>
      rw [show w.deedsFor (n + 1) _ = [] from rfl, List.append_nil]
      exact hstart
    | ask c next =>
      have hroom := h.room
      have hdrawn := idsDrawn_answer_le h.calm c
      have hnext : Steady fine n (World.answer c w).2 := ⟨h.calm.answer c, hlasts c h.calm h.fine, by omega⟩
      have hrest := ih hnext _ (hcall (h.mono (Nat.le_add_left 1 n)) hstart)
      rwa [List.append_assoc] at hrest

/-- **A member of a pool makes some calls in the sandbox**, on its clock. -/
theorem run_runFor {check : Store → Bool} (within : Pool ι → Prop)
    (hwithin : ∀ pool, check pool.site.store = true → within pool) (habides : Abides rules fine)
    (h : Steady fine room w) (hn : n ≤ room) {program : CloudProgram (Except Failure Unit)}
    (hcheck : w.holdsFor check n program = true) {reached : CloudProgram (Except Failure Unit) × World}
    (hreached : reached = w.runFor n program) {since : Duration} (hsince : since ≤ w.elapsed) (errand : ι)
    (log : List Deed) (before after : List (Member ι)) :
    ∃ since' log', Steady fine (room - n) reached.2 ∧ since' ≤ reached.2.elapsed ∧ log' = log ++ w.deedsFor n program ∧
      Pool.Run rules within ⟨w.site, w.elapsed, before ++ ⟨errand, program, since, log⟩ :: after⟩
        ⟨reached.2.site, reached.2.elapsed, before ++ ⟨errand, reached.1, since', log'⟩ :: after⟩ := by
  subst hreached
  let start : Pool ι := ⟨w.site, w.elapsed, before ++ ⟨errand, program, since, log⟩ :: after⟩
  obtain ⟨hstores, hend⟩ := Bool.and_eq_true_iff.1 hcheck
  have hrun : (∀ deed ∈ w.deedsFor n program, check deed.store = true) → check (w.runFor n program).2.bucket.store = true →
      ∃ since' ≤ (w.runFor n program).2.elapsed, Pool.Run rules within start
        ⟨(w.runFor n program).2.site, (w.runFor n program).2.elapsed,
          before ++ ⟨errand, (w.runFor n program).1, since', log ++ w.deedsFor n program⟩ :: after⟩ := by
    refine (h.mono hn).trial habides.lasts (motive := fun w p deeds => (∀ deed ∈ deeds, check deed.store = true) →
      check w.bucket.store = true → ∃ since' ≤ w.elapsed, Pool.Run rules within start
        ⟨w.site, w.elapsed, before ++ ⟨errand, p, since', log ++ deeds⟩ :: after⟩) ?_ [] ?_
    · intro w c next deeds hsteady hrun hstores hend
      obtain ⟨hstores, hstore⟩ := List.forall_mem_append.1 hstores
      have hstore := hstore _ (List.mem_singleton_self _)
      obtain ⟨since', hsince', hrun⟩ := hrun hstores hstore
      let w' := (answer c w).2
      let member : Member ι := ⟨errand, Program.ask c next, since', log ++ deeds⟩
      -- time passes for as long as the call takes
      have hpass : Pool.Step rules ⟨w.site, w.elapsed, before ++ member :: after⟩
          ⟨w.site, w'.elapsed, before ++ member :: after⟩ := by
        have h : Pool.Step rules ⟨w.site, w.elapsed, before ++ member :: after⟩ _ := .pass (w'.elapsed - w.elapsed)
        rwa [show w.elapsed + (w'.elapsed - w.elapsed) = w'.elapsed from Nat.add_sub_cancel' (elapsed_le_answer w c)] at h
      have hmember : (before ++ member :: after)[before.length]? = some member := by simp
      have hset : ∀ member', (before ++ member :: after).set before.length member' = before ++ member' :: after := by
        simp
      have hcall : Pool.Step rules ⟨w.site, w'.elapsed, before ++ member :: after⟩
          ⟨w'.site, w'.elapsed, before ++ ⟨errand, next (answer c w).1, w'.elapsed,
            log ++ (deeds ++ [⟨w.bucket.store, c, (answer c w).1⟩])⟩ :: after⟩ := by
        have h : Pool.Step rules ⟨w.site, w'.elapsed, before ++ member :: after⟩ _ :=
          .call hmember rfl (answers hsteady.calm hsteady.room c) (habides.replies c hsteady.calm hsteady.fine hsince')
        rw [hset, List.append_assoc] at h
        exact h
      exact ⟨w'.elapsed, Nat.le_refl _, (hrun.tail ⟨hpass, hwithin _ hstore⟩).tail ⟨hcall, hwithin _ hend⟩⟩
    · intro _ _
      rw [List.append_nil]
      exact ⟨since, hsince, .refl⟩
  obtain ⟨since', hsince', hrun⟩ := hrun (List.all_eq_true.1 hstores) hend
  exact ⟨since', _, h.runFor habides hn program, hsince', rfl, hrun⟩

theorem steps_runFor (habides : Abides rules fine) (h : Steady fine room w) (hn : n ≤ room)
    {program : CloudProgram (Except Failure Unit)} {reached : CloudProgram (Except Failure Unit) × World}
    (hreached : reached = w.runFor n program) {since : Duration} (hsince : since ≤ w.elapsed) (errand : ι)
    (log : List Deed) (before after : List (Member ι)) :
    ∃ since' log', Steady fine (room - n) reached.2 ∧ since' ≤ reached.2.elapsed ∧ log' = log ++ w.deedsFor n program ∧
      Relation.ReflTransGen (Pool.Step rules) ⟨w.site, w.elapsed, before ++ ⟨errand, program, since, log⟩ :: after⟩
        ⟨reached.2.site, reached.2.elapsed, before ++ ⟨errand, reached.1, since', log'⟩ :: after⟩ := by
  have hcheck : w.holdsFor (fun _ => true) n program = true := by simp [holdsFor]
  obtain ⟨since', log', hsteady, hsince', hlog, hrun⟩ := run_runFor (fun _ => True) (fun _ _ => trivial) habides h hn
    hcheck hreached hsince errand log before after
  exact ⟨since', log', hsteady, hsince', hlog, hrun.steps⟩

/-- So many calls draw no more ids. -/
theorem Calm.runFor {α : Type} (hcalm : w.Calm) (hroom : w.idsDrawn + n < 16 ^ 12) (program : CloudProgram α) :
    (w.runFor n program).2.Calm ∧ (w.runFor n program).2.idsDrawn ≤ w.idsDrawn + n := by
  have hsteady : w.Steady (fun _ => True) (16 ^ 12 - 1 - w.idsDrawn) := ⟨hcalm, trivial, by omega⟩
  have hrun := hsteady.runFor (abides_lenient "" "") (by omega : n ≤ 16 ^ 12 - 1 - w.idsDrawn) program
  have hleft := hrun.room
  exact ⟨hrun.calm, by omega⟩

/-- Some calls of a program in the sandbox, which nobody disturbs. -/
theorem reaches_runFor {α : Type} (habides : Abides rules fine) (h : Steady fine room w) (hn : n ≤ room)
    (program : CloudProgram α) : Site.Reaches program w.site (w.runFor n program).1 (w.runFor n program).2.site :=
  (h.mono hn).trial (motive := fun w' p _ => Site.Reaches program w.site p w'.site) habides.lasts
    (fun hsteady hreaches => hreaches.trans (.call (answers hsteady.calm hsteady.room _) (.refl _ _))) [] (.refl _ _)

end Steady

def hasReturned : CloudProgram (Except Failure Unit) → Bool
  | Program.done (.ok ()) => true
  | _ => false

theorem eq_done_of_hasReturned {p : CloudProgram (Except Failure Unit)} (h : hasReturned p = true) :
    p = .done (.ok ()) := by
  unfold hasReturned at h
  split at h
  · rfl
  · cases h

def failure? {α : Type} : CloudProgram (Except Failure α) → Option Failure
  | Program.done (.error e) => some e
  | _ => none

theorem eq_done_of_failure? {α : Type} {p : CloudProgram (Except Failure α)} {e : Failure} (h : failure? p = some e) :
    p = .done (.error e) := by
  unfold failure? at h
  split at h
  · cases h
    rfl
  · cases h

def writing? {α : Type} : CloudProgram α → Option String
  | Program.ask (.put key _ _) _ => some key
  | _ => none

theorem exists_of_writing? {α : Type} {program : CloudProgram α} {key : String} (h : writing? program = some key) :
    ∃ body precondition next, program = Program.ask (I := Cloud) (.put key body precondition) next := by
  unfold writing? at h
  split at h
  · cases h
    exact ⟨_, _, _, rfl⟩
  · cases h

def deleting? {α : Type} : CloudProgram α → Option String
  | Program.ask (.delete key _) _ => some key
  | _ => none

theorem exists_of_deleting? {α : Type} {program : CloudProgram α} {key : String} (h : deleting? program = some key) :
    ∃ precondition next, program = Program.ask (I := Cloud) (.delete key precondition) next := by
  unfold deleting? at h
  split at h
  · cases h
    exact ⟨_, _, rfl⟩
  · cases h

/-- What is left after a subscriber that made so many calls. -/
def shift (w : World) (ctx : Context) (tablePrefix : String) (calls : Nat) : World :=
  (w.runFor calls (Subscriber.run ctx tablePrefix).errand).2

/-- Somebody else writes an object. -/
def given (w : World) (key : String) (body : Octets) : World :=
  { w with bucket := { w.bucket with store := w.bucket.store.write key body w.instant } }

theorem Calm.putAll (hcalm : w.Calm) (files : List (String × Octets)) : (w.putAll files).Calm := by
  induction files generalizing w with
  | nil => exact hcalm
  | cons file rest ih => exact ih (hcalm.put _ _ _)

theorem idsDrawn_putAll (w : World) (files : List (String × Octets)) : (w.putAll files).idsDrawn = w.idsDrawn := by
  induction files generalizing w with
  | nil => rfl
  | cons file rest ih =>
    refine (ih _).trans ?_
    simp only [put]
    split <;> rfl

theorem Calm.given (hcalm : w.Calm) (key : String) (body : Octets) : (w.given key body).Calm :=
  hcalm.of_warehouse hcalm.planned rfl

theorem idsDrawn_given (w : World) (key : String) (body : Octets) : (w.given key body).idsDrawn = w.idsDrawn := rfl

end World

/-! ## A table to try things on -/

namespace Trial

/-- Every file is a part of its own. -/
def context : Context where
  settings := { maxBatchUris := 1 }
  layout := .withResolver (fun _ => .ok ⟨"d/t", ⟨none, "d", "t", none⟩, none⟩) { maxBatchUris := 1 }
  bucket := "lake"
  patience := 50

def pointers : List String := ["d/t/_backlog/a/_SUCCESS", "d/t/_backlog/b/_SUCCESS"]

/-- A table with two batches, the first one of two files, and pointers to some of their markers. -/
@[irreducible]
def table (pointers : List String) : World :=
  ({ bucketName := "lake" } : World).putAll ([("d/t/a/x.csv", [49]), ("d/t/a/y.csv", [50]), ("d/t/a/_SUCCESS", []),
    ("d/t/b/z.csv", [51]), ("d/t/b/_SUCCESS", []), ("d/t/_BACKFILL", [])] ++ pointers.map (·, []))

theorem calm_table (pointers : List String) : (table pointers).Calm := by
  unfold table
  refine World.Calm.putAll ⟨rfl, fun id => ?_⟩ _
  exact ⟨nofun, nofun⟩

theorem steady_table (pointers : List String) {fine : World → Prop} (hfine : fine (table pointers)) {room : Nat}
    (hroom : room < 16 ^ 12) : (table pointers).Steady fine room := by
  refine ⟨calm_table pointers, hfine, ?_⟩
  unfold table
  rwa [World.idsDrawn_putAll, Nat.zero_add]

/-- The context of some settings, if they are valid. -/
@[irreducible]
def contextOf (settings : Settings) : Context := (Context.ofSettings settings "lake" 50).toOption.getD context

theorem ofSettings_contextOf {settings : Settings}
    (hvalid : (Context.ofSettings settings "lake" 50).toOption.isSome = true) :
    Context.ofSettings settings "lake" 50 = .ok (contextOf settings) := by
  unfold contextOf
  cases h : Context.ofSettings settings "lake" 50 with
  | error e =>
    rw [h] at hvalid
    cases hvalid
  | ok ctx => rfl

/-- A bucket with a few objects in it, an hour later. -/
@[irreducible]
def bucketOf (files : List (String × Octets)) : World :=
  { ({ bucketName := "lake" } : World).putAll files with elapsed := .ofSeconds 3600 }

theorem steady_bucketOf (files : List (String × Octets)) {room : Nat} (hroom : room < 16 ^ 12) :
    (bucketOf files).Steady (fun _ => True) room := by
  have hempty : ({ bucketName := "lake" } : World).Calm := ⟨rfl, fun id => ⟨nofun, nofun⟩⟩
  unfold bucketOf
  refine ⟨(hempty.putAll files).of_warehouse (hempty.putAll files).planned rfl, trivial, ?_⟩
  show (({ bucketName := "lake" } : World).putAll files).idsDrawn + room < 16 ^ 12
  rwa [World.idsDrawn_putAll, Nat.zero_add]

end Trial
end Intake
