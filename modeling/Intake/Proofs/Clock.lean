import Intake.Proofs.Course
import Intake.Proofs.Patience
import Intake.Proofs.Verdict
/-!
# Clock — what time can bring

Time passes only while somebody sleeps, and then others act, as they have planned to.  So all that there will ever be is
what there is, what others have planned to write, and what is written in the meantime (`World.Lawful`).  A job of which
the warehouse is asked often enough comes to its end, unless its script says that it is running for as many questions as
are counted (`JobScript.Ends`).
-/
namespace Intake

/-- The job is running for fewer questions than are counted, so that it comes to an end. -/
def JobScript.Ends (script : JobScript) : Prop := script.runningPolls < 2 ^ 32 - 1

instance (script : JobScript) : Decidable script.Ends := inferInstanceAs (Decidable (script.runningPolls < 2 ^ 32 - 1))

/-- So many rows the statements of the job change. -/
def JobScript.rows (script : JobScript) : Nat := script.childRows.foldr (· + ·) 0

/-! ## Jobs -/

namespace ScriptedWarehouse

variable {w : ScriptedWarehouse} {id : String} {script : JobScript}

/-- A job follows the script, or one that is submitted would. -/
def Follows (w : ScriptedWarehouse) (script : JobScript) : Prop :=
  (∃ id j, Fields.get? id w.jobs = some j ∧ j.script = script) ∨ ∃ job, w.scriptOf job = script

theorem follows_of_get? {j : ScriptedJob} (h : Fields.get? id w.jobs = some j) : w.Follows j.script :=
  .inl ⟨id, j, h, rfl⟩

theorem follows_insert {w' : ScriptedWarehouse} {j : ScriptedJob} (h : w'.Follows script)
    (hjobs : w'.jobs = Fields.insert id j w.jobs) (hscripts : w'.scriptOf = w.scriptOf) (hj : w.Follows j.script) :
    w.Follows script := by
  obtain ⟨other, k, hk, rfl⟩ | ⟨job, rfl⟩ := h
  · rw [hjobs] at hk
    by_cases hid : other = id
    · rw [hid, Fields.get?_insert_self] at hk
      exact Option.some.inj hk ▸ hj
    · rw [Fields.get?_insert_of_ne _ _ hid] at hk
      exact follows_of_get? hk
  · exact .inr ⟨job, by rw [hscripts]⟩

theorem follows_submit (job : Job) (h : (w.submit job).2.Follows script) : w.Follows script := by
  unfold submit at h
  cases hreject : (w.scriptOf job).reject with
  | some reason =>
    simp only [hreject] at h
    exact h
  | none =>
    simp only [hreject] at h
    split at h
    · exact h
    · exact follows_insert h rfl rfl (.inr ⟨job, rfl⟩)

theorem follows_poll (id : String) (h : (w.poll id).2.Follows script) : w.Follows script := by
  unfold poll at h
  cases hjob : Fields.get? id w.jobs with
  | none =>
    rw [hjob] at h
    exact h
  | some j =>
    rw [hjob] at h
    exact follows_insert h rfl rfl (follows_of_get? (j := j) hjob)

/-- For so many more questions a job is running. -/
def left (w : ScriptedWarehouse) (id : String) : Nat :=
  (Fields.get? id w.jobs).elim 0 fun j => j.script.runningPolls + 1 - j.polls

/-- A job that is running after a question has fewer to come. -/
theorem left_poll (hends : ∀ script, w.Follows script → script.Ends) {status : JobStatus}
    (h : (w.poll id).1 = some status) (hrunning : status.isDone = false) : (w.poll id).2.left id < w.left id := by
  unfold poll at h ⊢
  cases hjob : Fields.get? id w.jobs with
  | none =>
    rw [hjob] at h
    cases h
  | some j =>
    have hends : j.script.runningPolls < 2 ^ 32 - 1 := hends _ (follows_of_get? hjob)
    simp only [hjob, Option.some.injEq] at h
    subst h
    have hpolls : ¬ j.script.runningPolls < min (j.polls + 1) (2 ^ 32 - 1) := by
      intro hdone
      have : j.polled.isDone = true := decide_eq_true hdone
      rw [ScriptedJob.status, if_pos this] at hrunning
      cases hrunning
    have hpolled : j.polled.polls = min (j.polls + 1) (2 ^ 32 - 1) := rfl
    simp only [left, Fields.get?_insert_self, hjob, Option.elim_some, hpolled]
    show j.script.runningPolls + 1 - _ < _
    omega

theorem left_lt (hends : ∀ script, w.Follows script → script.Ends) (id : String) : w.left id < 2 ^ 32 := by
  unfold left
  cases hjob : Fields.get? id w.jobs with
  | none => exact Nat.two_pow_pos 32
  | some j =>
    have hends : j.script.runningPolls < 2 ^ 32 - 1 := hends _ (follows_of_get? hjob)
    simp only [Option.elim_some]
    omega

theorem rowSum_mapIdx (rows : List Nat) {f : Nat → Nat → JobStatus}
    (hf : ∀ i n, (f i n).affectedRows = some n) : JobWatch.rowSum (rows.mapIdx f) = rows.foldr (· + ·) 0 := by
  induction rows generalizing f with
  | nil => rfl
  | cons n rest ih =>
    rw [List.mapIdx_cons, JobWatch.rowSum, List.foldr_cons, ← JobWatch.rowSum, ih fun i => hf (i + 1), hf]
    rfl

theorem rowSum_filter_le (p : JobStatus → Bool) (jobs : List JobStatus) :
    JobWatch.rowSum (jobs.filter p) ≤ JobWatch.rowSum jobs := by
  induction jobs with
  | nil => exact Nat.le_refl _
  | cons j rest ih =>
    have hcons : JobWatch.rowSum (j :: rest) = j.affectedRows.getD 0 + JobWatch.rowSum rest := rfl
    rw [List.filter_cons]
    split
    · exact Nat.add_le_add_left ih _
    · rw [hcons]
      exact Nat.le_add_left_of_le ih

/-- The statements of a job change no more rows than its script says. -/
theorem scriptRows_children {children : List JobStatus} (h : w.children id = .ok children) :
    ∃ script, w.Follows script ∧ JobWatch.scriptRows children ≤ script.rows := by
  unfold ScriptedWarehouse.children at h
  cases hjob : Fields.get? id w.jobs with
  | none =>
    rw [hjob] at h
    cases h
  | some j =>
    rw [hjob] at h
    obtain rfl := Except.ok.inj h
    refine ⟨j.script, follows_of_get? hjob, (rowSum_filter_le _ _).trans (Nat.le_of_eq ?_)⟩
    exact rowSum_mapIdx j.script.childRows fun _ _ => rfl

end ScriptedWarehouse

/-! ## Objects -/

namespace Store

variable {store : Store} {key other : String} {body other' : Octets}

/-- There is an object with this body. -/
def Has (store : Store) (key : String) (body : Octets) : Prop :=
  ∃ object, store.get? key = some object ∧ object.body = body

theorem has_write {now : Timestamp} (h : (store.write other other' now).Has key body) :
    store.Has key body ∨ key = other ∧ body = other' := by
  obtain ⟨object, hobject, rfl⟩ := h
  by_cases hkey : key = other
  · subst hkey
    rw [get?_write_self] at hobject
    obtain rfl := Option.some.inj hobject
    exact .inr ⟨rfl, rfl⟩
  · rw [get?_write_of_ne _ _ _ hkey] at hobject
    exact .inl ⟨object, hobject, rfl⟩

theorem has_delete {precondition : Precondition} (h : (store.delete other precondition).2.Has key body) :
    store.Has key body := by
  rcases store.delete_cases other precondition with ⟨result, -, hdelete⟩ | ⟨-, -, hdelete⟩
  · rwa [hdelete] at h
  · rw [hdelete] at h
    obtain ⟨object, hobject, rfl⟩ := h
    by_cases hkey : key = other
    · rw [hkey, get?_remove_self] at hobject
      cases hobject
    · rw [get?_remove_of_ne _ hkey] at hobject
      exact ⟨object, hobject, rfl⟩

theorem has_backdate {store' : Store} {age : Int} (hbackdate : store.backdate? other age = some store')
    (h : store'.Has key body) : store.Has key body := by
  obtain ⟨object, hobject, rfl⟩ := h
  unfold backdate? at hbackdate
  split at hbackdate
  · cases hbackdate
  · rename_i old hold
    obtain rfl := Option.some.inj hbackdate
    by_cases hkey : key = other
    · subst hkey
      have hnew : some _ = some object := (Fields.get?_insert_self ..).symm.trans hobject
      obtain rfl := Option.some.inj hnew
      exact ⟨old, hold, rfl⟩
    · exact ⟨object, (Fields.get?_insert_of_ne _ _ hkey).symm.trans hobject, rfl⟩

end Store

namespace Bucket

variable {b : Bucket} {key other : String} {body other' : Octets}

theorem store_get (b : Bucket) (key : String) : (b.get key).2.store = b.store := by
  unfold Bucket.get
  split
  · rfl
  · split <;> rfl

theorem store_head (b : Bucket) (key : String) : (b.head key).2.store = b.store := by
  unfold Bucket.head
  split <;> rfl

theorem store_list (b : Bucket) (start : String) (delimiter : Option String) :
    (b.list start delimiter).2.store = b.store := by
  unfold Bucket.list
  split <;> rfl

theorem has_put {precondition : Precondition} {now : Timestamp}
    (h : (b.put other other' precondition now).2.store.Has key body) :
    b.store.Has key body ∨ key = other ∧ body = other' := by
  unfold Bucket.put at h
  split at h
  · exact .inl h
  · rcases b.store.put_cases other other' precondition now with ⟨current, hput⟩ | ⟨-, hput⟩
    · rw [hput] at h
      exact .inl h
    · rw [hput] at h
      exact Store.has_write h

theorem has_delete {precondition : Precondition} (h : (b.delete other precondition).2.store.Has key body) :
    b.store.Has key body := by
  unfold Bucket.delete at h
  split at h
  · exact h
  · exact Store.has_delete h

end Bucket

/-! ## What others have planned -/

namespace WorldStep

/-- The step writes an object with this body. -/
def Writes : WorldStep → String → Octets → Prop
  | .put key body _, key', body' => key' = key ∧ body' = body
  | .produce files _, key', body' => (key', body') ∈ files
  | _, _, _ => False

/-- The keys of the objects that the step writes. -/
def written : WorldStep → List String
  | .put key _ _ => [key]
  | .produce files _ => files.map (·.1)
  | _ => []

/-- Jobs that are submitted after the step may follow this script. -/
def Sets : WorldStep → JobScript → Prop
  | .script rules otherwise, wanted => ∃ job, ScriptRule.choose rules otherwise job = wanted
  | _, _ => False

/-- What the step does to the warehouse. -/
def move : WorldStep → ScriptedWarehouse → ScriptedWarehouse
  | .script rules otherwise, w => { w with scriptOf := ScriptRule.choose rules otherwise }
  | .submit wanted, w => (w.submit wanted).2
  | .job id, w => (w.poll id).2
  | _, w => w

theorem mem_written {step : WorldStep} {key : String} {body : Octets} (h : step.Writes key body) :
    key ∈ step.written := by
  cases step with
  | put => exact List.mem_singleton.2 h.1
  | produce files => exact List.mem_map.2 ⟨_, h, rfl⟩
  | _ => exact h.elim

end WorldStep

namespace World

variable {w : World} {key : String} {body : Octets} {script : JobScript}

/-- **There is an object with this body, or others have planned to write one.** -/
def Holds (w : World) (key : String) (body : Octets) : Prop :=
  w.bucket.store.Has key body ∨ ∃ entry ∈ w.planned, entry.2.Writes key body

/-- **A job follows the script, or may come to.** -/
def Follows (w : World) (script : JobScript) : Prop :=
  w.warehouse.Follows script ∨ ∃ entry ∈ w.planned, entry.2.Sets script

/-- The keys of the objects that there are and that others have planned to write. -/
def keysToBe (w : World) : List String := w.bucket.store.keys ++ w.planned.flatMap fun entry => entry.2.written

theorem Holds.mem_keysToBe (h : w.Holds key body) : key ∈ w.keysToBe := by
  obtain ⟨object, hobject, -⟩ | ⟨entry, hentry, hwrites⟩ := h
  · exact List.mem_append_left _ (List.mem_map_of_mem (Fields.mem_of_get? hobject))
  · exact List.mem_append_right _ (List.mem_flatMap.2 ⟨entry, hentry, WorldStep.mem_written hwrites⟩)

theorem elapsed_put (w : World) (key : String) (body : Octets) (precondition : Precondition) :
    (w.put key body precondition).2.elapsed = w.elapsed := by
  simp only [put]
  split <;> rfl

theorem planned_put (w : World) (key : String) (body : Octets) (precondition : Precondition) :
    (w.put key body precondition).2.planned = w.planned := by
  simp only [put]
  split <;> rfl

theorem warehouse_put (w : World) (key : String) (body : Octets) (precondition : Precondition) :
    (w.put key body precondition).2.warehouse = w.warehouse := by
  simp only [put]
  split <;> rfl

theorem has_put {other : String} {other' : Octets} {precondition : Precondition}
    (h : (w.put other other' precondition).2.bucket.store.Has key body) :
    w.bucket.store.Has key body ∨ key = other ∧ body = other' := by
  simp only [put] at h
  split at h <;> exact Bucket.has_put h

theorem warehouse_putAll (w : World) (files : List (String × Octets)) : (w.putAll files).warehouse = w.warehouse := by
  induction files generalizing w with
  | nil => rfl
  | cons file rest ih => exact (ih _).trans (w.warehouse_put ..)

theorem has_putAll {files : List (String × Octets)} (h : (w.putAll files).bucket.store.Has key body) :
    w.bucket.store.Has key body ∨ (key, body) ∈ files := by
  induction files generalizing w with
  | nil => exact .inl h
  | cons file rest ih =>
    obtain h | hrest := ih h
    · obtain h | ⟨rfl, rfl⟩ := has_put h
      · exact .inl h
      · exact .inr List.mem_cons_self
    · exact .inr (List.mem_cons_of_mem _ hrest)

/-- A step writes what it says. -/
theorem has_perform {step : WorldStep} (h : (w.perform step).2.bucket.store.Has key body) :
    w.bucket.store.Has key body ∨ step.Writes key body := by
  cases step with
  | get => exact .inl (Bucket.store_get .. ▸ h)
  | head => exact .inl (Bucket.store_head .. ▸ h)
  | list => exact .inl (Bucket.store_list .. ▸ h)
  | put => exact has_put h
  | delete => exact .inl (Bucket.has_delete h)
  | produce => exact has_putAll h
  | backdate key age =>
    simp only [perform] at h
    split at h
    · rename_i hbackdate
      exact .inl (Store.has_backdate hbackdate h)
    · exact .inl h
  | _ => exact .inl h

theorem warehouse_perform (w : World) (step : WorldStep) : (w.perform step).2.warehouse = step.move w.warehouse := by
  cases step with
  | put => exact w.warehouse_put ..
  | produce => exact w.warehouse_putAll _
  | backdate =>
    simp only [perform]
    split <;> rfl
  | _ => rfl

theorem follows_perform {step : WorldStep} (h : (w.perform step).2.warehouse.Follows script) :
    w.warehouse.Follows script ∨ step.Sets script := by
  rw [warehouse_perform] at h
  cases step with
  | script =>
    obtain hjob | hscript := h
    · exact .inl (.inl hjob)
    · exact .inr hscript
  | submit job => exact .inl (ScriptedWarehouse.follows_submit job h)
  | job id => exact .inl (ScriptedWarehouse.follows_poll id h)
  | _ => exact .inl h

/-- What was planned takes place, or is still planned. -/
theorem holds_catchUp (until_ : Duration) : ∀ (steps : List (Duration × WorldStep)) (w : World),
    (catchUp until_ steps w).Holds key body → w.bucket.store.Has key body ∨ ∃ entry ∈ steps, entry.2.Writes key body
  | [], _, h => h
  | (time, step) :: rest, w, h => by
    unfold catchUp at h
    split at h
    · obtain hhas | ⟨entry, hentry, hwrites⟩ := holds_catchUp until_ rest _ h
      · obtain hhas | hwrites := has_perform (w := { w with elapsed := time }) hhas
        · exact .inl hhas
        · exact .inr ⟨_, List.mem_cons_self, hwrites⟩
      · exact .inr ⟨entry, List.mem_cons_of_mem _ hentry, hwrites⟩
    · exact h

theorem follows_catchUp (until_ : Duration) : ∀ (steps : List (Duration × WorldStep)) (w : World),
    (catchUp until_ steps w).Follows script → w.warehouse.Follows script ∨ ∃ entry ∈ steps, entry.2.Sets script
  | [], _, h => h
  | (time, step) :: rest, w, h => by
    unfold catchUp at h
    split at h
    · obtain hfollows | ⟨entry, hentry, hsets⟩ := follows_catchUp until_ rest _ h
      · obtain hfollows | hsets := follows_perform (w := { w with elapsed := time }) hfollows
        · exact .inl hfollows
        · exact .inr ⟨_, List.mem_cons_self, hsets⟩
      · exact .inr ⟨entry, List.mem_cons_of_mem _ hentry, hsets⟩
    · exact h

/-! ## Laws -/

theorem elapsed_answerFrom (ids : Nat → String) {c : CloudCall} (h : c.IsPrompt) (w : World) :
    (answerFrom ids c w).2.elapsed = w.elapsed := by
  cases c with
  | put => exact w.elapsed_put ..
  | sleep => exact h.elim
  | _ => rfl

theorem store_answerFrom (ids : Nat → String) {c : CloudCall} (h : c.IsIdle) (w : World) :
    (answerFrom ids c w).2.bucket.store = w.bucket.store := by
  cases c with
  | get => exact Bucket.store_get ..
  | head => exact Bucket.store_head ..
  | list => exact Bucket.store_list ..
  | put | delete | submit | job | sleep => exact h.elim
  | _ => rfl

/-- **With a call come no objects but the one that it writes, and those that others have planned.** -/
theorem holds_answerFrom (ids : Nat → String) {c : CloudCall} (h : (answerFrom ids c w).2.Holds key body) :
    w.Holds key body ∨ ∃ precondition, c = .put key body precondition := by
  cases c with
  | sleep span => exact .inl (holds_catchUp _ _ _ h)
  | put key' body' precondition =>
    obtain hhas | hplanned := h
    · obtain hhas | ⟨rfl, rfl⟩ := has_put hhas
      · exact .inl (.inl hhas)
      · exact .inr ⟨precondition, rfl⟩
    · exact .inl (.inr (w.planned_put .. ▸ hplanned))
  | get => exact .inl (h.imp_left fun hhas => Bucket.store_get .. ▸ hhas)
  | head => exact .inl (h.imp_left fun hhas => Bucket.store_head .. ▸ hhas)
  | list => exact .inl (h.imp_left fun hhas => Bucket.store_list .. ▸ hhas)
  | delete => exact .inl (h.imp_left Bucket.has_delete)
  | _ => exact .inl h

theorem follows_answerFrom (ids : Nat → String) {c : CloudCall} (h : (answerFrom ids c w).2.Follows script) :
    w.Follows script := by
  cases c with
  | sleep span => exact follows_catchUp _ _ _ h
  | put =>
    refine h.imp (fun hfollows => ?_) fun hplanned => ?_
    · exact w.warehouse_put .. ▸ hfollows
    · exact w.planned_put .. ▸ hplanned
  | submit job => exact h.imp_left (ScriptedWarehouse.follows_submit job)
  | job id => exact h.imp_left (ScriptedWarehouse.follows_poll id)
  | _ => exact h

/-- What may be written, and what scripts jobs may follow. -/
structure Law where
  writes : String → Octets → Prop
  runs : JobScript → Prop

/-- **All that there is and that is planned keeps a law.** -/
structure Lawful (law : Law) (w : World) : Prop where
  writes : ∀ {key body}, w.Holds key body → law.writes key body
  runs : ∀ {script}, w.Follows script → law.runs script

theorem Lawful.answerFrom {law : Law} (h : w.Lawful law) (ids : Nat → String) {c : CloudCall}
    (hput : ∀ key body precondition, c = .put key body precondition → law.writes key body) :
    (World.answerFrom ids c w).2.Lawful law := by
  refine ⟨fun {key body} hholds => ?_, fun hfollows => h.runs (follows_answerFrom ids hfollows)⟩
  obtain hholds | ⟨precondition, rfl⟩ := holds_answerFrom ids hholds
  · exact h.writes hholds
  · exact hput key body precondition rfl

end World
end Intake
