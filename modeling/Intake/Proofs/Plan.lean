import Intake.Proofs.Keys
import Intake.Proofs.LockText
import Intake.Proofs.Reading
/-!
# Plan — what is to be done for a marker

Submitting a marker is looking at the store, which tells what jobs are due, and then carrying out that plan
(`submitJobs_eq`).  The jobs of a plan have their names left open.  What is planned for a marker strictly below the table
prefix does not depend on the objects that the engine itself writes (`Unread`, `gives_plan_write`).
-/
namespace Intake

/-- The job without its name. -/
def Job.content (job : Job) : Job := { job with id := "" }

/-- The jobs that are due for a marker, without their names: one query, or loads in their order. -/
inductive Plan where
  | query (job : Job)
  | loads (jobs : List Job)

namespace Plan

def jobs : Plan → List Job
  | .query job => [job]
  | .loads jobs => jobs

def nameOf (plan : Plan) (base : String) (index : Nat) : String :=
  match plan with
  | .query _ => base
  | .loads jobs => JobId.ofPart base index jobs.length

/-- The job of a part.  A query is all there is to do, whatever the part. -/
def job? (plan : Plan) (index : Nat) : Option Job :=
  match plan with
  | .query job => some job
  | .loads jobs => jobs[index]?

theorem unpadded_nameOf {base : String} {index : Nat} (h : Unpadded base) :
    ∀ plan : Plan, Unpadded (plan.nameOf base index)
  | .query _ => h
  | .loads _ => JobId.unpadded_ofPart h

end Plan

namespace Submission

/-- What is to be done for a marker with files in batches. -/
def planFor (ctx : Context) (marker : String) (destination : Destination) (batches : List Batch) : Invocation Plan := do
  let labels := Labels.ofJob ctx.settings.functionName ctx.bucket destination.batchId
  match ← ConfigFiles.transformSql marker with
  | some sql =>
    let external ← ConfigFiles.externalConfig marker
    return .query ⟨"", destination.table, batches.flatMap (·.uris), labels,
      .query (ConfigFiles.renderSql sql destination.table.dataset destination.table.tableId) externalTableName external⟩
  | none =>
    let config ← ConfigFiles.loadConfig marker (ConfigFiles.baseLoadConfig labels)
    return .loads (batches.map fun batch =>
      ⟨"", destination.table, batch.uris, (takeLabels config).1, .load (takeLabels config).2⟩)

/-- **What is to be done for a marker.** -/
def plan (ctx : Context) (marker : String) : Invocation Plan := do
  let destination ← Invocation.ofExcept (ctx.layout.destination marker)
  let batches ← gather ctx.bucket (dataPrefix marker) ctx.layout.successName (limits ctx.settings)
  planFor ctx marker destination batches

theorem reads_planFor (ctx : Context) (marker : String) (destination : Destination) (batches : List Batch) :
    (planFor ctx marker destination batches).Reads := by
  dsimp only [planFor]
  refine (ConfigFiles.reads_transformSql marker).bind fun sql => ?_
  cases sql with
  | some sql => exact (ConfigFiles.reads_externalConfig marker).bind fun _ => Invocation.reads_pure _
  | none => exact (ConfigFiles.reads_loadConfig marker _).bind fun _ => Invocation.reads_pure _

theorem reads_plan (ctx : Context) (marker : String) : (plan ctx marker).Reads := by
  unfold plan
  exact (Invocation.reads_ofExcept _).bind fun _ => (reads_gather ..).bind fun _ => reads_planFor ..

/-- Loads from a part on: the first of them only where there is a lock. -/
def loadJobs (ctx : Context) (jobId : String) (total : Nat) : (index : Nat) → (lastId : String) → List Job → Leased String
  | _, lastId, [] => return lastId
  | index, _, job :: rest => do
    let id := JobId.ofPart jobId index total
    let locked ← Leased.claimLock id
    submitAndWatch ctx { job with id := id }
    if locked then return id else loadJobs ctx jobId total (index + 1) id rest

/-- Carries a plan out, from a part on. -/
def carryOut (ctx : Context) (jobId : String) (firstPart : Nat) : Plan → Leased Applied
  | .query job => do
    let _ ← Leased.claimLock jobId
    submitAndWatch ctx { job with id := jobId }
    return ⟨jobId, .query, 1⟩
  | .loads jobs => do
    if jobs.length ≤ firstPart then
      throw (.jobFailed jobId
        ("batch set changed: no part " ++ decimal firstPart ++ " among " ++ decimal jobs.length))
    let lastId ← loadJobs ctx jobId jobs.length firstPart jobId (jobs.drop firstPart)
    return ⟨lastId, .load, jobs.length⟩

theorem loadParts_eq (ctx : Context) (jobId : String) (total : Nat) (destination : TableRef) (labels : Labels)
    (config : Json) : ∀ (index : Nat) (lastId : String) (batches : List Batch),
      loadParts ctx jobId total (fun id batch => ⟨id, destination, batch.uris, labels, .load config⟩) index lastId
        batches = loadJobs ctx jobId total index lastId
          (batches.map fun batch => ⟨"", destination, batch.uris, labels, .load config⟩)
  | _, _, [] => rfl
  | index, lastId, batch :: rest => by
    unfold loadParts
    simp only [List.map_cons, loadJobs, loadParts_eq ctx jobId total destination labels config _ _ rest]

end Submission

theorem Leased.lift_bind {α β : Type} (x : Invocation α) (f : α → Invocation β) :
    Leased.lift (x >>= f) = Leased.lift x >>= fun a => Leased.lift (f a) := by
  funext held
  have h : (Leased.lift x >>= fun a => Leased.lift (f a)).run.run held = _ := Leased.run_bind _ _ held
  refine Eq.trans ?_ h.symm
  show Program.bind (Program.bind x.run (ExceptT.bindCont f)) _ = Program.bind (Program.bind x.run _) _
  rw [Program.bind_assoc, Program.bind_assoc]
  congr
  funext r
  cases r <;> rfl

namespace Submission

/-- **Submitting is planning, and carrying out the plan.** -/
theorem submitJobs_eq (ctx : Context) (marker jobId : String) (firstPart : Nat) :
    submitJobs ctx marker jobId firstPart = Leased.lift (plan ctx marker) >>= carryOut ctx jobId firstPart := by
  unfold submitJobs plan
  rw [Leased.lift_bind, bind_assoc]
  refine bind_congr fun destination => ?_
  rw [Leased.lift_bind, bind_assoc]
  refine bind_congr fun batches => ?_
  rw [planFor, Leased.lift_bind, bind_assoc]
  refine bind_congr fun sql => ?_
  cases sql with
  | some sql =>
    rw [Leased.lift_bind, bind_assoc]
    refine bind_congr fun external => ?_
    rfl
  | none =>
    rw [Leased.lift_bind, bind_assoc]
    refine bind_congr fun config => ?_
    show _ = carryOut ctx jobId firstPart (.loads _)
    simp only [carryOut, List.length_map, ← List.map_drop, ← loadParts_eq]

end Submission

/-! ## What a plan depends on -/

/-- The transformations that a configuration folder holds. -/
def Store.sqlFiles (store : Store) (folder : String) : List String :=
  ((store.list (folder ++ "/") (some "/")).objects.map (·.key)).filter fun key =>
    ConfigFiles.fits "*.sql" (Key.name key)

/-- Two stores show a marker the same data and the same configuration. -/
structure Store.Agrees (marker : String) (store store' : Store) : Prop where
  data : (store'.list (Submission.dataPrefix marker) (some "/")).objects.filter (·.size != 0) =
    (store.list (Submission.dataPrefix marker) (some "/")).objects.filter (·.size != 0)
  sqlFiles : ∀ folder ∈ ConfigFiles.folders marker, store'.sqlFiles folder = store.sqlFiles folder
  bodies : ∀ folder ∈ ConfigFiles.folders marker, ∀ key, (key ∈ store.sqlFiles folder ∨
    key = Key.join folder "load.json" ∨ key = Key.join folder "external.json") → store'.get? key = store.get? key

theorem Store.gives_bind_congr {α β : Type} {store store' : Store} {x : Invocation α} {f : α → Invocation β}
    (hx : store'.gives x = store.gives x) (hf : ∀ a, store'.gives (f a) = store.gives (f a)) :
    store'.gives (x >>= f) = store.gives (x >>= f) := by
  rw [gives_bind, gives_bind, hx]
  exact Option.bind_congr fun a _ => hf a

/-- Only what is not empty is data. -/
theorem Batch.filter_isData (start successName : String) (objects : List ObjectInfo) :
    objects.filter (isData start successName) = (objects.filter (·.size != 0)).filter (isData start successName) := by
  rw [List.filter_filter]
  refine List.filter_congr fun object _ => ?_
  cases hsize : object.size != 0 with
  | true => rw [Bool.and_true]
  | false => rw [Bool.and_false, isData, hsize, Bool.false_and, Bool.false_and, Bool.false_and, Bool.false_and]

section Agreement

variable {marker : String} {store store' : Store} (h : store.Agrees marker store')

include h

theorem Submission.gives_gather_congr (bucket successName : String) (limits : BatchLimits) :
    store'.gives (gather bucket (dataPrefix marker) successName limits) =
      store.gives (gather bucket (dataPrefix marker) successName limits) := by
  have hbatches : Batch.ofListing bucket (dataPrefix marker) successName limits
      (store'.list (dataPrefix marker) (some "/")) = Batch.ofListing bucket (dataPrefix marker) successName limits
      (store.list (dataPrefix marker) (some "/")) := by
    unfold Batch.ofListing
    rw [Batch.filter_isData, h.data, ← Batch.filter_isData]
  unfold gather
  simp only [Store.gives_bind, Store.gives_list, Option.bind_some, hbatches]
  split <;> rfl

namespace ConfigFiles

theorem gives_findIn_congr {folder name : String} (hfolder : folder ∈ folders marker)
    (hname : name = "*.sql" ∨ name = "load.json" ∨ name = "external.json") :
    store'.gives (findIn folder name) = store.gives (findIn folder name) := by
  unfold findIn
  obtain rfl | hname := hname
  · rw [if_neg (by decide)]
    simp only [Store.gives_bind, Store.gives_list, Option.bind_some]
    have hfiles := h.sqlFiles folder hfolder
    unfold Store.sqlFiles at hfiles
    rw [hfiles]
    cases hl : ((store.list (folder ++ "/") (some "/")).objects.map (·.key)).filter
        fun key => fits "*.sql" (Key.name key) with
    | nil => rfl
    | cons key rest =>
      cases rest with
      | nil =>
        have hkey : key ∈ store.sqlFiles folder := by rw [Store.sqlFiles, hl]; exact List.mem_singleton.2 rfl
        simp only [Store.gives_bind, Store.gives_get, h.bodies folder hfolder key (.inl hkey)]
        rfl
      | cons key' rest => rfl
  · have hstar : (!holdsText "*" name) = true := by rcases hname with rfl | rfl <;> decide
    rw [if_pos hstar]
    have hkey : store'.get? (Key.join folder name) = store.get? (Key.join folder name) :=
      h.bodies folder hfolder _ (.inr (by rcases hname with rfl | rfl <;> simp))
    simp only [Store.gives_bind, Store.gives_get?, hkey]
    rfl

theorem gives_findAllIn_congr {name : String} (hname : name = "load.json" ∨ name = "external.json") :
    ∀ {dirs : List String}, (∀ folder ∈ dirs, folder ∈ folders marker) →
      store'.gives (findAllIn name dirs) = store.gives (findAllIn name dirs)
  | [], _ => rfl
  | folder :: rest, hdirs => by
    have hhere := gives_findIn_congr h (hdirs folder List.mem_cons_self) (.inr hname)
    have hrest := gives_findAllIn_congr hname fun f hf => hdirs f (List.mem_cons_of_mem _ hf)
    exact Store.gives_bind_congr hhere fun _ => Store.gives_bind_congr hrest fun _ => rfl

theorem gives_findFirstIn_congr : ∀ {dirs : List String}, (∀ folder ∈ dirs, folder ∈ folders marker) →
    store'.gives (findFirstIn "*.sql" dirs) = store.gives (findFirstIn "*.sql" dirs)
  | [], _ => rfl
  | folder :: rest, hdirs => by
    refine Store.gives_bind_congr (gives_findIn_congr h (hdirs folder List.mem_cons_self) (.inl rfl)) fun found => ?_
    cases found with
    | some file => rfl
    | none => exact gives_findFirstIn_congr fun f hf => hdirs f (List.mem_cons_of_mem _ hf)

theorem gives_transformSql_congr : store'.gives (transformSql marker) = store.gives (transformSql marker) := by
  refine Store.gives_bind_congr (gives_findFirstIn_congr h fun _ hf => hf) fun found => ?_
  cases found with
  | none => rfl
  | some file =>
    simp only
    split
    · rfl
    · split <;> rfl

theorem gives_externalConfig_congr : store'.gives (externalConfig marker) = store.gives (externalConfig marker) := by
  refine Store.gives_bind_congr (gives_findAllIn_congr h (.inr rfl) fun _ hf => hf) fun files => ?_
  refine Store.gives_bind_congr (by rw [Store.gives_ofExcept, Store.gives_ofExcept]) fun config => ?_
  split
  · split <;> rfl
  · rfl

theorem gives_loadConfig_congr (base : Json) :
    store'.gives (loadConfig marker base) = store.gives (loadConfig marker base) := by
  refine Store.gives_bind_congr (gives_findAllIn_congr h (.inl rfl) fun _ hf => hf) fun files => ?_
  split
  · rfl
  · rw [Store.gives_ofExcept, Store.gives_ofExcept]

end ConfigFiles

/-- **The same data and the same configuration make the same plan.** -/
theorem Submission.gives_plan_congr (ctx : Context) : store'.gives (plan ctx marker) = store.gives (plan ctx marker) := by
  refine Store.gives_bind_congr (by rw [Store.gives_ofExcept, Store.gives_ofExcept]) fun destination => ?_
  refine Store.gives_bind_congr (gives_gather_congr h ..) fun batches => ?_
  refine Store.gives_bind_congr (ConfigFiles.gives_transformSql_congr h) fun sql => ?_
  cases sql with
  | some sql => exact Store.gives_bind_congr (ConfigFiles.gives_externalConfig_congr h) fun _ => rfl
  | none => exact Store.gives_bind_congr (ConfigFiles.gives_loadConfig_congr h _) fun _ => rfl

end Agreement

/-- The name is one of a configuration file that makes a difference to a plan. -/
def IsConfigName (name : String) : Prop :=
  name = "load.json" ∨ name = "external.json" ∨ ConfigFiles.fits "*.sql" name = true

/-- The marker does not take what is under the key for one of its configuration files. -/
def Unconfigured (marker key : String) : Prop :=
  ∀ folder ∈ ConfigFiles.folders marker, Key.directory key = folder → ¬ IsConfigName (Key.name key)

/-- **What is under the key does not matter to a marker**: it neither stands beside the marker nor is a configuration
file that the marker looks for. -/
def Unread (marker key : String) : Prop := Key.directory key ≠ Key.directory marker ∧ Unconfigured marker key

namespace Store

variable {marker key : String} {store : Store}

theorem hides_of_directory_ne {dir : String} (h : Key.directory key ≠ dir) : Hides (dir ++ "/") (some "/") key := by
  intro object
  cases hs : shown (dir ++ "/") (some "/") (key, object) with
  | none => rfl
  | some info => exact absurd (Key.directory_of_shown hs) h

/-- What counts as a transformation of a folder. -/
def sqlFile? (folder : String) (entry : String × StoredObject) : Option String :=
  (shown (folder ++ "/") (some "/") entry).bind fun info =>
    if ConfigFiles.fits "*.sql" (Key.name info.key) then some info.key else none

theorem sqlFiles_eq (store : Store) (folder : String) :
    store.sqlFiles folder = store.objects.filterMap (sqlFile? folder) := by
  rw [sqlFiles, list_objects]
  induction store.objects with
  | nil => rfl
  | cons entry rest ih =>
    rw [List.filterMap_cons, List.filterMap_cons, ← ih, sqlFile?]
    cases shown (folder ++ "/") (some "/") entry with
    | none => rfl
    | some info =>
      simp only [List.map_cons, Option.bind_some]
      by_cases hfits : ConfigFiles.fits "*.sql" (Key.name info.key) = true
      · rw [List.filter_cons_of_pos (by simpa using hfits), if_pos hfits]
      · rw [List.filter_cons_of_neg (by simpa using hfits), if_neg hfits]

theorem info_of_shown {start : String} {delimiter : Option String} {object : StoredObject} {info : ObjectInfo}
    (h : shown start delimiter (key, object) = some info) : info = object.info key := by
  obtain ⟨rest, -, h⟩ := Option.bind_eq_some_iff.1 h
  split at h
  · cases h
  · exact (Option.some.inj h).symm

theorem key_of_shown {start : String} {delimiter : Option String} {object : StoredObject} {info : ObjectInfo}
    (h : shown start delimiter (key, object) = some info) : info.key = key := by
  rw [info_of_shown h, info_key]

theorem sqlFile?_of_unconfigured (h : Unconfigured marker key) {folder : String}
    (hfolder : folder ∈ ConfigFiles.folders marker) (object : StoredObject) : sqlFile? folder (key, object) = none := by
  unfold sqlFile?
  cases hs : shown (folder ++ "/") (some "/") (key, object) with
  | none => rfl
  | some info =>
    rw [Option.bind_some, key_of_shown hs, if_neg]
    exact fun hfits => h folder hfolder (Key.directory_of_shown hs) (.inr (.inr hfits))

/-- A file that a plan looks up is none that does not matter. -/
theorem ne_of_unconfigured (h : Unconfigured marker key) {folder other : String}
    (hfolder : folder ∈ ConfigFiles.folders marker)
    (hother : other ∈ store.sqlFiles folder ∨ other = Key.join folder "load.json" ∨
      other = Key.join folder "external.json") : other ≠ key := by
  rintro rfl
  obtain hmem | rfl | rfl := hother
  · rw [sqlFiles_eq] at hmem
    obtain ⟨⟨k, object⟩, -, hsome⟩ := List.mem_filterMap.1 hmem
    obtain ⟨info, hs, hif⟩ := Option.bind_eq_some_iff.1 hsome
    split at hif
    · rename_i hfits
      cases hif
      have hk := key_of_shown hs
      rw [hk] at hfits h
      exact h folder hfolder (Key.directory_of_shown hs) (.inr (.inr hfits))
    · cases hif
  · exact h folder hfolder (Key.directory_join _ (by decide)) (.inl (Key.name_join _ (by decide)))
  · exact h folder hfolder (Key.directory_join _ (by decide)) (.inr (.inl (Key.name_join _ (by decide))))

theorem dataPrefix_eq (hdir : Key.directory marker ≠ "") :
    Submission.dataPrefix marker = Key.directory marker ++ "/" := by
  unfold Submission.dataPrefix
  simp [hdir]

/-- Two stores agree for a marker if they differ by a write that it does not take for a configuration file. -/
theorem agrees_write {body : Octets} {now : Timestamp} (h : Unconfigured marker key)
    (hdata : ((store.write key body now).list (Submission.dataPrefix marker) (some "/")).objects.filter (·.size != 0) =
      (store.list (Submission.dataPrefix marker) (some "/")).objects.filter (·.size != 0)) :
    store.Agrees marker (store.write key body now) := by
  refine ⟨hdata, fun folder hfolder => ?_, fun folder hfolder other hother => ?_⟩
  · rw [sqlFiles_eq, sqlFiles_eq]
    exact Fields.filterMap_insert (sqlFile?_of_unconfigured h hfolder _) fun v _ => sqlFile?_of_unconfigured h hfolder v
  · exact get?_write_of_ne store body now (ne_of_unconfigured h hfolder hother)

/-- **A write that does not matter to a marker does not change its plan.** -/
theorem gives_plan_write (ctx : Context) (body : Octets) (now : Timestamp) (h : Unread marker key)
    (hdir : Key.directory marker ≠ "") :
    (store.write key body now).gives (Submission.plan ctx marker) = store.gives (Submission.plan ctx marker) := by
  refine Submission.gives_plan_congr (agrees_write h.2 ?_) ctx
  rw [dataPrefix_eq hdir, list_objects_write store body now (hides_of_directory_ne h.1)]

/-- **An empty object is no data**, wherever it is written. -/
theorem gives_plan_write_empty (ctx : Context) (now : Timestamp) (h : Unconfigured marker key)
    (hnone : store.get? key = none) :
    (store.write key [] now).gives (Submission.plan ctx marker) = store.gives (Submission.plan ctx marker) := by
  refine Submission.gives_plan_congr (agrees_write h ?_) ctx
  rw [list_objects, list_objects, List.filter_filterMap, List.filter_filterMap]
  refine Fields.filterMap_insert ?_ fun object hobject => ?_
  · cases hs : shown (Submission.dataPrefix marker) (some "/") (key, ⟨[], store.nextGeneration, now⟩) with
    | none => rfl
    | some info =>
      rw [info_of_shown hs]
      rfl
  · rw [get?, Fields.get?_of_mem store.sorted hobject] at hnone
    cases hnone

/-- **A deletion that does not matter to a marker does not change its plan.** -/
theorem gives_plan_remove (ctx : Context) (h : Unread marker key) (hdir : Key.directory marker ≠ "") :
    (store.remove key).gives (Submission.plan ctx marker) = store.gives (Submission.plan ctx marker) := by
  refine Submission.gives_plan_congr ⟨?_, fun folder hfolder => ?_, fun folder hfolder other hother => ?_⟩ ctx
  · rw [dataPrefix_eq hdir, list_objects_remove store (hides_of_directory_ne h.1)]
  · rw [sqlFiles_eq, sqlFiles_eq]
    exact Fields.filterMap_erase (sqlFile?_of_unconfigured h.2 hfolder) _
  · exact get?_remove_of_ne store (ne_of_unconfigured h.2 hfolder hother)

end Store
end Intake
