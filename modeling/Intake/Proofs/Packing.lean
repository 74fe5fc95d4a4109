import Intake.Batch
import Intake.Proofs.Text
import Mathlib.Algebra.GroupWithZero.Nat
import Mathlib.Algebra.Order.BigOperators.Group.List
import Mathlib.Algebra.Order.Group.Nat
/-!
# Packing — files in as few batches as can be

Packing splits the files in their order (`Batch.pack_uris`) into parts that the limits allow, and no split into allowed
parts has fewer of them (`Batch.pack_minimal`).  A part of an allowed part is allowed, so a batch closed because the
next file did not fit reaches as far as the first part of any other split, and what is left after it can be split into
no more parts than what is left there.
-/
namespace Intake

/-- **Some files may be one batch**: there are some, not too many, and they are small enough together or only one. -/
structure BatchLimits.Allows (limits : BatchLimits) (files : List (String × Nat)) : Prop where
  some : files ≠ []
  few : files.length ≤ limits.maxUris
  small : min (files.map (·.2)).sum (2 ^ 64 - 1) ≤ limits.maxBytes ∨ files.length = 1

namespace Batch

variable {limits : BatchLimits} {files part rest : List (String × Nat)} {parts : List (List (String × Nat))}

theorem packFrom_uris (limits : BatchLimits) : ∀ (current : Batch) (files : List (String × Nat)),
    (packFrom limits current files).flatMap (·.uris) = current.uris ++ files.map (·.1)
  | current, [] => by
    rw [packFrom]
    split
    · rename_i h
      rw [List.isEmpty_iff.1 h]
      rfl
    · simp
  | current, (uri, size) :: rest => by
    rw [packFrom]
    split
    · rw [List.flatMap_cons, packFrom_uris limits _ rest]
      rfl
    · rw [packFrom_uris limits _ rest, push, List.append_assoc]
      rfl

/-- **Batches keep the files in their order.** -/
theorem pack_uris (limits : BatchLimits) (files : List (String × Nat)) :
    (pack limits files).flatMap (·.uris) = files.map (·.1) :=
  packFrom_uris limits {} files

theorem length_uris_push (batch : Batch) (uri : String) (size : Nat) :
    (batch.push uri size).uris.length = batch.uris.length + 1 :=
  List.length_append

theorem packFrom_length_le (limits : BatchLimits) : ∀ (current : Batch) (files : List (String × Nat)),
    (packFrom limits current files).length ≤ current.uris.length + files.length
  | current, [] => by
    rw [packFrom]
    split
    · exact Nat.zero_le _
    · rename_i h
      exact Nat.le_add_right_of_le (List.length_pos_iff.2 fun he => h (List.isEmpty_iff.2 he))
  | current, (uri, size) :: rest => by
    rw [packFrom]
    split
    · rename_i h
      have hrest := packFrom_length_le limits (push {} uri size) rest
      have hsome : 0 < current.uris.length := List.length_pos_iff.2 fun he => by rw [he] at h; cases h
      rw [length_uris_push, List.length_nil] at hrest
      simp only [List.length_cons]
      omega
    · have hrest := packFrom_length_le limits (current.push uri size) rest
      rw [length_uris_push] at hrest
      simp only [List.length_cons]
      omega

/-- There are no more batches than files. -/
theorem pack_length_le (limits : BatchLimits) (files : List (String × Nat)) :
    (pack limits files).length ≤ files.length := by
  have h := packFrom_length_le limits {} files
  rwa [List.length_nil, Nat.zero_add] at h

/-! ## Parts that the limits allow -/

theorem allows_singleton (h : 1 ≤ limits.maxUris) (file : String × Nat) : limits.Allows [file] :=
  ⟨List.cons_ne_nil _ _, h, .inr rfl⟩

/-- An open batch that the next file does not go into is not empty. -/
theorem allows_of_not_allows (hroom : 1 ≤ limits.maxUris) {file : String × Nat} (hpart : part = [] ∨ limits.Allows part)
    (h : ¬ limits.Allows (part ++ [file])) : limits.Allows part := by
  refine hpart.resolve_left fun hempty => h ?_
  rw [hempty]
  exact allows_singleton hroom file

/-- A part of what may be one batch may be one batch. -/
theorem allows_of_sublist (h : limits.Allows files) (hsub : part.Sublist files) (hsome : part ≠ []) :
    limits.Allows part := by
  have hlength := hsub.length_le
  have hsum : (part.map (·.2)).sum ≤ (files.map (·.2)).sum :=
    List.Sublist.sum_le_sum (hsub.map _) fun _ _ => Nat.zero_le _
  refine ⟨hsome, Nat.le_trans hlength h.few, ?_⟩
  rcases h.small with hsmall | hone
  · exact .inl (by omega)
  · have := List.length_pos_iff.2 hsome
    exact .inr (by omega)

def ofFiles (files : List (String × Nat)) : Batch where
  uris := files.map (·.1)
  bytes := min (files.map (·.2)).sum (2 ^ 64 - 1)

theorem push_ofFiles (files : List (String × Nat)) (uri : String) (size : Nat) :
    (ofFiles files).push uri size = ofFiles (files ++ [(uri, size)]) := by
  simp only [push, ofFiles, addSize, maxWord64_eq, List.map_append, List.map_cons, List.map_nil, List.sum_append,
    List.sum_cons, List.sum_nil, mk.injEq, true_and]
  omega

/-- The next file goes into the open batch if they may be one batch together. -/
theorem packFrom_of_allows {file : String × Nat} (h : limits.Allows (part ++ [file])) :
    packFrom limits (ofFiles part) (file :: rest) = packFrom limits (ofFiles (part ++ [file])) rest := by
  obtain ⟨uri, size⟩ := file
  rw [packFrom, push_ofFiles, if_neg]
  rw [Bool.and_eq_true, Bool.or_eq_true, decide_eq_true_eq, decide_eq_true_eq]
  rintro ⟨hsome, hover⟩
  have hlength : part.length ≠ 0 := by simpa [ofFiles] using hsome
  have hfew := h.few
  have hsmall := h.small
  simp only [ofFiles, addSize, maxWord64_eq, List.length_map] at hover
  simp only [List.length_append, List.length_cons, List.length_nil, List.map_append, List.map_cons, List.map_nil,
    List.sum_append, List.sum_cons, List.sum_nil] at hfew hsmall
  omega

/-- Otherwise it closes the open batch and starts the next one. -/
theorem packFrom_of_not_allows {file : String × Nat} (hsome : part ≠ []) (h : ¬ limits.Allows (part ++ [file])) :
    packFrom limits (ofFiles part) (file :: rest) = ofFiles part :: packFrom limits (ofFiles [file]) rest := by
  obtain ⟨uri, size⟩ := file
  rw [packFrom, show push {} uri size = ofFiles [(uri, size)] from push_ofFiles [] uri size, if_pos]
  rw [Bool.and_eq_true, Bool.or_eq_true, decide_eq_true_eq, decide_eq_true_eq]
  refine ⟨by simpa [ofFiles] using hsome, Decidable.byContradiction fun hfits => h ⟨by simp, ?_, .inl ?_⟩⟩
  all_goals
    simp only [ofFiles, addSize, maxWord64_eq, List.length_map, List.length_append, List.length_cons, List.length_nil,
      List.map_append, List.map_cons, List.map_nil, List.sum_append, List.sum_cons, List.sum_nil] at hfits ⊢
    omega

/-! ## Splits -/

/-- **A split of files**: one part after the other they are the files, and the limits allow each. -/
structure IsSplit (limits : BatchLimits) (files : List (String × Nat)) (parts : List (List (String × Nat))) : Prop where
  whole : parts.flatten = files
  allowed : ∀ part ∈ parts, limits.Allows part

theorem IsSplit.cons (h : IsSplit limits rest parts) (hpart : limits.Allows part) :
    IsSplit limits (part ++ rest) (part :: parts) :=
  ⟨by rw [List.flatten_cons, h.whole], List.forall_mem_cons.2 ⟨hpart, h.allowed⟩⟩

theorem IsSplit.of_cons (h : IsSplit limits files (part :: parts)) :
    limits.Allows part ∧ IsSplit limits parts.flatten parts ∧ files = part ++ parts.flatten := by
  obtain ⟨hpart, hparts⟩ := List.forall_mem_cons.1 h.allowed
  exact ⟨hpart, ⟨rfl, hparts⟩, h.whole.symm⟩

/-- Packing after an open batch gives the batches of a split. -/
theorem exists_isSplit_packFrom (hroom : 1 ≤ limits.maxUris) : ∀ (files : List (String × Nat)) {part},
    part = [] ∨ limits.Allows part →
      ∃ parts, IsSplit limits (part ++ files) parts ∧ packFrom limits (ofFiles part) files = parts.map ofFiles
  | [], part, hpart => by
    rcases hpart with rfl | hpart
    · exact ⟨[], ⟨rfl, by simp⟩, rfl⟩
    · refine ⟨[part], ⟨by simp, by simpa using hpart⟩, ?_⟩
      rw [packFrom, if_neg (by simpa [ofFiles] using hpart.some)]
      rfl
  | file :: rest, part, hpart => by
    by_cases h : limits.Allows (part ++ [file])
    · obtain ⟨parts, hsplit, hpack⟩ := exists_isSplit_packFrom hroom rest (.inr h)
      rw [List.append_assoc] at hsplit
      exact ⟨parts, hsplit, by rw [packFrom_of_allows h, hpack]⟩
    · have hpart := allows_of_not_allows hroom hpart h
      obtain ⟨parts, hsplit, hpack⟩ := exists_isSplit_packFrom hroom rest (.inr (allows_singleton hroom file))
      exact ⟨part :: parts, hsplit.cons hpart, by rw [packFrom_of_not_allows hpart.some h, hpack]; rfl⟩

/-- What is left when the first files are taken away can be split into no more parts. -/
theorem IsSplit.exists_of_append {files : List (String × Nat)} : ∀ {parts front},
    IsSplit limits (front ++ files) parts → ∃ parts', IsSplit limits files parts' ∧ parts'.length ≤ parts.length
  | [], front, h => by
    have hnil : front ++ files = [] := h.whole.symm
    exact ⟨[], ⟨(List.append_eq_nil_iff.1 hnil).2.symm, by simp⟩, Nat.le_refl _⟩
  | part :: parts, front, h => by
    obtain ⟨hpart, hparts, hwhole⟩ := h.of_cons
    rcases List.append_eq_append_iff.1 hwhole with ⟨tail, rfl, rfl⟩ | ⟨front', rfl, hrest⟩
    · rcases List.eq_nil_or_concat tail with rfl | ⟨_, _, htail⟩
      · exact ⟨parts, hparts, Nat.le_succ _⟩
      · have hsome : tail ≠ [] := by rw [htail]; simp
        have htail := allows_of_sublist hpart (List.sublist_append_right _ _) hsome
        exact ⟨tail :: parts, hparts.cons htail, Nat.le_refl _⟩
    · rw [hrest] at hparts
      obtain ⟨parts', hsplit, hlength⟩ := hparts.exists_of_append
      exact ⟨parts', hsplit, Nat.le_succ_of_le hlength⟩

/-- **No split has fewer parts than there are batches.**  Where a file did not fit, the first part of the split ends
before it. -/
theorem length_packFrom_le (hroom : 1 ≤ limits.maxUris) : ∀ (files : List (String × Nat)) {part parts},
    part = [] ∨ limits.Allows part → IsSplit limits (part ++ files) parts →
      (packFrom limits (ofFiles part) files).length ≤ parts.length
  | [], part, parts, hpart, hsplit => by
    rw [packFrom]
    split
    · exact Nat.zero_le _
    · rename_i hsome
      refine List.length_pos_iff.2 fun hnone => hsome ?_
      have hwhole := hsplit.whole
      rw [hnone, List.append_nil] at hwhole
      rw [← hwhole]
      rfl
  | file :: rest, part, parts, hpart, hsplit => by
    by_cases h : limits.Allows (part ++ [file])
    · rw [packFrom_of_allows h]
      exact length_packFrom_le hroom rest (.inr h) (by rwa [List.append_assoc])
    · have hpart := allows_of_not_allows hroom hpart h
      rw [packFrom_of_not_allows hpart.some h, List.length_cons]
      cases parts with
      | nil => exact absurd hsplit.whole (by simp)
      | cons first others =>
        obtain ⟨hfirst, hothers, hwhole⟩ := hsplit.of_cons
        have hends : ∃ tail, others.flatten = tail ++ file :: rest := by
          rcases List.append_eq_append_iff.1 hwhole with ⟨tail, hlonger, hrest⟩ | ⟨tail, -, hrest⟩
          · cases tail with
            | nil => exact ⟨[], hrest.symm⟩
            | cons next tail =>
              obtain rfl : file = next := by simpa using congrArg List.head? hrest
              refine absurd (allows_of_sublist hfirst ?_ (by simp)) h
              rw [hlonger]
              exact List.Sublist.append_left (List.singleton_sublist.2 List.mem_cons_self) _
          · exact ⟨tail, hrest⟩
        obtain ⟨tail, hrest⟩ := hends
        rw [hrest] at hothers
        obtain ⟨parts', hsplit', hlength⟩ := hothers.exists_of_append
        have := length_packFrom_le hroom rest (.inr (allows_singleton hroom file)) hsplit'
        simp only [List.length_cons]
        omega

/-- **Packing is a split into as few batches as can be.**  The batches are those of a split of the files, each with the
addresses of its files and the sum of their sizes, up to the largest 64-bit number; and no split has fewer parts. -/
theorem pack_minimal (limits : BatchLimits) (hroom : 1 ≤ limits.maxUris) (files : List (String × Nat)) :
    (∃ parts, IsSplit limits files parts ∧ pack limits files = parts.map ofFiles) ∧
      (pack limits files).flatMap (·.uris) = files.map (·.1) ∧
      (∀ batch ∈ pack limits files, batch.uris ≠ [] ∧ batch.uris.length ≤ limits.maxUris ∧
        (batch.bytes ≤ limits.maxBytes ∨ batch.uris.length = 1)) ∧
      ∀ parts, IsSplit limits files parts → (pack limits files).length ≤ parts.length := by
  obtain ⟨parts, hsplit, hpack⟩ := exists_isSplit_packFrom hroom files (.inl rfl)
  have hpack : pack limits files = parts.map ofFiles := hpack
  refine ⟨⟨parts, hsplit, hpack⟩, pack_uris limits files, fun batch hbatch => ?_, fun parts' hsplit' => ?_⟩
  · rw [hpack] at hbatch
    obtain ⟨part, hpart, rfl⟩ := List.mem_map.1 hbatch
    obtain ⟨hsome, hfew, hsmall⟩ := hsplit.allowed part hpart
    exact ⟨by simpa [ofFiles] using hsome, by simpa [ofFiles] using hfew, by simpa [ofFiles] using hsmall⟩
  · exact length_packFrom_le hroom files (.inl rfl) hsplit'

/-- Six files, one of them too large by itself and an empty one after it. -/
theorem pack_minimal_oversized :
    pack ⟨100, 3⟩ [("a", 60), ("b", 40), ("c", 1), ("d", 150), ("e", 0), ("f", 10)] =
        [⟨["a", "b"], 100⟩, ⟨["c"], 1⟩, ⟨["d"], 150⟩, ⟨["e", "f"], 10⟩] ∧
      ∀ parts, IsSplit ⟨100, 3⟩ [("a", 60), ("b", 40), ("c", 1), ("d", 150), ("e", 0), ("f", 10)] parts →
        4 ≤ parts.length := by
  have hpack : pack ⟨100, 3⟩ [("a", 60), ("b", 40), ("c", 1), ("d", 150), ("e", 0), ("f", 10)] =
      [⟨["a", "b"], 100⟩, ⟨["c"], 1⟩, ⟨["d"], 150⟩, ⟨["e", "f"], 10⟩] := by decide
  refine ⟨hpack, fun parts hsplit => ?_⟩
  have hleast := (pack_minimal ⟨100, 3⟩ (by decide) _).2.2.2 parts hsplit
  rwa [hpack] at hleast

/-- Sizes are added up to the largest 64-bit number, so that much is never too much. -/
example : pack ⟨2 ^ 64 - 1, 2⟩ [("a", 2 ^ 64 - 1), ("b", 1), ("c", 0)] =
    [⟨["a", "b"], 2 ^ 64 - 1⟩, ⟨["c"], 0⟩] := by decide

end Batch
end Intake
