import Intake.Proofs.Overlay
import Intake.Proofs.Pointer
import Mathlib.Data.List.Nodup
/-!
# Listing — what a listing shows of a store

A key that has the start is listed as it is if no delimiter follows the start, and else as the folder up to and with the
first delimiter that does.  A listing shows these objects and folders, each once and in the order of their octets, and
nothing else (`Store.list_exact`); so every key that has the start is found in it in one place.
-/
namespace Intake

/-! ## First places -/

/-- A text stands in another one after a first part, and nowhere before. -/
structure StandsFirst (text whole before after : String) : Prop where
  eq : whole = before ++ text ++ after
  first : ∀ before' after', whole = before' ++ text ++ after' → before.length ≤ before'.length

namespace Text

theorem length_le_of_cut? {sep : List Char} : ∀ {l before after before' after' : List Char},
    cut? sep l = some (before, after) → l = before' ++ sep ++ after' → before.length ≤ before'.length
  | [], before, after, before', after', hcut, h => by
    have hnil := cut?_eq_some hcut
    obtain rfl : before = [] := by
      cases before with
      | nil => rfl
      | cons c before => cases hnil
    exact Nat.zero_le _
  | c :: l, before, after, before', after', hcut, h => by
    unfold cut? at hcut
    split at hcut
    · cases hcut
      exact Nat.zero_le _
    · rename_i hhere
      obtain ⟨⟨b, a⟩, hl, e⟩ := Option.map_eq_some_iff.1 hcut
      cases e
      cases before' with
      | nil =>
        rw [List.nil_append] at h
        rw [List.isPrefixOf?_eq_some_iff_append_eq.2 h.symm] at hhere
        cases hhere
      | cons d before' =>
        obtain ⟨-, h⟩ := List.cons.inj h
        exact Nat.succ_le_succ (length_le_of_cut? hl h)

end Text

theorem toList_append_append {a b c : String} : (a ++ b ++ c).toList = a.toList ++ b.toList ++ c.toList := by
  rw [String.toList_append, String.toList_append]

theorem StandsFirst.unique {text whole before after before' after' : String} (h : StandsFirst text whole before after)
    (h' : StandsFirst text whole before' after') : before = before' := by
  have hlength := Nat.le_antisymm (h.first _ _ h'.eq) (h'.first _ _ h.eq)
  have heq := congrArg String.toList (h.eq.symm.trans h'.eq)
  rw [toList_append_append, toList_append_append, List.append_assoc, List.append_assoc] at heq
  rw [← String.length_toList, ← String.length_toList] at hlength
  exact String.toList_inj.1 (List.append_inj heq hlength).1

/-- **What follows the first place has no say in it.** -/
theorem StandsFirst.before_other {text whole before after : String} (h : StandsFirst text whole before after)
    (after' : String) : StandsFirst text (before ++ text ++ after') before after' := by
  refine ⟨rfl, fun b a hplace => Nat.le_of_not_lt fun hless => ?_⟩
  -- a place before it would lie within the part that both texts share
  have hearlier : b.toList ++ text.toList <+: (before ++ text ++ after').toList :=
    ⟨a.toList, by rw [hplace, toList_append_append]⟩
  have hhere : before.toList ++ text.toList <+: (before ++ text ++ after').toList :=
    ⟨after'.toList, toList_append_append.symm⟩
  have hlength : (b.toList ++ text.toList).length ≤ (before.toList ++ text.toList).length := by
    simp only [List.length_append, String.length_toList]
    omega
  obtain ⟨x, hx⟩ := List.prefix_of_prefix_length_le hearlier hhere hlength
  have hwhole : whole = b ++ text ++ (String.ofList x ++ after) := by
    rw [h.eq, ← String.toList_inj, toList_append_append, toList_append_append, String.toList_append,
      String.toList_ofList, ← hx, List.append_assoc]
  exact Nat.not_lt.2 (h.first _ _ hwhole) hless

theorem exists_cutText? (sep before after : String) : ∃ b a, cutText? sep (before ++ sep ++ after) = some (b, a) := by
  have hholds : (cutText? sep (before ++ sep ++ after)).isSome = true := by
    rw [cutText?, Option.isSome_map, Text.cut?_isSome_iff, toList_append_append]
    exact ⟨_, _, rfl⟩
  obtain ⟨⟨b, a⟩, hcut⟩ := Option.isSome_iff_exists.1 hholds
  exact ⟨b, a, hcut⟩

/-- **Cutting a text finds the first place**, if there is one. -/
theorem cutText?_eq_some_iff {sep s before after : String} : cutText? sep s = some (before, after) ↔
    StandsFirst sep s before after := by
  have hsound : ∀ {before after}, cutText? sep s = some (before, after) → StandsFirst sep s before after := by
    intro before after h
    obtain ⟨⟨b, a⟩, hcut, e⟩ := Option.map_eq_some_iff.1 h
    cases e
    refine ⟨?_, fun before' after' h' => ?_⟩
    · rw [← String.toList_inj, toList_append_append, String.toList_ofList, String.toList_ofList, Text.cut?_eq_some hcut]
    · rw [← String.length_toList, ← String.length_toList, String.toList_ofList]
      exact Text.length_le_of_cut? hcut (by rw [h', toList_append_append])
  refine ⟨hsound, fun h => ?_⟩
  obtain ⟨b, a, hcut⟩ := exists_cutText? sep before after
  rw [← h.eq] at hcut
  have hfound := hsound hcut
  obtain rfl := h.unique hfound
  have hrest := h.eq.symm.trans hfound.eq
  rw [String.append_right_inj] at hrest
  rw [hcut, hrest]

namespace Store

/-! ## What stands for a key -/

/-- **The key is listed as it is**: it has the start, and no delimiter stands after it. -/
def Listed (start : String) (delimiter : Option String) (key : String) : Prop :=
  ∃ rest, key = start ++ rest ∧ ∀ d before after, delimiter = some d → d ≠ "" → rest ≠ before ++ d ++ after

/-- **The key is listed as a folder**: it has the start, and the folder ends with the first delimiter after it. -/
def RolledUp (start : String) (delimiter : Option String) (key folder : String) : Prop :=
  ∃ rest d before after, key = start ++ rest ∧ delimiter = some d ∧ d ≠ "" ∧ StandsFirst d rest before after ∧
    folder = start ++ before ++ d

variable {start : String} {delimiter : Option String} {rest key folder : String}

theorem folder?_eq_some_iff : folder? start delimiter rest = some folder ↔
    ∃ d before after, delimiter = some d ∧ d ≠ "" ∧ StandsFirst d rest before after ∧ folder = start ++ before ++ d := by
  unfold folder?
  simp only [Option.bind_eq_bind, Option.bind_eq_some_iff, Option.filter_eq_some_iff, Option.pure_def, Option.some.injEq,
    Prod.exists, Bool.not_eq_true', String.isEmpty_eq_false_iff, cutText?_eq_some_iff]
  constructor
  · rintro ⟨d, ⟨hd, hne⟩, before, after, hfirst, rfl⟩
    exact ⟨d, before, after, hd, hne, hfirst, rfl⟩
  · rintro ⟨d, before, after, hd, hne, hfirst, rfl⟩
    exact ⟨d, ⟨hd, hne⟩, before, after, hfirst, rfl⟩

theorem folder?_eq_none_iff : folder? start delimiter rest = none ↔
    ∀ d before after, delimiter = some d → d ≠ "" → rest ≠ before ++ d ++ after := by
  constructor
  · rintro hnone d before after hd hne rfl
    obtain ⟨b, a, hcut⟩ := exists_cutText? d before after
    cases hnone.symm.trans (folder?_eq_some_iff.2 ⟨d, b, a, hd, hne, cutText?_eq_some_iff.1 hcut, rfl⟩)
  · intro hfree
    rw [Option.eq_none_iff_forall_ne_some]
    intro folder hfolder
    obtain ⟨d, before, after, hd, hne, hfirst, -⟩ := folder?_eq_some_iff.1 hfolder
    exact hfree d before after hd hne hfirst.eq

theorem listed_append_iff : Listed start delimiter (start ++ rest) ↔ folder? start delimiter rest = none := by
  rw [folder?_eq_none_iff]
  constructor
  · rintro ⟨rest', h, hfree⟩
    rw [String.append_right_inj] at h
    exact h ▸ hfree
  · exact fun hfree => ⟨rest, rfl, hfree⟩

theorem rolledUp_append_iff : RolledUp start delimiter (start ++ rest) folder ↔
    folder? start delimiter rest = some folder := by
  rw [folder?_eq_some_iff]
  constructor
  · rintro ⟨rest', d, before, after, h, hd, hne, hfirst, rfl⟩
    rw [String.append_right_inj] at h
    exact ⟨d, before, after, hd, hne, h ▸ hfirst, rfl⟩
  · rintro ⟨d, before, after, hd, hne, hfirst, rfl⟩
    exact ⟨rest, d, before, after, rfl, hd, hne, hfirst, rfl⟩

theorem Listed.startsWith (h : Listed start delimiter key) : startsWith start key = true := by
  obtain ⟨rest, rfl, -⟩ := h
  exact startsWith_iff.2 ⟨rest, rfl⟩

namespace RolledUp

theorem startsWith (h : RolledUp start delimiter key folder) : startsWith start key = true := by
  obtain ⟨rest, d, before, after, rfl, -⟩ := h
  exact startsWith_iff.2 ⟨rest, rfl⟩

theorem startsWith_folder (h : RolledUp start delimiter key folder) : Intake.startsWith folder key = true := by
  obtain ⟨rest, d, before, after, rfl, -, -, hfirst, rfl⟩ := h
  exact startsWith_iff.2 ⟨after, by simp only [hfirst.eq, String.append_assoc]⟩

theorem unique {folder' : String} (h : RolledUp start delimiter key folder)
    (h' : RolledUp start delimiter key folder') : folder = folder' := by
  obtain ⟨rest, rfl⟩ := startsWith_iff.1 h.startsWith
  exact Option.some.inj ((rolledUp_append_iff.1 h).symm.trans (rolledUp_append_iff.1 h'))

theorem not_listed (h : RolledUp start delimiter key folder) : ¬ Listed start delimiter key := by
  intro hlisted
  obtain ⟨rest, rfl⟩ := startsWith_iff.1 h.startsWith
  cases (rolledUp_append_iff.1 h).symm.trans (listed_append_iff.1 hlisted)

/-- **A folder stands for every key that starts with it.** -/
theorem of_startsWith {other : String} (h : RolledUp start delimiter key folder)
    (hother : Intake.startsWith folder other = true) : RolledUp start delimiter other folder := by
  obtain ⟨rest, d, before, after, rfl, hd, hne, hfirst, rfl⟩ := h
  obtain ⟨after', rfl⟩ := startsWith_iff.1 hother
  exact ⟨before ++ d ++ after', d, before, after', by simp only [String.append_assoc], hd, hne, hfirst.before_other after',
    rfl⟩

end RolledUp

theorem listed_or_rolledUp (h : startsWith start key = true) :
    Listed start delimiter key ∨ ∃ folder, RolledUp start delimiter key folder := by
  obtain ⟨rest, rfl⟩ := startsWith_iff.1 h
  cases hfolder : folder? start delimiter rest with
  | none => exact .inl (listed_append_iff.2 hfolder)
  | some folder => exact .inr ⟨folder, rolledUp_append_iff.2 hfolder⟩

/-! ## The objects -/

theorem shown_eq_some_iff {object : StoredObject} {info : ObjectInfo} :
    shown start delimiter (key, object) = some info ↔ Listed start delimiter key ∧ object.info key = info := by
  unfold shown
  cases hrest : dropStart? start key with
  | none =>
    refine iff_of_false (fun h => by cases h) fun h => ?_
    obtain ⟨rest, e⟩ := startsWith_iff.1 h.1.startsWith
    cases hrest.symm.trans (dropStart?_eq_some.2 e)
  | some rest =>
    obtain rfl := dropStart?_eq_some.1 hrest
    rw [listed_append_iff]
    cases hfolder : folder? start delimiter rest with
    | none => simp [hfolder]
    | some folder => simp [hfolder]

variable {store : Store} {info : ObjectInfo}

theorem head?_eq_some_iff : store.head? key = some info ↔
    ∃ object, (key, object) ∈ store.objects ∧ object.info key = info := by
  rw [head?, Option.map_eq_some_iff]
  constructor
  · rintro ⟨object, hobject, rfl⟩
    exact ⟨object, Fields.mem_of_get? hobject, rfl⟩
  · rintro ⟨object, hobject, rfl⟩
    exact ⟨object, Fields.get?_of_mem store.sorted hobject, rfl⟩

theorem mem_list_objects : info ∈ (store.list start delimiter).objects ↔
    store.head? info.key = some info ∧ Listed start delimiter info.key := by
  rw [list_objects, List.mem_filterMap, head?_eq_some_iff]
  constructor
  · rintro ⟨⟨key, object⟩, hobject, hshown⟩
    obtain ⟨hlisted, rfl⟩ := shown_eq_some_iff.1 hshown
    exact ⟨⟨object, hobject, rfl⟩, hlisted⟩
  · rintro ⟨⟨object, hobject, e⟩, hlisted⟩
    exact ⟨(info.key, object), hobject, shown_eq_some_iff.2 ⟨hlisted, e⟩⟩

theorem isSome_head?_of_mem (h : key ∈ store.keys) : (store.head? key).isSome = true := by
  rw [head?, Option.isSome_map]
  exact Fields.isSome_get?_of_mem h

theorem key_of_head? (h : store.head? key = some info) : info.key = key := by
  obtain ⟨object, -, rfl⟩ := head?_eq_some_iff.1 h
  rfl

theorem mem_keys_of_head? (h : store.head? key = some info) : key ∈ store.keys := by
  obtain ⟨object, hobject, -⟩ := head?_eq_some_iff.1 h
  exact List.mem_map_of_mem hobject

theorem mem_list_keys : key ∈ (store.list start delimiter).objects.map (·.key) ↔
    key ∈ store.keys ∧ Listed start delimiter key := by
  rw [List.mem_map]
  constructor
  · rintro ⟨info, hinfo, rfl⟩
    obtain ⟨hhead, hlisted⟩ := mem_list_objects.1 hinfo
    exact ⟨mem_keys_of_head? hhead, hlisted⟩
  · rintro ⟨hkey, hlisted⟩
    obtain ⟨info, hinfo⟩ := Option.isSome_iff_exists.1 (isSome_head?_of_mem hkey)
    obtain rfl := key_of_head? hinfo
    exact ⟨info, mem_list_objects.2 ⟨hinfo, hlisted⟩, rfl⟩

theorem list_objects_pairwise (store : Store) (start : String) (delimiter : Option String) :
    (store.list start delimiter).objects.Pairwise (·.key < ·.key) := by
  rw [list_objects]
  refine store.sorted.filterMap _ fun entry entry' hlt info hinfo info' hinfo' => ?_
  rw [← (shown_eq_some_iff.1 hinfo).2, ← (shown_eq_some_iff.1 hinfo').2]
  exact hlt

theorem list_keys_pairwise (store : Store) (start : String) (delimiter : Option String) :
    ((store.list start delimiter).objects.map (·.key)).Pairwise (· < ·) :=
  List.pairwise_map.2 (store.list_objects_pairwise start delimiter)

/-! ## The folders -/

theorem mem_list_folders : folder ∈ (store.list start delimiter).folders ↔
    ∃ key ∈ store.keys, RolledUp start delimiter key folder := by
  rw [list, Fields.mem_names_ofList, under_eq]
  simp only [List.mem_map, List.mem_filterMap, keys]
  constructor
  · rintro ⟨⟨f, u⟩, ⟨⟨key, rest, object⟩, ⟨⟨k, o⟩, hentry, hreads⟩, hfolder⟩, rfl⟩
    obtain ⟨r, hrest, e⟩ := Option.map_eq_some_iff.1 hreads
    cases e
    obtain ⟨f', hf, e⟩ := Option.map_eq_some_iff.1 hfolder
    cases e
    obtain rfl := dropStart?_eq_some.1 hrest
    exact ⟨_, ⟨_, hentry, rfl⟩, rolledUp_append_iff.2 hf⟩
  · rintro ⟨key, ⟨⟨k, object⟩, hentry, rfl⟩, hrolled⟩
    obtain ⟨rest, rfl⟩ := startsWith_iff.1 hrolled.startsWith
    refine ⟨(folder, ()), ⟨(start ++ rest, rest, object), ⟨(start ++ rest, object), hentry, ?_⟩, ?_⟩, rfl⟩
    · rw [reads?, dropStart?_append, Option.map_some]
    · rw [rolledUp_append_iff.1 hrolled, Option.map_some]

theorem list_folders_pairwise (store : Store) (start : String) (delimiter : Option String) :
    (store.list start delimiter).folders.Pairwise (· < ·) :=
  List.pairwise_map.2 (Fields.sorted_ofList _)

/-! ## The listing as a whole -/

/-- The number of places where a listing shows a key: as an object, or within a folder. -/
def places (listing : Listing) (key : String) : Nat :=
  listing.objects.countP (·.key = key) + listing.folders.countP (startsWith · key)

theorem nodup_of_increasing {α : Type} {l : List α} {f : α → String} (h : l.Pairwise (f · < f ·)) : l.Nodup := by
  apply h.imp
  rintro a b hlt rfl
  exact String.lt_irrefl _ hlt

theorem countP_eq_one {α : Type} [DecidableEq α] {l : List α} {f : α → String} {p : α → Bool} {a : α}
    (hl : l.Pairwise (f · < f ·)) (ha : a ∈ l) (h : ∀ b ∈ l, p b = true ↔ b = a) : l.countP p = 1 := by
  rw [List.countP_congr (q := (· == a)) fun b hb => (h b hb).trans beq_iff_eq.symm]
  exact List.count_eq_one_of_mem (nodup_of_increasing hl) ha

theorem rolledUp_of_mem_folders (hfolder : folder ∈ (store.list start delimiter).folders)
    (h : startsWith folder key = true) : RolledUp start delimiter key folder := by
  obtain ⟨other, -, hrolled⟩ := mem_list_folders.1 hfolder
  exact hrolled.of_startsWith h

theorem places_of_listed (hkey : key ∈ store.keys) (h : Listed start delimiter key) :
    places (store.list start delimiter) key = 1 := by
  obtain ⟨info, hinfo⟩ := Option.isSome_iff_exists.1 (isSome_head?_of_mem hkey)
  obtain rfl := key_of_head? hinfo
  have hobjects : (store.list start delimiter).objects.countP (·.key = info.key) = 1 := by
    refine countP_eq_one (list_objects_pairwise ..) (mem_list_objects.2 ⟨hinfo, h⟩) fun other hother => ?_
    rw [decide_eq_true_iff]
    refine ⟨fun e => ?_, congrArg _⟩
    exact Option.some.inj ((mem_list_objects.1 hother).1.symm.trans (e ▸ hinfo))
  have hfolders : (store.list start delimiter).folders.countP (startsWith · info.key) = 0 :=
    List.countP_eq_zero.2 fun folder hfolder hstarts => (rolledUp_of_mem_folders hfolder hstarts).not_listed h
  rw [places, hobjects, hfolders]

theorem places_of_rolledUp (hkey : key ∈ store.keys) (h : RolledUp start delimiter key folder) :
    places (store.list start delimiter) key = 1 := by
  have hobjects : (store.list start delimiter).objects.countP (·.key = key) = 0 :=
    List.countP_eq_zero.2 fun info hinfo e =>
      h.not_listed (of_decide_eq_true e ▸ (mem_list_objects.1 hinfo).2)
  have hfolders : (store.list start delimiter).folders.countP (startsWith · key) = 1 := by
    refine countP_eq_one (list_folders_pairwise ..) (mem_list_folders.2 ⟨key, hkey, h⟩) fun other hother => ?_
    exact ⟨fun hstarts => (rolledUp_of_mem_folders hother hstarts).unique h, fun e => e ▸ h.startsWith_folder⟩
  rw [places, hobjects, hfolders]

theorem places_of_not_startsWith (h : ¬ startsWith start key = true) :
    places (store.list start delimiter) key = 0 := by
  have hobjects : (store.list start delimiter).objects.countP (·.key = key) = 0 :=
    List.countP_eq_zero.2 fun info hinfo e => h (of_decide_eq_true e ▸ (mem_list_objects.1 hinfo).2.startsWith)
  have hfolders : (store.list start delimiter).folders.countP (startsWith · key) = 0 :=
    List.countP_eq_zero.2 fun folder hfolder hstarts => h (rolledUp_of_mem_folders hfolder hstarts).startsWith
  rw [places, hobjects, hfolders]

/-- **What a listing shows of a store**: the objects and folders that stand for its keys, in the order of their octets,
and each key that has the start in one place. -/
structure Depicts (store : Store) (start : String) (delimiter : Option String) (listing : Listing) : Prop where
  objects_increasing : listing.objects.Pairwise (Utf8.encode ·.key < Utf8.encode ·.key)
  mem_objects : ∀ info, info ∈ listing.objects ↔ store.head? info.key = some info ∧ Listed start delimiter info.key
  folders_increasing : listing.folders.Pairwise (Utf8.encode · < Utf8.encode ·)
  mem_folders : ∀ folder, folder ∈ listing.folders ↔ ∃ key ∈ store.keys, RolledUp start delimiter key folder
  once : ∀ key ∈ store.keys, places listing key = if startsWith start key then 1 else 0

/-- **A listing is what its definition says**, for every start and delimiter, also empty ones. -/
theorem list_exact (store : Store) (start : String) (delimiter : Option String) :
    Depicts store start delimiter (store.list start delimiter) where
  objects_increasing := (list_objects_pairwise store start delimiter).imp Utf8.encode_lt_encode_iff.2
  mem_objects _ := mem_list_objects
  folders_increasing := (list_folders_pairwise store start delimiter).imp Utf8.encode_lt_encode_iff.2
  mem_folders _ := mem_list_folders
  once key hkey := by
    split
    · rename_i hstart
      rcases listed_or_rolledUp hstart with hlisted | ⟨folder, hrolled⟩
      · exact places_of_listed hkey hlisted
      · exact places_of_rolledUp hkey hrolled
    · rename_i hstart
      exact places_of_not_startsWith hstart

end Store
end Intake
