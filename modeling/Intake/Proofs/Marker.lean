import Intake.Proofs.Plan
/-!
# Marker — the engine's own objects do not matter to the markers of a table

A marker below its table prefix, and in no backlog folder, has a pointer that leads back to it
(`Backlog.markerFor_pointer`).  If it lies strictly below, nothing that the engine writes for the table, its lock, its
backfill marker, the claims on that and the pointers, stands beside the marker or is one of its configuration files.
-/
namespace Intake

/-- **A marker that can wait in the backlog of a table**: strictly below the table prefix, in no backlog folder. -/
structure IsMarker (tablePrefix marker : String) : Prop where
  table : tablePrefix ≠ ""
  below : ∃ rest, marker = tablePrefix ++ "/" ++ rest
  strict : Key.directory marker ≠ tablePrefix
  outside : Key.isBacklog marker = false

namespace ConfigFiles

theorem eq_of_mem_directoriesOf : ∀ {l dir : List Char}, dir ∈ directoriesOf l → ∃ rest, l = dir ++ '/' :: rest
  | [], _, h => by simp [directoriesOf] at h
  | c :: l, dir, h => by
    simp only [directoriesOf] at h
    have hdeeper : ∀ {d}, d ∈ (directoriesOf l).map (c :: ·) → ∃ rest, c :: l = d ++ '/' :: rest := by
      intro d hd
      obtain ⟨d', hd', rfl⟩ := List.mem_map.1 hd
      obtain ⟨rest, rfl⟩ := eq_of_mem_directoriesOf hd'
      exact ⟨rest, rfl⟩
    split at h
    · rename_i hc
      rcases List.mem_cons.1 h with rfl | h
      · exact ⟨l, by rw [hc]; rfl⟩
      · exact hdeeper h
    · exact hdeeper h

theorem suffix_of_fits_sql {name : String} (h : fits "*.sql" name = true) : ".sql".toList <:+ name.toList := by
  have hcut : cutText? "*" "*.sql" = some ("", ".sql") := by decide
  simp only [fits, hcut, Bool.and_eq_true] at h
  exact List.isSuffixOf_iff_suffix.1 h.2

theorem folders_eq (key : String) : folders key =
    (((directoriesOf key.toList).filter fun dir => !dir.isEmpty).reverse.map fun dir =>
      String.ofList dir ++ "/_config") ++ ["_config"] := by
  rw [folders, List.map_append]
  congr 1
  refine List.map_congr_left fun dir hdir => ?_
  have hne : String.ofList dir ≠ "" := fun he => by
    rw [← String.toList_inj, String.toList_ofList] at he
    rw [he, List.mem_reverse, List.mem_filter] at hdir
    cases hdir.2
  rw [Key.join_of_ne hne, String.append_assoc]
  rfl

/-- A folder that a key looks into belongs to the root or to a directory above the key. -/
theorem eq_of_mem_folders {key folder : String} (h : folder ∈ folders key) :
    folder = "_config" ∨ ∃ dir rest, folder = dir ++ "/_config" ∧ key = dir ++ "/" ++ rest := by
  rw [folders_eq, List.mem_append, List.mem_map, List.mem_singleton] at h
  obtain ⟨dir, hdir, rfl⟩ | rfl := h
  · rw [List.mem_reverse, List.mem_filter] at hdir
    obtain ⟨rest, hrest⟩ := eq_of_mem_directoriesOf hdir.1
    refine .inr ⟨String.ofList dir, String.ofList rest, rfl, ?_⟩
    rw [← String.toList_inj, hrest]; simp
  · exact .inl rfl

end ConfigFiles

/-- The texts before two places of a text, the later of which is its last slash. -/
theorem prefix_of_last_slash {front back dir name : List Char} (h : front ++ '/' :: back = dir ++ '/' :: name)
    (hname : '/' ∉ name) : front ++ ['/'] <+: dir ++ ['/'] := by
  have hf : front ++ ['/'] <+: dir ++ '/' :: name := ⟨back, by rw [← h]; simp⟩
  have hd : dir ++ ['/'] <+: dir ++ '/' :: name := ⟨name, by simp⟩
  refine List.prefix_of_prefix_length_le hf hd (Nat.le_of_not_lt fun hlt => hname ?_)
  -- were the first place the later one, its slash would stand in the name
  obtain ⟨t, ht⟩ := List.prefix_of_prefix_length_le hd hf (Nat.le_of_lt hlt)
  have hname' : name = t ++ back := by
    have : dir ++ ['/'] ++ name = dir ++ ['/'] ++ (t ++ back) := by
      rw [← List.append_assoc, ht]; simp [h]
    exact List.append_cancel_left this
  have hne : t ≠ [] := by
    rintro rfl
    rw [List.append_nil] at ht
    rw [ht] at hlt
    exact Nat.lt_irrefl _ hlt
  have hlast : t.getLast? = some '/' := by
    have := congrArg List.getLast? ht
    rwa [List.getLast?_append_of_ne_nil _ hne, List.getLast?_append_of_ne_nil _ (by simp)] at this
  rw [hname']
  exact List.mem_append_left _ (List.mem_of_getLast? hlast)

namespace Backlog

theorem folder_eq {tablePrefix : String} (h : tablePrefix ≠ "") :
    folder tablePrefix = tablePrefix ++ "/_backlog/" := by
  rw [folder, Key.join_of_ne h, ← String.toList_inj]
  simp [Key.backlogFolder]

theorem toList_folder {tablePrefix : String} (h : tablePrefix ≠ "") (rest : String) :
    (folder tablePrefix ++ rest).toList =
      (tablePrefix.toList ++ "/_backlog".toList) ++ '/' :: rest.toList := by
  rw [folder_eq h]
  simp

/-- What lies under the backlog folder lies in a directory of it. -/
theorem folder_isPrefix {tablePrefix key : String} (htable : tablePrefix ≠ "")
    (h : startsWith (folder tablePrefix) key = true) :
    tablePrefix.toList ++ "/_backlog/".toList <+: (Key.directory key).toList ++ ['/'] := by
  obtain ⟨rest, rfl⟩ := startsWith_iff.1 h
  rcases Key.eq_directory_name (folder tablePrefix ++ rest) with hno | ⟨hkey, hname⟩
  · rw [toList_folder htable] at hno
    exact absurd (by simp) hno
  · have hlist : (tablePrefix.toList ++ "/_backlog".toList) ++ '/' :: rest.toList =
        (Key.directory (folder tablePrefix ++ rest)).toList ++ '/' :: (Key.name (folder tablePrefix ++ rest)).toList := by
      rw [← toList_folder htable]
      have hl := congrArg String.toList hkey
      simpa using hl
    have hpre := prefix_of_last_slash hlist hname
    rwa [List.append_assoc] at hpre

end Backlog

/-- A text that begins with a separator, a word and the separator again does so no earlier than where it stands. -/
theorem not_prefix_of_separated (sep : Char) (word : List Char) {b rest : List Char} (hword : sep ∉ word) (hb : b ≠ [])
    (h : ¬ sep :: word ++ [sep] <+: b ++ [sep]) : ¬ sep :: word ++ [sep] <+: b ++ (sep :: word ++ [sep] ++ rest) := by
  rintro ⟨t, ht⟩
  obtain ⟨c, b, rfl⟩ := List.exists_cons_of_ne_nil hb
  simp only [List.cons_append, List.append_assoc, List.cons.injEq] at ht
  obtain ⟨rfl, ht⟩ := ht
  -- The word ends at the first separator after it, so all of it stands in what is put before.
  obtain ⟨more, rfl, hmore⟩ | ⟨more, rfl, hmore⟩ := List.append_eq_append_iff.1 ht
  · refine h ?_
    cases more with
    | nil => simp
    | cons d more =>
      obtain ⟨rfl, -⟩ := List.cons.inj hmore
      exact ⟨more ++ [sep], by simp⟩
  · cases more with
    | nil => exact h (by simp)
    | cons d more =>
      obtain ⟨rfl, -⟩ := List.cons.inj hmore
      exact hword (by simp)

/-- **The pointer of a marker leads back to it**, unless the marker lies in a backlog folder itself. -/
theorem Backlog.markerFor_pointer {tablePrefix marker pointer : String} (htable : tablePrefix ≠ "")
    (houtside : Key.isBacklog marker = false) (hpointer : pointerFor tablePrefix marker = .ok pointer) :
    markerFor pointer = marker := by
  obtain ⟨rest, -, rfl, rfl⟩ := pointerFor_eq_ok hpointer
  have hfirst : Text.cut? "/_backlog/".toList (tablePrefix.toList ++ ("/_backlog/".toList ++ rest.toList)) =
      some (tablePrefix.toList, rest.toList) := by
    refine Text.cut?_of_first (by decide) fun b hb hne =>
      not_prefix_of_separated '/' "_backlog".toList (by decide) hne fun hp => ?_
    have hinfix : "/_backlog/".toList <:+: (tablePrefix ++ "/" ++ rest).toList := by
      obtain ⟨front, hfront⟩ := hb
      obtain ⟨t, ht⟩ : "/_backlog/".toList <+: b ++ ['/'] := hp
      refine ⟨front, t ++ rest.toList, ?_⟩
      simp only [String.toList_append, show "/".toList = ['/'] from rfl, ← hfront, List.append_assoc]
      rw [← List.append_assoc "/_backlog/".toList, ht, List.append_assoc]
    rw [Key.isBacklog, holdsText_iff.2 hinfix, Bool.or_true] at houtside
    cases houtside
  have hcut : cutText? "/_backlog/" (folder tablePrefix ++ rest) = some (tablePrefix, rest) := by
    rw [folder_eq htable, cutText?, String.append_assoc, String.toList_append, String.toList_append, hfirst]
    simp
  rw [markerFor, Key.withoutBacklog, hcut]

/-- A claim is no configuration file. -/
theorem Claim.not_isConfigName_key (marker : String) (created : Timestamp) :
    ¬ IsConfigName (Key.name (key marker created)) := by
  rw [name_key]
  rintro (hload | hexternal | hsql)
  · simpa [Key.claimStart] using congrArg String.toList hload
  · simpa [Key.claimStart] using congrArg String.toList hexternal
  · obtain ⟨front, hfront⟩ := ConfigFiles.suffix_of_fits_sql hsql
    have hrev := congrArg List.reverse hfront
    simp [Timestamp.compactText] at hrev

/-- **The claim on a marker does not change its plan.** -/
theorem Store.gives_plan_claim {store : Store} (ctx : Context) {marker : String} {created : Timestamp} (now : Timestamp)
    (hnone : store.get? (Claim.key marker created) = none) :
    (store.write (Claim.key marker created) [] now).gives (Submission.plan ctx marker) =
      store.gives (Submission.plan ctx marker) :=
  gives_plan_write_empty ctx now (fun _ _ _ => Claim.not_isConfigName_key marker created) hnone

namespace IsMarker

variable {tablePrefix marker key : String} (h : IsMarker tablePrefix marker)

include h

/-- No place of the marker's key before a slash ends in a backlog folder. -/
theorem not_isPrefix {dir rest : String} (hmarker : marker = dir ++ "/" ++ rest) :
    ¬ tablePrefix.toList ++ "/_backlog/".toList <+: dir.toList ++ ['/'] := by
  rintro ⟨t, ht⟩
  have hinfix : "/_backlog/".toList <:+: marker.toList := by
    refine ⟨tablePrefix.toList, t ++ rest.toList, ?_⟩
    rw [hmarker]
    simp only [String.toList_append, show "/".toList = ['/'] from rfl, ← ht, List.append_assoc]
  have hout := h.outside
  rw [Key.isBacklog, Bool.or_eq_false_iff] at hout
  rw [holdsText_iff.2 hinfix] at hout
  exact absurd hout.2 (by simp)

theorem eq_directory_name : marker = Key.directory marker ++ "/" ++ Key.name marker := by
  rcases Key.eq_directory_name marker with hno | ⟨hkey, -⟩
  · obtain ⟨rest, hrest⟩ := h.below
    rw [hrest] at hno
    exact absurd (by simp) hno
  · exact hkey

theorem directory_ne_empty : Key.directory marker ≠ "" := by
  intro he
  obtain ⟨rest, hrest⟩ := h.below
  have hlist : tablePrefix.toList ++ '/' :: rest.toList = [] ++ '/' :: (Key.name marker).toList := by
    have hkey := h.eq_directory_name
    rw [he] at hkey
    have hl := congrArg String.toList (hrest.symm.trans hkey)
    simpa using hl
  have hpre := prefix_of_last_slash hlist (Key.slash_notMem_name marker)
  have hlen := hpre.length_le
  refine h.table (String.toList_inj.1 (List.eq_nil_of_length_eq_zero ?_))
  simp only [List.length_append, List.length_singleton, List.nil_append] at hlen
  omega

/-- An object at the table prefix that is no configuration file does not matter to the marker. -/
theorem unread_of_directory (hdir : Key.directory key = tablePrefix) (hname : ¬ IsConfigName (Key.name key)) :
    Unread marker key :=
  ⟨fun he => h.strict (he.symm.trans hdir), fun _ _ _ => hname⟩

theorem unread_lock : Unread marker (TableLock.keyOf tablePrefix) := by
  refine h.unread_of_directory (TableLock.directory_keyOf _) ?_
  rw [TableLock.name_keyOf]
  unfold IsConfigName
  decide

theorem unread_backfill : Unread marker (BackfillMarker.keyOf tablePrefix) := by
  refine h.unread_of_directory (BackfillMarker.directory_keyOf _) ?_
  rw [BackfillMarker.name_keyOf]
  unfold IsConfigName
  decide

theorem unread_claim (created : Timestamp) : Unread marker (Claim.key (BackfillMarker.keyOf tablePrefix) created) := by
  refine h.unread_of_directory ?_ (Claim.not_isConfigName_key _ created)
  rw [Claim.directory_key, BackfillMarker.directory_keyOf]

/-- A pointer of the backlog does not matter to the marker. -/
theorem unread_pointer (hkey : startsWith (Backlog.folder tablePrefix) key = true) : Unread marker key := by
  have hpre := Backlog.folder_isPrefix h.table hkey
  refine ⟨fun he => ?_, fun folder hfolder he => ?_⟩
  · rw [he] at hpre
    exact h.not_isPrefix h.eq_directory_name hpre
  · rw [he] at hpre
    rcases ConfigFiles.eq_of_mem_folders hfolder with rfl | ⟨dir, rest, rfl, hmarker⟩
    · have hlen := hpre.length_le
      simp only [List.length_append, show "/_backlog/".toList.length = 10 from rfl,
        show "_config".toList.length = 7 from rfl, List.length_singleton] at hlen
      omega
    · obtain ⟨more, hmore⟩ := hpre
      rw [String.toList_append, show "/_config".toList = '/' :: "_config".toList from rfl] at hmore
      rcases List.eq_nil_or_concat more with rfl | ⟨more, last, rfl⟩
      · have hrev := congrArg List.reverse hmore
        simp at hrev
      · -- the slash at the end is not part of it, so it ends at or before the directory that the folder belongs to
        rw [List.concat_eq_append, ← List.append_assoc] at hmore
        have hlist : (tablePrefix.toList ++ "/_backlog".toList) ++ '/' :: more =
            dir.toList ++ '/' :: "_config".toList := by
          rw [← (List.append_inj' hmore rfl).1]
          simp
        have hdir := prefix_of_last_slash hlist (by decide)
        rw [List.append_assoc] at hdir
        exact absurd hdir (h.not_isPrefix hmarker)

end IsMarker
end Intake
