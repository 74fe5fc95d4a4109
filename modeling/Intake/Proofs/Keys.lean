import Intake.Backlog
import Intake.Proofs.Store
import Intake.TableLock
import Mathlib.Data.List.Infix
/-!
# Keys — the engine's own objects stand apart

A key falls into its directory and its name in one way.  The objects of a table that belong to the engine, its lock, its
backfill marker, the claims on that and the pointers of the backlog, have different keys, and none of them stands beside
the data of a marker below the table prefix.
-/
namespace Intake

theorem isDigit_of_mem_paddedDecimal {width n : Nat} {c : Char} (h : c ∈ (paddedDecimal width n).toList) :
    c.isDigit = true := by
  simp only [paddedDecimal, String.toList_ofList, List.mem_append, List.mem_replicate] at h
  rcases h with ⟨-, rfl⟩ | h
  · decide
  · exact isDigit_of_mem_decimal h

/-- The text of an instant has no characters but digits, signs and three marks. -/
theorem Timestamp.notMem_compactText {c : Char} (hdigit : c.isDigit = false) (hother : c ∉ ['+', '-', 'T', '.', 'Z'])
    (t : Timestamp) : c ∉ t.compactText.toList := by
  have hnumber : ∀ width n, c ∉ (paddedDecimal width n).toList := fun width n h => by
    rw [isDigit_of_mem_paddedDecimal h] at hdigit
    cases hdigit
  simp only [List.mem_cons, List.not_mem_nil, or_false, not_or] at hother
  have hyear : ∀ year, c ∉ (yearText year).toList := fun year => by
    unfold yearText
    split
    · simp [hnumber, hother]
    · split <;> simp [hnumber, hother]
  simp [compactText, hyear, hnumber, hother]

namespace Key

theorem cutTextLast?_slash (before : String) {after : String} (h : '/' ∉ after.toList) :
    cutTextLast? "/" (before ++ "/" ++ after) = some (before, after) := by
  unfold cutTextLast?
  rw [String.toList_append, String.toList_append, show "/".toList = ['/'] from rfl, List.append_assoc,
    Text.cutLast?_of_notMem before.toList (by simp) h]
  simp

theorem cutTextLast?_slash_none {s : String} (h : '/' ∉ s.toList) : cutTextLast? "/" s = none := by
  unfold cutTextLast?
  rw [show "/".toList = ['/'] from rfl, Text.cutLast?_eq_none h]
  rfl

theorem name_of_slash (dir : String) {n : String} (h : '/' ∉ n.toList) : name (dir ++ "/" ++ n) = n := by
  simp [name, cutTextLast?_slash dir h]

theorem directory_of_slash (dir : String) {n : String} (h : '/' ∉ n.toList) : directory (dir ++ "/" ++ n) = dir := by
  simp [directory, cutTextLast?_slash dir h]

theorem join_of_ne {dir : String} (h : dir ≠ "") (n : String) : join dir n = dir ++ "/" ++ n := by
  rw [join, String.isEmpty_eq_false_iff.2 h]
  rfl

theorem name_join (dir : String) {n : String} (h : '/' ∉ n.toList) : name (join dir n) = n := by
  unfold join
  split
  · simp [name, cutTextLast?_slash_none h]
  · exact name_of_slash dir h

theorem directory_join (dir : String) {n : String} (h : '/' ∉ n.toList) : directory (join dir n) = dir := by
  unfold join
  split
  · rename_i he
    simp [directory, cutTextLast?_slash_none h, String.isEmpty_iff.1 he]
  · exact directory_of_slash dir h

/-- A key without a slash, or a directory, a slash and a name. -/
theorem eq_directory_name (key : String) :
    '/' ∉ key.toList ∨ key = directory key ++ "/" ++ name key ∧ '/' ∉ (name key).toList := by
  by_cases h : '/' ∈ key.toList
  · right
    obtain ⟨before, after, e, ha⟩ : ∃ before after, key.toList = before ++ '/' :: after ∧ '/' ∉ after := by
      obtain ⟨a, b, e, hn⟩ := List.eq_append_cons_of_mem (List.mem_reverse.2 h)
      exact ⟨b.reverse, a.reverse, by rw [← List.reverse_reverse key.toList, e]; simp, by simpa using hn⟩
    have hk : key = String.ofList before ++ "/" ++ String.ofList after := by
      rw [← String.toList_inj, e]; simp
    rw [hk, directory_of_slash _ (by simpa using ha), name_of_slash _ (by simpa using ha)]
    exact ⟨rfl, by simpa using ha⟩
  · exact .inl h

theorem slash_notMem_name (key : String) : '/' ∉ (name key).toList := by
  rcases eq_directory_name key with h | ⟨-, h⟩
  · simpa [name, cutTextLast?_slash_none h] using h
  · exact h

/-- A listing up to the next slash shows only keys that have none after its start. -/
theorem eq_append_of_shown {start key : String} {object : StoredObject} {info : ObjectInfo}
    (h : Store.shown start (some "/") (key, object) = some info) : ∃ rest, key = start ++ rest ∧ '/' ∉ rest.toList := by
  obtain ⟨rest, hrest, h⟩ := Option.bind_eq_some_iff.1 h
  refine ⟨rest, dropStart?_eq_some.1 hrest, fun hmem => ?_⟩
  have hcut : (cutText? "/" rest).isSome = true := by
    unfold cutText?
    rw [Option.isSome_map, Text.cut?_isSome_iff]
    exact (List.singleton_infix_iff '/' rest.toList).2 hmem
  obtain ⟨⟨before, after⟩, hcut⟩ := Option.isSome_iff_exists.1 hcut
  have hfolder : (Store.folder? start (some "/") rest).isSome = true := by
    simp [Store.folder?, hcut, Option.filter]
  rw [if_pos hfolder] at h
  cases h

/-- A listing up to the next slash shows only what is directly in the directory. -/
theorem directory_of_shown {dir key : String} {object : StoredObject} {info : ObjectInfo}
    (h : Store.shown (dir ++ "/") (some "/") (key, object) = some info) : directory key = dir := by
  obtain ⟨rest, rfl, hrest⟩ := eq_append_of_shown h
  exact directory_of_slash dir hrest

/-- What stands before the names at a table prefix: the prefix and a slash, if there is one. -/
def root (tablePrefix : String) : List Char := if tablePrefix.isEmpty then [] else tablePrefix.toList ++ ['/']

theorem root_cases (tablePrefix : String) : root tablePrefix = [] ∨ ∃ dir, root tablePrefix = dir ++ ['/'] := by
  unfold root
  split
  · exact .inl rfl
  · exact .inr ⟨_, rfl⟩

theorem root_inj {tablePrefix other : String} (h : root tablePrefix = root other) : tablePrefix = other := by
  unfold root at h
  rw [← String.toList_inj]
  split at h <;> split at h
  · rename_i he he'
    rw [String.isEmpty_iff.1 he, String.isEmpty_iff.1 he']
  · simp at h
  · simp at h
  · exact List.append_cancel_right h

theorem toList_join (tablePrefix name : String) : (join tablePrefix name).toList = root tablePrefix ++ name.toList := by
  unfold join root
  split
  · rfl
  · simp

/-- A key lies in a backlog folder if the folder stands in it, with a slash before it. -/
theorem isBacklog_iff (key : String) : isBacklog key = true ↔ "/_backlog/".toList <:+: '/' :: key.toList := by
  rw [isBacklog, Bool.or_eq_true, holdsText_iff, List.infix_cons_iff, startsWith, List.isPrefixOf_iff_prefix,
    show "/_backlog/".toList = '/' :: "_backlog/".toList from rfl, List.cons_prefix_cons]
  simp only [true_and]

/-- Whether a key lies in a backlog folder does not depend on its name. -/
theorem isBacklog_join_iff (dir : String) {name : String} (h : '/' ∉ name.toList) :
    isBacklog (join dir name) = true ↔ "/_backlog/".toList <:+: '/' :: root dir := by
  rw [isBacklog_iff, toList_join, ← List.cons_append]
  refine ⟨fun hin => ?_, fun hin => hin.trans (List.prefix_append _ _).isInfix⟩
  rw [show "/_backlog/".toList = "/_backlog".toList ++ ['/'] from rfl] at hin ⊢
  exact Text.infix_of_append hin h

theorem isBacklog_of_root {key : String} (h : "/_backlog/".toList <:+: '/' :: root (directory key)) :
    isBacklog key = true := by
  have hroot : root (directory key) ≠ [] := by
    intro hnil
    rw [hnil] at h
    exact absurd h.length_le (by decide)
  rw [isBacklog_iff]
  refine h.trans (List.IsPrefix.isInfix (List.cons_prefix_cons.2 ⟨rfl, ?_⟩))
  unfold root at hroot ⊢
  split at hroot
  · exact absurd rfl hroot
  · rename_i hdir
    rw [if_neg hdir]
    rcases eq_directory_name key with hslash | ⟨hkey, -⟩
    · exact absurd (by simp [directory, cutTextLast?_slash_none hslash]) hdir
    · refine ⟨(name key).toList, ?_⟩
      conv_rhs => rw [hkey, String.toList_append, String.toList_append]
      rfl

end Key

def TableLock.keyOf (tablePrefix : String) : String := Key.join tablePrefix Key.lockName

/-- What the lock of a table says, if there is one. -/
def Store.lockBody (store : Store) (jobPrefix tablePrefix : String) : Option LockBody :=
  (store.get? (TableLock.keyOf tablePrefix)).bind fun object => LockBody.ofOctets? jobPrefix object.body

theorem Store.lockBody_write_self (store : Store) (jobPrefix tablePrefix : String) (body : Octets) (now : Timestamp) :
    (store.write (TableLock.keyOf tablePrefix) body now).lockBody jobPrefix tablePrefix =
      LockBody.ofOctets? jobPrefix body := by
  rw [lockBody, get?_write_self, Option.bind_some]

theorem Store.lockBody_write_of_ne (store : Store) (jobPrefix : String) {tablePrefix key : String} (body : Octets)
    (now : Timestamp) (h : key ≠ TableLock.keyOf tablePrefix) :
    (store.write key body now).lockBody jobPrefix tablePrefix = store.lockBody jobPrefix tablePrefix := by
  rw [lockBody, get?_write_of_ne _ _ _ h.symm, ← lockBody]

theorem Store.lockBody_remove_self (store : Store) (jobPrefix tablePrefix : String) :
    (store.remove (TableLock.keyOf tablePrefix)).lockBody jobPrefix tablePrefix = none := by
  rw [lockBody, get?_remove_self, Option.bind_none]

theorem Store.lockBody_remove_of_ne (store : Store) (jobPrefix : String) {tablePrefix key : String}
    (h : key ≠ TableLock.keyOf tablePrefix) :
    (store.remove key).lockBody jobPrefix tablePrefix = store.lockBody jobPrefix tablePrefix := by
  rw [lockBody, get?_remove_of_ne _ h.symm, ← lockBody]

def BackfillMarker.keyOf (tablePrefix : String) : String := Key.join tablePrefix Key.backfillName

theorem TableLock.name_keyOf (tablePrefix : String) : Key.name (keyOf tablePrefix) = "_bqlock" :=
  Key.name_join _ (by decide)

theorem TableLock.directory_keyOf (tablePrefix : String) : Key.directory (keyOf tablePrefix) = tablePrefix :=
  Key.directory_join _ (by decide)

theorem BackfillMarker.name_keyOf (tablePrefix : String) : Key.name (keyOf tablePrefix) = "_BACKFILL" :=
  Key.name_join _ (by decide)

theorem BackfillMarker.directory_keyOf (tablePrefix : String) : Key.directory (keyOf tablePrefix) = tablePrefix :=
  Key.directory_join _ (by decide)

namespace Claim

theorem slash_notMem_claimName (marker : String) (created : Timestamp) :
    '/' ∉ (Key.claimStart ++ Key.name marker ++ "_created_at_" ++ created.compactText).toList := by
  simp [Key.claimStart, Key.slash_notMem_name, Timestamp.notMem_compactText (c := '/') (by decide) (by decide) created]

theorem directory_key (marker : String) (created : Timestamp) :
    Key.directory (key marker created) = Key.directory marker :=
  Key.directory_join _ (slash_notMem_claimName marker created)

theorem name_key (marker : String) (created : Timestamp) :
    Key.name (key marker created) = Key.claimStart ++ Key.name marker ++ "_created_at_" ++ created.compactText :=
  Key.name_join _ (slash_notMem_claimName marker created)

/-- A claim depends on the directory and the name of its marker only. -/
theorem key_congr {marker other : String} (hdirectory : Key.directory marker = Key.directory other)
    (hname : Key.name marker = Key.name other) (created : Timestamp) : key marker created = key other created := by
  rw [key, key, hdirectory, hname]

/-- The key of a claim is no key of a lock. -/
theorem key_ne_lock (marker tablePrefix : String) (created : Timestamp) :
    key marker created ≠ TableLock.keyOf tablePrefix := by
  intro h
  have := congrArg Key.name h
  rw [name_key, TableLock.name_keyOf, ← String.toList_inj] at this
  simp [Key.claimStart] at this

/-- The key of a claim is no key of a backfill marker. -/
theorem key_ne_backfill (marker tablePrefix : String) (created : Timestamp) :
    key marker created ≠ BackfillMarker.keyOf tablePrefix := by
  intro h
  have := congrArg Key.name h
  rw [name_key, BackfillMarker.name_keyOf, ← String.toList_inj] at this
  simp [Key.claimStart] at this

/-- A claim lies in a backlog folder only if its marker does. -/
theorem isBacklog_key {marker : String} {created : Timestamp} (h : Key.isBacklog (key marker created) = true) :
    Key.isBacklog marker = true :=
  Key.isBacklog_of_root ((Key.isBacklog_join_iff _ (slash_notMem_claimName marker created)).1 h)

end Claim

theorem BackfillMarker.keyOf_ne_lock (tablePrefix other : String) : keyOf tablePrefix ≠ TableLock.keyOf other := by
  intro h
  have := congrArg Key.name h
  rw [name_keyOf, TableLock.name_keyOf] at this
  exact absurd this (by decide)

namespace Backlog

/-- What a pointer is: the backlog folder of its table and what follows the table prefix in its marker. -/
theorem pointerFor_eq_ok {tablePrefix marker pointer : String} (h : pointerFor tablePrefix marker = .ok pointer) :
    ∃ rest, rest ≠ "" ∧ marker = tablePrefix ++ "/" ++ rest ∧ pointer = folder tablePrefix ++ rest := by
  unfold pointerFor at h
  split at h
  · rename_i rest hrest
    cases h
    obtain ⟨hsome, hne⟩ := Option.filter_eq_some_iff.1 hrest
    simp only [Option.bind_eq_bind, Option.bind_eq_some_iff, dropStart?_eq_some] at hsome
    obtain ⟨x, rfl, rfl⟩ := hsome
    refine ⟨rest, ?_, by rw [String.append_assoc], rfl⟩
    rintro rfl
    simp at hne
  · cases h

/-- What stands at the table prefix lies in its backlog folder only if its name says so. -/
theorem join_notMem_folder (tablePrefix : String) {name : String} (h : ¬ "_backlog/".toList <+: name.toList) :
    startsWith (folder tablePrefix) (Key.join tablePrefix name) = false := by
  rw [← Bool.not_eq_true, startsWith_iff]
  rintro ⟨rest, hrest⟩
  refine h ⟨rest.toList, ?_⟩
  rw [← String.toList_inj] at hrest
  unfold folder Key.join at hrest
  split at hrest
  · simpa [Key.backlogFolder] using hrest.symm
  · simpa [Key.backlogFolder] using hrest.symm

theorem lock_notMem_folder (tablePrefix : String) : startsWith (folder tablePrefix) (TableLock.keyOf tablePrefix) = false :=
  join_notMem_folder tablePrefix (by decide)

theorem backfill_notMem_folder (tablePrefix : String) :
    startsWith (folder tablePrefix) (BackfillMarker.keyOf tablePrefix) = false :=
  join_notMem_folder tablePrefix (by decide)

theorem claim_notMem_folder (tablePrefix : String) (created : Timestamp) :
    startsWith (folder tablePrefix) (Claim.key (BackfillMarker.keyOf tablePrefix) created) = false := by
  rw [Claim.key, BackfillMarker.directory_keyOf]
  refine join_notMem_folder tablePrefix ?_
  rintro ⟨rest, h⟩
  simp [Key.claimStart] at h

theorem ne_lock_of_startsWith {tablePrefix pointer : String} (h : startsWith (folder tablePrefix) pointer = true) :
    pointer ≠ TableLock.keyOf tablePrefix := by
  rintro rfl
  rw [lock_notMem_folder] at h
  cases h

/-! ## Several tables -/

theorem toList_folder_eq (tablePrefix : String) :
    (folder tablePrefix).toList = Key.root tablePrefix ++ "_backlog/".toList := by
  rw [folder, String.toList_append, Key.toList_join, List.append_assoc]
  rfl

theorem isBacklog_of_startsWith {tablePrefix key : String} (h : startsWith (folder tablePrefix) key = true) :
    Key.isBacklog key = true := by
  obtain ⟨rest, rfl⟩ := startsWith_iff.1 h
  rw [Key.isBacklog_iff, String.toList_append, toList_folder_eq]
  rcases Key.root_cases tablePrefix with hroot | ⟨dir, hroot⟩
  · exact ⟨[], rest.toList, by rw [hroot]; rfl⟩
  · exact ⟨'/' :: dir, rest.toList, by rw [hroot]; simp⟩

/-- A table lies in the backlog folder of another one if its root does. -/
theorem startsWith_of_root {tablePrefix other : String} {rest : List Char}
    (h : Key.root other = Key.root tablePrefix ++ "_backlog/".toList ++ rest) :
    startsWith (folder tablePrefix) (other ++ "/") = true := by
  rw [startsWith, List.isPrefixOf_iff_prefix, toList_folder_eq]
  refine ⟨rest, ?_⟩
  rw [← h, Key.root]
  split
  · rename_i he
    rw [Key.root, if_pos he] at h
    simp at h
  · rw [String.toList_append]
    rfl

/-- What stands at a table prefix lies in a backlog folder only if the table does. -/
theorem join_notMem_folder_of_apart {tablePrefix other name : String} (hname : '/' ∉ name.toList)
    (h : startsWith (folder tablePrefix) (other ++ "/") = false) :
    startsWith (folder tablePrefix) (Key.join other name) = false := by
  rw [← Bool.not_eq_true] at h ⊢
  intro hin
  obtain ⟨rest, hkey⟩ := startsWith_iff.1 hin
  rw [← String.toList_inj, String.toList_append, Key.toList_join, toList_folder_eq] at hkey
  -- the folder ends with a slash, so it does not reach into the name
  rcases List.append_eq_append_iff.1 hkey with ⟨tail, hfolder, htail⟩ | ⟨inner, hroot, -⟩
  · rcases List.eq_nil_or_concat tail with rfl | ⟨most, last, rfl⟩
    · have hroot : Key.root other = Key.root tablePrefix ++ "_backlog/".toList ++ [] := by simpa using hfolder.symm
      exact h (startsWith_of_root hroot)
    · have hlast : '/' = last := by
        rw [show "_backlog/".toList = "_backlog".toList ++ ['/'] from rfl, List.concat_eq_append, ← List.append_assoc,
          ← List.append_assoc] at hfolder
        exact List.singleton_inj.1 (List.append_inj' hfolder rfl).2
      exact hname (by rw [htail, hlast]; simp)
  · exact h (startsWith_of_root hroot)

theorem root_eq_of_append {tablePrefix other : String} {a b more : List Char}
    (hroot : Key.root other = Key.root tablePrefix ++ more)
    (h : "_backlog/".toList ++ a = more ++ ("_backlog/".toList ++ b))
    (hother : startsWith (folder tablePrefix) (other ++ "/") = false) : more = [] := by
  rcases List.eq_nil_or_concat more with rfl | ⟨most, last, rfl⟩
  · rfl
  · exfalso
    have hlast : last = '/' := by
      rcases Key.root_cases other with hnil | ⟨dir, hdir⟩
      · rw [hnil] at hroot
        simp at hroot
      · rw [hdir, List.concat_eq_append, ← List.append_assoc] at hroot
        exact (List.singleton_inj.1 (List.append_inj' hroot rfl).2).symm
    subst hlast
    have hin : ∃ inner, most.concat '/' = "_backlog/".toList ++ inner := by
      rcases List.append_eq_append_iff.1 h with ⟨inner, hmore, -⟩ | ⟨tail, hfolder, -⟩
      · exact ⟨inner, hmore⟩
      · rcases List.eq_nil_or_concat tail with rfl | ⟨most', last, rfl⟩
        · exact ⟨[], by simpa using hfolder.symm⟩
        · -- the only slash of the folder is its last character
          have hbody : "_backlog".toList = most ++ '/' :: most' := by
            rw [List.concat_eq_append, List.concat_eq_append, ← List.append_assoc,
              show "_backlog/".toList = "_backlog".toList ++ ['/'] from rfl] at hfolder
            simpa using (List.append_inj' hfolder rfl).1
          exact absurd (show '/' ∈ "_backlog".toList by rw [hbody]; simp) (by decide)
    obtain ⟨inner, hinner⟩ := hin
    rw [hinner, ← List.append_assoc] at hroot
    rw [startsWith_of_root hroot] at hother
    cases hother

/-- **The backlogs of two tables have nothing in common**, unless one of the tables lies in that of the other. -/
theorem eq_of_startsWith {tablePrefix other key : String} (h : startsWith (folder tablePrefix) key = true)
    (h' : startsWith (folder other) key = true) (htable : startsWith (folder other) (tablePrefix ++ "/") = false)
    (hother : startsWith (folder tablePrefix) (other ++ "/") = false) : tablePrefix = other := by
  obtain ⟨a, rfl⟩ := startsWith_iff.1 h
  obtain ⟨b, hkey⟩ := startsWith_iff.1 h'
  rw [← String.toList_inj, String.toList_append, String.toList_append, toList_folder_eq, toList_folder_eq,
    List.append_assoc, List.append_assoc] at hkey
  refine Key.root_inj ?_
  rcases List.append_eq_append_iff.1 hkey with ⟨more, hroot, hrest⟩ | ⟨more, hroot, hrest⟩
  · rw [hroot, root_eq_of_append hroot hrest hother, List.append_nil]
  · rw [hroot, root_eq_of_append hroot hrest htable, List.append_nil]

end Backlog
end Intake
