import Intake.Proofs.Text
import Intake.Store.Basic
/-!
# Store — the laws of the object store

What a write or a deletion does to the object under its own key and to all others, when it takes place at all, and which
of them a listing notices.
-/
namespace Intake
namespace Fields

variable {α β : Type}

theorem get?_insert_self (name : String) (value : α) (fields : List (String × α)) :
    get? name (insert name value fields) = some value := by
  induction fields with
  | nil => simp [insert, get?]
  | cons head rest ih =>
    obtain ⟨n, v⟩ := head
    simp only [insert]
    split
    · simp [get?]
    · rename_i hne
      split
      · simp [get?]
      · rw [get?, if_neg (Ne.symm hne), ih]

theorem get?_insert_of_ne {name other : String} (value : α) (fields : List (String × α)) (h : other ≠ name) :
    get? other (insert name value fields) = get? other fields := by
  induction fields with
  | nil => simp [insert, get?, h.symm]
  | cons head rest ih =>
    obtain ⟨n, v⟩ := head
    simp only [insert]
    split
    · rename_i e; subst e; simp [get?, h.symm]
    · split
      · rw [get?, if_neg h.symm]
      · simp only [get?, ih]

theorem get?_erase_self (name : String) (fields : List (String × α)) : get? name (erase name fields) = none := by
  induction fields with
  | nil => rfl
  | cons head rest ih =>
    obtain ⟨n, v⟩ := head
    by_cases h : n = name
    · rw [erase, List.filter_cons_of_neg (by simpa using h)]; exact ih
    · rw [erase, List.filter_cons_of_pos (by simpa using h), get?, if_neg h]; exact ih

theorem get?_erase_of_ne {name other : String} (fields : List (String × α)) (h : other ≠ name) :
    get? other (erase name fields) = get? other fields := by
  induction fields with
  | nil => rfl
  | cons head rest ih =>
    obtain ⟨n, v⟩ := head
    by_cases hn : n = name
    · rw [erase, List.filter_cons_of_neg (by simpa using hn), get?, if_neg (hn ▸ h.symm)]; exact ih
    · rw [erase, List.filter_cons_of_pos (by simpa using hn), get?, get?]
      split
      · rfl
      · exact ih

theorem isSome_get?_of_mem {name : String} : ∀ {fields : List (String × α)}, name ∈ fields.map (·.1) →
    (get? name fields).isSome = true
  | (n, v) :: rest, h => by
    rw [get?]
    split
    · rfl
    · rename_i hne
      exact isSome_get?_of_mem ((List.mem_cons.1 h).resolve_left fun e => hne e.symm)

theorem get?_of_mem {name : String} {value : α} : ∀ {fields : List (String × α)}, Sorted fields →
    (name, value) ∈ fields → get? name fields = some value
  | (n, v) :: rest, hsorted, h => by
    obtain ⟨hlt, hrest⟩ := List.pairwise_cons.1 hsorted
    rcases List.mem_cons.1 h with e | h
    · cases e
      rw [get?, if_pos rfl]
    · rw [get?, if_neg fun e => String.lt_irrefl _ (e ▸ hlt _ h), get?_of_mem hrest h]

/-- What overlooks a value, and those that were under its name, does not notice that it is put there. -/
theorem filterMap_insert {f : String × α → Option β} {name : String} {value : α} (h : f (name, value) = none) :
    ∀ {fields : List (String × α)}, (∀ v, (name, v) ∈ fields → f (name, v) = none) →
      (insert name value fields).filterMap f = fields.filterMap f
  | [], _ => by simp [insert, h]
  | (n, v) :: rest, hold => by
    simp only [insert]
    split
    · rename_i e
      subst e
      rw [List.filterMap_cons, List.filterMap_cons, h, hold v List.mem_cons_self]
    · split
      · rw [List.filterMap_cons, h]
      · rw [List.filterMap_cons, List.filterMap_cons,
          filterMap_insert h fun v hv => hold v (List.mem_cons_of_mem _ hv)]

/-- What overlooks a name does not notice that its value is taken away. -/
theorem filterMap_erase {f : String × α → Option β} {name : String} (h : ∀ v, f (name, v) = none)
    (fields : List (String × α)) : (erase name fields).filterMap f = fields.filterMap f := by
  induction fields with
  | nil => rfl
  | cons head rest ih =>
    obtain ⟨n, v⟩ := head
    by_cases hn : n = name
    · subst hn
      rw [erase, List.filter_cons_of_neg (by simp), List.filterMap_cons, h]; exact ih
    · rw [erase, List.filter_cons_of_pos (by simpa using hn), List.filterMap_cons, List.filterMap_cons]
      rw [show rest.filter (fun field => decide (field.1 ≠ name)) = erase name rest from rfl, ih]

theorem mem_names_insert {name other : String} {value : α} {fields : List (String × α)} :
    other ∈ (insert name value fields).map (·.1) ↔ other = name ∨ other ∈ fields.map (·.1) := by
  induction fields with
  | nil => simp [insert]
  | cons head rest ih =>
    obtain ⟨n, v⟩ := head
    simp only [insert]
    split
    · rename_i e; subst e; simp
    · split
      · simp
      · rw [List.map_cons, List.mem_cons, ih, List.map_cons, List.mem_cons]
        exact or_left_comm

theorem names_erase (name : String) (fields : List (String × α)) :
    (erase name fields).map (·.1) = (fields.map (·.1)).filter (· ≠ name) := by
  rw [erase, List.filter_map]; rfl

end Fields

namespace Store

variable {store : Store} {key other : String}

@[simp]
theorem get?_write_self (store : Store) (key : String) (body : Octets) (now : Timestamp) :
    (store.write key body now).get? key = some ⟨body, store.nextGeneration, now⟩ :=
  Fields.get?_insert_self ..

theorem get?_write_of_ne (store : Store) (body : Octets) (now : Timestamp) (h : other ≠ key) :
    (store.write key body now).get? other = store.get? other :=
  Fields.get?_insert_of_ne _ _ h

@[simp]
theorem get?_remove_self (store : Store) (key : String) : (store.remove key).get? key = none :=
  Fields.get?_erase_self ..

theorem get?_remove_of_ne (store : Store) (h : other ≠ key) : (store.remove key).get? other = store.get? other :=
  Fields.get?_erase_of_ne _ h

/-- Every generation in the store was given out before. -/
theorem generation_lt {object : StoredObject} (h : store.get? key = some object) :
    object.generation < store.nextGeneration :=
  store.fresh (key, object) (Fields.mem_of_get? h)

/-- **A write either takes place or is refused**, and then changes nothing. -/
theorem put_cases (store : Store) (key : String) (body : Octets) (precondition : Precondition) (now : Timestamp) :
    (∃ current, store.put key body precondition now = (.conflict current, store)) ∨
      refuses? precondition (store.get? key) = none ∧
        store.put key body precondition now = (.written (decimal store.nextGeneration), store.write key body now) := by
  unfold put
  cases h : refuses? precondition (store.get? key) with
  | some current => exact .inl ⟨current, rfl⟩
  | none => exact .inr ⟨rfl, rfl⟩

/-- **A deletion either takes place or changes nothing.** -/
theorem delete_cases (store : Store) (key : String) (precondition : Precondition) :
    (∃ result, result ≠ .deleted ∧ store.delete key precondition = (result, store)) ∨
      (store.get? key).isSome = true ∧ refuses? precondition (store.get? key) = none ∧
        store.delete key precondition = (.deleted, store.remove key) := by
  unfold delete
  cases h : store.get? key with
  | none => exact .inl ⟨.notFound, nofun, rfl⟩
  | some object =>
    cases h' : refuses? precondition (some object) with
    | some current => exact .inl ⟨.conflict current, nofun, by simp [h']⟩
    | none => exact .inr ⟨rfl, rfl, by simp [h']⟩

/-- A deletion that was refused found another version. -/
theorem delete_eq_conflict {store : Store} {key current : String} {precondition : Precondition}
    (h : (store.delete key precondition).1 = .conflict current) :
    ∃ object, store.get? key = some object ∧ refuses? precondition (some object) = some current ∧
      (store.delete key precondition).2 = store := by
  unfold delete at h ⊢
  cases hobject : store.get? key with
  | none => simp [hobject] at h
  | some object =>
    cases hrefused : refuses? precondition (some object) with
    | none => simp [hobject, hrefused] at h
    | some found =>
      simp only [hobject, hrefused, DeleteResult.conflict.injEq] at h
      exact ⟨object, rfl, by rw [hrefused, h], by simp only [hrefused]⟩

/-- After a deletion that was not refused there is nothing. -/
theorem get?_delete_self {store : Store} {key : String} {precondition : Precondition}
    (h : ∀ current, (store.delete key precondition).1 ≠ .conflict current) :
    (store.delete key precondition).2.get? key = none ∧
      (store.delete key precondition).2.nextGeneration = store.nextGeneration := by
  unfold delete at h ⊢
  cases hobject : store.get? key with
  | none => exact ⟨hobject, rfl⟩
  | some object =>
    cases hrefused : refuses? precondition (some object) with
    | none => simpa only [hrefused] using ⟨get?_remove_self store key, rfl⟩
    | some current => exact absurd (by simp only [hobject, hrefused]) (h current)

theorem eq_of_isVersion_decimal {g g' : Nat} (h : isVersion g (decimal g') = true) : g = g' := by
  have := eq_of_readSigned64?_decimal (beq_iff_eq.1 h)
  omega

/-- A generation of 63 bits is the one that its text names. -/
theorem isVersion_decimal {g : Nat} (h : g < 2 ^ 63) : isVersion g (decimal g) = true := by
  have hle : g ≤ Nat.pow 2 63 - 1 := Nat.le_sub_one_of_lt h
  rw [isVersion, readSigned64?_decimal, readUpTo_decimal hle]
  exact beq_self_eq_true _

/-- **What was seen is still there**, if a write that depends on it may take place. -/
theorem eq_of_refuses?_unchanged {version : Option String} {current : Option StoredObject}
    (h : refuses? (.unchanged version) current = none) :
    version = none ∧ current = none ∨
      ∃ v object, version = some v ∧ current = some object ∧ isVersion object.generation v = true := by
  cases version with
  | none =>
    cases current with
    | none => exact .inl ⟨rfl, rfl⟩
    | some object => simp [refuses?, Precondition.unchanged] at h
  | some v =>
    cases current with
    | none => simp [refuses?, Precondition.unchanged] at h
    | some object =>
      simp only [refuses?, Precondition.unchanged, ite_eq_left_iff, Bool.not_eq_true, reduceCtorEq, imp_false,
        Bool.not_eq_false] at h
      exact .inr ⟨v, object, rfl, rfl, h⟩

/-- Nothing is there, if a creation may take place. -/
theorem eq_none_of_refuses?_absent {current : Option StoredObject} (h : refuses? .absent current = none) :
    current = none := by
  cases current with
  | none => rfl
  | some object => cases h

/-- What is read of an entry of the store under a start. -/
def reads? (start : String) (entry : String × StoredObject) : Option (String × String × StoredObject) :=
  (dropStart? start entry.1).map fun rest => (entry.1, rest, entry.2)

theorem leading_eq {start : String} : ∀ {objects : List (String × StoredObject)}, Fields.Sorted objects →
    (∀ entry ∈ objects, ¬ entry.1 < start) → leading start objects = objects.filterMap (reads? start)
  | [], _, _ => rfl
  | (key, object) :: more, hsorted, hfrom => by
    obtain ⟨hlt, hmore⟩ := List.pairwise_cons.1 hsorted
    cases hrest : dropStart? start key with
    | none =>
      have hnone : more.filterMap (reads? start) = [] := List.filterMap_eq_nil_iff.2 fun entry hentry => by
        rw [reads?, dropStart?_eq_none_of_passed (hfrom _ (.head _)) (hlt entry hentry) hrest, Option.map_none]
      simp [leading, reads?, hrest, hnone]
    | some rest =>
      simp [leading, reads?, hrest, leading_eq hmore fun entry hentry => hfrom entry (.tail _ hentry)]

theorem leading_dropWhile {start : String} : ∀ {objects : List (String × StoredObject)}, Fields.Sorted objects →
    leading start (objects.dropWhile (·.1 < start)) = objects.filterMap (reads? start)
  | [], _ => rfl
  | (key, object) :: more, hsorted => by
    obtain ⟨hlt, hmore⟩ := List.pairwise_cons.1 hsorted
    by_cases hkey : key < start
    · rw [List.dropWhile_cons_of_pos (by simpa using hkey), leading_dropWhile hmore, List.filterMap_cons, reads?,
        dropStart?_eq_none_of_lt hkey, Option.map_none]
    · rw [List.dropWhile_cons_of_neg (by simpa using hkey)]
      refine leading_eq hsorted fun entry hentry => ?_
      rcases List.mem_cons.1 hentry with rfl | hentry
      · exact hkey
      · exact fun hless => hkey (String.lt_trans (hlt entry hentry) hless)

/-- **Reading on from a start finds every key that has it.** -/
theorem under_eq (store : Store) (start : String) : store.under start = store.objects.filterMap (reads? start) :=
  leading_dropWhile store.sorted

/-- What a listing shows of an entry of the store. -/
def shown (start : String) (delimiter : Option String) (entry : String × StoredObject) : Option ObjectInfo :=
  (dropStart? start entry.1).bind fun rest =>
    if (folder? start delimiter rest).isSome then none else some (entry.2.info entry.1)

theorem list_objects (store : Store) (start : String) (delimiter : Option String) :
    (store.list start delimiter).objects = store.objects.filterMap (shown start delimiter) := by
  simp only [list, under_eq, List.filterMap_filterMap]
  congr
  funext entry
  unfold shown reads?
  cases dropStart? start entry.1 <;> rfl

/-- A listing does not show what is under a key. -/
def Hides (start : String) (delimiter : Option String) (key : String) : Prop :=
  ∀ object, shown start delimiter (key, object) = none

/-- A write under a key that a listing does not show leaves the listing's objects. -/
theorem list_objects_write {start : String} {delimiter : Option String} (store : Store) (body : Octets)
    (now : Timestamp) (h : Hides start delimiter key) :
    ((store.write key body now).list start delimiter).objects = (store.list start delimiter).objects := by
  rw [list_objects, list_objects]
  exact Fields.filterMap_insert (h _) fun v _ => h v

/-- A deletion under a key that a listing does not show leaves the listing's objects. -/
theorem list_objects_remove {start : String} {delimiter : Option String} (store : Store)
    (h : Hides start delimiter key) :
    ((store.remove key).list start delimiter).objects = (store.list start delimiter).objects := by
  rw [list_objects, list_objects]
  exact Fields.filterMap_erase h _

theorem info_key (object : StoredObject) (key : String) : (object.info key).key = key := rfl

theorem list_keys (store : Store) (start : String) :
    (store.list start none).objects.map (·.key) = store.keys.filter (startsWith start) := by
  rw [list_objects, keys]
  induction store.objects with
  | nil => rfl
  | cons entry rest ih =>
    obtain ⟨key, object⟩ := entry
    rw [List.filterMap_cons, List.map_cons]
    cases h : dropStart? start key with
    | none =>
      have hs : startsWith start key = false := by
        rw [← Bool.not_eq_true, startsWith_iff]
        rintro ⟨rest, rfl⟩
        rw [dropStart?_append] at h; cases h
      rw [List.filter_cons_of_neg (by simp [hs]), ← ih]
      simp [shown, h]
    | some rest =>
      have hs : startsWith start key = true := startsWith_iff.2 ⟨rest, dropStart?_eq_some.1 h⟩
      rw [List.filter_cons_of_pos (by simp [hs]), ← ih]
      simp [shown, h, folder?, info_key]

theorem keys_pairwise (store : Store) : store.keys.Pairwise (· < ·) :=
  List.pairwise_map.2 store.sorted

theorem keys_nodup (store : Store) : store.keys.Nodup :=
  store.keys_pairwise.imp fun h => by
    rintro rfl
    exact absurd h (String.lt_irrefl _)

theorem mem_keys_write {body : Octets} {now : Timestamp} :
    other ∈ (store.write key body now).keys ↔ other = key ∨ other ∈ store.keys :=
  Fields.mem_names_insert

theorem keys_remove (store : Store) (key : String) : (store.remove key).keys = store.keys.filter (· ≠ key) :=
  Fields.names_erase ..

/-! ## What became of an object -/

/-- **Generations are given out in order**: what is under a key in a later store was there already, or is younger than
all that was there. -/
structure Since (key : String) (s t : Store) : Prop where
  next : s.nextGeneration ≤ t.nextGeneration
  object : ∀ object, t.get? key = some object → object.generation < s.nextGeneration → s.get? key = some object

namespace Since

theorem refl (key : String) (s : Store) : Since key s s := ⟨Nat.le_refl _, fun _ h _ => h⟩

theorem trans {s t u : Store} (h : Since key s t) (h' : Since key t u) : Since key s u where
  next := Nat.le_trans h.next h'.next
  object := fun object hu hlt => h.object object (h'.object object hu (Nat.lt_of_lt_of_le hlt h.next)) hlt

theorem of_eq {s t : Store} (hnext : s.nextGeneration ≤ t.nextGeneration) (h : t.get? key = s.get? key) :
    Since key s t :=
  ⟨hnext, fun _ ht _ => h ▸ ht⟩

theorem write (key : String) (s : Store) (other : String) (body : Octets) (now : Timestamp) :
    Since key s (s.write other body now) := by
  by_cases h : key = other
  · subst h
    refine ⟨Nat.le_succ _, fun object hobject hlt => ?_⟩
    rw [get?_write_self, Option.some.injEq] at hobject
    rw [← hobject] at hlt
    exact absurd hlt (Nat.lt_irrefl _)
  · exact of_eq (Nat.le_succ _) (get?_write_of_ne s body now h)

theorem remove (key : String) (s : Store) (other : String) : Since key s (s.remove other) := by
  by_cases h : key = other
  · subst h
    refine ⟨Nat.le_refl _, fun object hobject _ => ?_⟩
    rw [get?_remove_self] at hobject
    cases hobject
  · exact of_eq (Nat.le_refl _) (get?_remove_of_ne s h)

end Since
end Store
end Intake
