/-!
# Fields — values under names, in the order of the names

A list of named values without repetition, kept in increasing order of the names: `insert` puts a value in its place or
over the value of the same name.
-/
namespace Intake
namespace Fields

variable {α : Type}

def get? (name : String) : List (String × α) → Option α
  | [] => none
  | (n, v) :: rest => if n = name then some v else get? name rest

/-- A value put under a name, in the place of any value it had. -/
def insert (name : String) (value : α) : List (String × α) → List (String × α)
  | [] => [(name, value)]
  | (n, v) :: rest =>
    if name = n then (name, value) :: rest
    else if name < n then (name, value) :: (n, v) :: rest
    else (n, v) :: insert name value rest

def erase (name : String) (fields : List (String × α)) : List (String × α) :=
  fields.filter fun field => field.1 ≠ name

/-- Named values in any order, put in order; of two under one name the later one stays. -/
def ofList (fields : List (String × α)) : List (String × α) :=
  fields.foldl (fun acc field => insert field.1 field.2 acc) []

def Sorted (fields : List (String × α)) : Prop :=
  fields.Pairwise fun a b => a.1 < b.1

theorem mem_insert {name : String} {value : α} {fields : List (String × α)} {field : String × α}
    (h : field ∈ insert name value fields) : field = (name, value) ∨ field ∈ fields := by
  induction fields with
  | nil => exact .inl (List.mem_singleton.1 h)
  | cons head rest ih =>
    obtain ⟨n, v⟩ := head
    simp only [insert] at h
    split at h
    · exact (List.mem_cons.1 h).imp id (List.mem_cons_of_mem _)
    · split at h
      · exact List.mem_cons.1 h
      · rcases List.mem_cons.1 h with rfl | h
        · exact .inr List.mem_cons_self
        · exact (ih h).imp id (List.mem_cons_of_mem _)

theorem sorted_insert (name : String) (value : α) {fields : List (String × α)} (h : Sorted fields) :
    Sorted (insert name value fields) := by
  induction fields with
  | nil => exact List.pairwise_singleton _ _
  | cons head rest ih =>
    obtain ⟨n, v⟩ := head
    obtain ⟨hn, hrest⟩ := List.pairwise_cons.1 h
    simp only [insert]
    split
    · rename_i e; subst e; exact List.pairwise_cons.2 ⟨hn, hrest⟩
    · split
      · rename_i hlt
        refine List.pairwise_cons.2 ⟨fun field hf => ?_, h⟩
        rcases List.mem_cons.1 hf with rfl | hf
        · exact hlt
        · exact String.lt_trans hlt (hn field hf)
      · rename_i hne hge
        refine List.pairwise_cons.2 ⟨fun field hf => ?_, ih hrest⟩
        rcases mem_insert hf with rfl | hf
        · exact Decidable.byContradiction fun hnot =>
            hne (String.le_antisymm (String.not_lt.1 hnot) (String.not_lt.1 hge))
        · exact hn field hf

theorem sorted_erase (name : String) {fields : List (String × α)} (h : Sorted fields) :
    Sorted (erase name fields) :=
  h.filter _

theorem mem_erase {name : String} {fields : List (String × α)} {field : String × α}
    (h : field ∈ erase name fields) : field ∈ fields :=
  (List.mem_filter.1 h).1

theorem mem_of_get? {name : String} {value : α} {fields : List (String × α)} (h : get? name fields = some value) :
    (name, value) ∈ fields := by
  induction fields with
  | nil => simp [get?] at h
  | cons head rest ih =>
    obtain ⟨n, v⟩ := head
    simp only [get?] at h
    split at h
    · rename_i e; cases h; subst e; exact List.mem_cons_self
    · exact List.mem_cons_of_mem _ (ih h)

end Fields
end Intake
