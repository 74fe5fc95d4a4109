import Intake.Json.Merge
import Intake.Proofs.Store
/-!
# Overlay — what a value laid over another one leaves of it

Values are looked at under paths of names (`Json.at?`).  Where the overlay has a value, it is laid on that of the base
(`Json.at?_merge`); where it has none, it leaves the base as it was (`Json.at?_merge_of_undecided`), unless it has
something else than an object above, which takes everything below away.  To lay it over once more changes nothing
(`Json.merge_merge`).
-/
namespace Intake

namespace Fields

variable {α : Type}

theorem get?_eq_none_of_lt {name : String} {fields : List (String × α)} (h : ∀ field ∈ fields, name < field.1) :
    get? name fields = none := by
  cases hget : get? name fields with
  | none => rfl
  | some value => exact absurd (h _ (mem_of_get? hget)) (String.lt_irrefl _)

/-- The first name of a list in order is not before all names of a list that has it too. -/
theorem not_lt_of_get?_eq {a b : String} {x y : α} {fields other : List (String × α)}
    (h : get? a ((a, x) :: fields) = get? a ((b, y) :: other)) (hother : ∀ field ∈ other, b < field.1) : ¬ a < b := by
  intro hab
  have hnone : get? a ((b, y) :: other) = none := get?_eq_none_of_lt fun field hfield =>
    (List.mem_cons.1 hfield).elim (fun e => e ▸ hab) fun hmem => String.lt_trans hab (hother field hmem)
  rw [hnone, get?, if_pos rfl] at h
  cases h

/-- Named values in order are known by what is under each name. -/
theorem ext_get? {fields other : List (String × α)} (hfields : Sorted fields) (hother : Sorted other)
    (h : ∀ name, get? name fields = get? name other) : fields = other := by
  induction fields generalizing other with
  | nil =>
    cases other with
    | nil => rfl
    | cons head rest => simpa [get?] using h head.1
  | cons head rest ih =>
    cases other with
    | nil => simpa [get?] using h head.1
    | cons head' rest' =>
      obtain ⟨n, v⟩ := head
      obtain ⟨m, w⟩ := head'
      obtain ⟨hn, hrest⟩ := List.pairwise_cons.1 hfields
      obtain ⟨hm, hrest'⟩ := List.pairwise_cons.1 hother
      obtain rfl : n = m := String.le_antisymm (String.not_lt.1 (not_lt_of_get?_eq (h m).symm hn))
        (String.not_lt.1 (not_lt_of_get?_eq (h n) hm))
      obtain rfl : v = w := by simpa [get?] using h n
      rw [ih hrest hrest' fun name => ?_]
      by_cases hname : n = name
      · subst hname
        rw [get?_eq_none_of_lt hn, get?_eq_none_of_lt hm]
      · simpa [get?, hname] using h name

theorem sorted_foldl_insert (entries : List (String × α)) {fields : List (String × α)} (h : Sorted fields) :
    Sorted (entries.foldl (fun acc entry => insert entry.1 entry.2 acc) fields) := by
  induction entries generalizing fields with
  | nil => exact h
  | cons entry entries ih => exact ih (sorted_insert _ _ h)

theorem mem_of_mem_foldl_insert {entry : String × α} {entries fields : List (String × α)}
    (h : entry ∈ entries.foldl (fun acc entry => insert entry.1 entry.2 acc) fields) :
    entry ∈ entries ∨ entry ∈ fields := by
  induction entries generalizing fields with
  | nil => exact .inr h
  | cons first entries ih =>
    rcases ih h with hmem | hmem
    · exact .inl (List.mem_cons_of_mem _ hmem)
    · rcases mem_insert hmem with rfl | hmem
      · exact .inl List.mem_cons_self
      · exact .inr hmem

/-- Values put in order are in order. -/
theorem sorted_ofList (entries : List (String × α)) : Sorted (ofList entries) :=
  sorted_foldl_insert entries List.Pairwise.nil

theorem mem_of_mem_ofList {entry : String × α} {entries : List (String × α)} (h : entry ∈ ofList entries) :
    entry ∈ entries :=
  (mem_of_mem_foldl_insert h).resolve_right List.not_mem_nil

theorem mem_names_foldl_insert {name : String} {entries fields : List (String × α)} :
    name ∈ (entries.foldl (fun acc entry => insert entry.1 entry.2 acc) fields).map (·.1) ↔
      name ∈ entries.map (·.1) ∨ name ∈ fields.map (·.1) := by
  induction entries generalizing fields with
  | nil => simp
  | cons entry entries ih =>
    rw [List.foldl_cons, ih, mem_names_insert, List.map_cons, List.mem_cons]
    exact or_left_comm.trans or_assoc.symm

theorem mem_names_ofList {name : String} {entries : List (String × α)} :
    name ∈ (ofList entries).map (·.1) ↔ name ∈ entries.map (·.1) := by
  rw [ofList, mem_names_foldl_insert, List.map_nil, or_iff_left List.not_mem_nil]

end Fields

namespace Json

def isObject : Json → Bool
  | .object _ => true
  | _ => false

/-- **The value under a path of names**, each the name of a field in the object under the names before it. -/
def at? : (path : List String) → Json → Option Json
  | [], value => some value
  | name :: path, value => (value.field? name).bind (at? path)

/-- The fields of the value, and of every object below it, stand in order. -/
def InOrder (value : Json) : Prop :=
  ∀ path fields, value.at? path = some (.object fields) → Fields.Sorted fields

/-- Above a path there is something else than an object. -/
def Blocks (path : List String) (value : Json) : Prop :=
  ∃ above rest v, path = above ++ rest ∧ rest ≠ [] ∧ value.at? above = some v ∧ v.isObject = false

/-- A value has a say about a path: there is something under it, or something else than an object above. -/
def Decides (path : List String) (value : Json) : Prop :=
  (value.at? path).isSome = true ∨ value.Blocks path

variable {value base overlay : Json} {fields : List (String × Json)} {path : List String}

theorem field?_of_not_isObject (h : value.isObject = false) (name : String) : value.field? name = none := by
  cases value with
  | object fields => cases h
  | _ => rfl

theorem at?_append (above : List String) (path : List String) (value : Json) :
    value.at? (above ++ path) = (value.at? above).bind (at? path) := by
  induction above generalizing value with
  | nil => rfl
  | cons name above ih =>
    rw [List.cons_append, at?, at?, Option.bind_assoc]
    exact Option.bind_congr fun v _ => ih v

theorem at?_of_blocks (h : value.Blocks path) : value.at? path = none := by
  obtain ⟨above, rest, v, rfl, hrest, habove, hv⟩ := h
  obtain ⟨name, rest, rfl⟩ := List.exists_cons_of_ne_nil hrest
  rw [at?_append, habove, Option.bind_some, at?, field?_of_not_isObject hv, Option.bind_none]

theorem InOrder.sorted (h : (object fields).InOrder) : Fields.Sorted fields := h [] fields rfl

theorem InOrder.get? (h : (object fields).InOrder) {name : String} (hvalue : Fields.get? name fields = some value) :
    value.InOrder := by
  intro path fields' hpath
  refine h (name :: path) fields' ?_
  rw [at?, field?, hvalue, Option.bind_some, hpath]

theorem inOrder_object (hsorted : Fields.Sorted fields)
    (hvalues : ∀ name value, Fields.get? name fields = some value → value.InOrder) : (object fields).InOrder := by
  intro path fields' h
  cases path with
  | nil => cases h; exact hsorted
  | cons name path =>
    obtain ⟨value, hvalue, h⟩ := Option.bind_eq_some_iff.1 h
    exact hvalues name value hvalue path fields' h

theorem inOrder_of_not_isObject (h : value.isObject = false) : value.InOrder := by
  intro path fields e
  cases path with
  | nil => cases e; cases h
  | cons name path =>
    rw [at?, field?_of_not_isObject h] at e
    cases e

theorem inOrder_ofFields (h : ∀ field ∈ fields, field.2.InOrder) : (ofFields fields).InOrder :=
  inOrder_object (Fields.sorted_ofList _) fun _ _ hvalue => h _ (Fields.mem_of_mem_ofList (Fields.mem_of_get? hvalue))

theorem sizeOf_lt_of_mem {name : String} (h : (name, value) ∈ fields) : sizeOf value < sizeOf (object fields) := by
  have := List.sizeOf_lt_of_mem h
  simp only [Prod.mk.sizeOf_spec, object.sizeOf_spec] at this ⊢
  omega

theorem mem_sortValues {entry : String × Json} (h : entry ∈ sortValues fields) :
    ∃ v, (entry.1, v) ∈ fields ∧ entry.2 = v.sortFields := by
  induction fields with
  | nil => rw [sortValues] at h; cases h
  | cons head rest ih =>
    obtain ⟨name, v⟩ := head
    rw [sortValues] at h
    rcases List.mem_cons.1 h with rfl | h
    · exact ⟨v, List.mem_cons_self, rfl⟩
    · obtain ⟨v, hmem, hv⟩ := ih h
      exact ⟨v, List.mem_cons_of_mem _ hmem, hv⟩

/-- **A value whose fields were put in order is in order.** -/
theorem inOrder_sortFields (value : Json) : value.sortFields.InOrder := by
  induction hsize : sizeOf value using Nat.strongRecOn generalizing value with
  | ind n ih =>
    subst hsize
    cases value with
    | object fields =>
      rw [sortFields, sortObject]
      refine inOrder_object (Fields.sorted_ofList _) fun name value hvalue => ?_
      obtain ⟨v, hmem, hv⟩ := mem_sortValues (Fields.mem_of_mem_ofList (Fields.mem_of_get? hvalue))
      obtain rfl : value = v.sortFields := hv
      exact ih _ (sizeOf_lt_of_mem hmem) v rfl
    | _ => exact inOrder_of_not_isObject (by simp [sortFields, isObject])

/-! ## Laying one value over another -/

theorem merge_of_not_isObject_left (h : base.isObject = false) : base.merge overlay = overlay := by
  unfold merge
  split
  · cases h
  · rfl

theorem merge_of_not_isObject_right (h : overlay.isObject = false) : base.merge overlay = overlay := by
  unfold merge
  split
  · cases h
  · rfl

theorem merge_object (base overlay : List (String × Json)) :
    (object base).merge (object overlay) = object (mergeFields base overlay) := by
  rw [merge]

/-- A field that only the overlay has is as good as one laid on nothing. -/
theorem mergeFields_cons (base : List (String × Json)) (name : String) (value : Json) (rest : List (String × Json)) :
    mergeFields base ((name, value) :: rest) =
      mergeFields (Fields.insert name (merge ((Fields.get? name base).getD null) value) base) rest := by
  rw [mergeFields]
  cases Fields.get? name base with
  | none => rw [Option.getD_none, merge_of_not_isObject_left rfl]
  | some old => rfl

/-- **The fields of merged objects**: those of the overlay, laid on what the base has there, and else those of the
base. -/
theorem get?_mergeFields (name : String) (base : List (String × Json)) {overlay : List (String × Json)}
    (hoverlay : Fields.Sorted overlay) : Fields.get? name (mergeFields base overlay) =
      (Fields.get? name overlay).elim (Fields.get? name base) fun value =>
        some (merge ((Fields.get? name base).getD null) value) := by
  induction overlay generalizing base with
  | nil => rw [mergeFields]; rfl
  | cons head rest ih =>
    obtain ⟨n, v⟩ := head
    obtain ⟨hn, hrest⟩ := List.pairwise_cons.1 hoverlay
    rw [mergeFields_cons, ih _ hrest]
    by_cases hname : n = name
    · subst hname
      rw [Fields.get?_eq_none_of_lt hn, Option.elim_none, Fields.get?_insert_self, Fields.get?, if_pos rfl,
        Option.elim_some]
    · rw [Fields.get?_insert_of_ne _ _ (Ne.symm hname), Fields.get?, if_neg hname]

theorem sorted_mergeFields {base : List (String × Json)} (hbase : Fields.Sorted base)
    (overlay : List (String × Json)) : Fields.Sorted (mergeFields base overlay) := by
  induction overlay generalizing base with
  | nil => rwa [mergeFields]
  | cons head rest ih =>
    obtain ⟨n, v⟩ := head
    rw [mergeFields_cons]
    exact ih (Fields.sorted_insert _ _ hbase)

theorem field?_merge (hoverlay : overlay.InOrder) (hobject : overlay.isObject = true) (name : String) :
    (base.merge overlay).field? name =
      (overlay.field? name).elim (base.field? name) fun value => some (merge ((base.field? name).getD null) value) := by
  cases overlay with
  | object upper =>
    cases hbase : base.isObject with
    | true =>
      cases base with
      | object fields =>
        rw [merge_object]
        exact get?_mergeFields name fields hoverlay.sorted
      | _ => cases hbase
    | false =>
      rw [merge_of_not_isObject_left hbase, field?_of_not_isObject hbase]
      cases field? name (object upper) with
      | none => rfl
      | some value => rw [Option.elim_some, Option.getD_none, merge_of_not_isObject_left rfl]
  | _ => cases hobject

/-- **Where the overlay has a value**, it is laid on the one of the base. -/
theorem at?_merge (hoverlay : overlay.InOrder) (h : overlay.at? path = some value) :
    (base.merge overlay).at? path = some (merge ((base.at? path).getD null) value) := by
  induction path generalizing base overlay with
  | nil => cases h; rfl
  | cons name path ih =>
    obtain ⟨inner, hinner, hvalue⟩ := Option.bind_eq_some_iff.1 h
    cases overlay with
    | object upper =>
      rw [at?, field?_merge hoverlay rfl, hinner, Option.elim_some, Option.bind_some, ih (hoverlay.get? hinner) hvalue,
        at?]
      cases base.field? name with
      | some old => rfl
      | none =>
        -- nothing is as good as `null`, which has nothing below it
        rw [Option.getD_none, Option.bind_none, Option.getD_none]
        cases path with
        | nil => rfl
        | cons n p => rfl
    | _ => cases hinner

/-- **Where the overlay has no say**, the base stays as it was. -/
theorem at?_merge_of_undecided (hoverlay : overlay.InOrder) (h : ¬ overlay.Decides path) :
    (base.merge overlay).at? path = base.at? path := by
  induction path generalizing base overlay with
  | nil => exact absurd (.inl rfl) h
  | cons name path ih =>
    have hobject : overlay.isObject = true := by
      by_contra hnot
      exact h (.inr ⟨[], name :: path, overlay, rfl, List.cons_ne_nil _ _, rfl, by simpa using hnot⟩)
    rw [at?, field?_merge hoverlay hobject, at?]
    cases hinner : overlay.field? name with
    | none => rfl
    | some inner =>
      have hundecided : ¬ inner.Decides path := by
        rintro (hsome | ⟨above, rest, v, rfl, hrest, habove, hv⟩)
        · exact h (.inl (by rwa [at?, hinner]))
        · exact h (.inr ⟨name :: above, rest, v, rfl, hrest, by rwa [at?, hinner], hv⟩)
      have hinOrder : inner.InOrder := by
        cases overlay with
        | object upper => exact hoverlay.get? hinner
        | _ => cases hinner
      rw [Option.elim_some, Option.bind_some, ih hinOrder hundecided]
      cases base.field? name with
      | some old => rfl
      | none =>
        cases path with
        | nil => exact absurd (.inl rfl) hundecided
        | cons n p => rfl

/-- **Below something else than an object** nothing is left. -/
theorem at?_merge_of_blocks (hoverlay : overlay.InOrder) (h : overlay.Blocks path) :
    (base.merge overlay).at? path = none := by
  obtain ⟨above, rest, v, rfl, hrest, habove, hv⟩ := h
  refine at?_of_blocks ⟨above, rest, v, rfl, hrest, ?_, hv⟩
  rw [at?_merge hoverlay habove, merge_of_not_isObject_right hv]

theorem isObject_merge (hbase : base.isObject = true) (hoverlay : overlay.isObject = true) :
    (base.merge overlay).isObject = true := by
  cases overlay with
  | object upper =>
    cases base with
    | object fields => rw [merge_object]; rfl
    | _ => cases hbase
  | _ => cases hoverlay

theorem inOrder_merge (hbase : base.InOrder) (hoverlay : overlay.InOrder) : (base.merge overlay).InOrder := by
  intro path fields hpath
  by_cases hdecides : overlay.Decides path
  · rcases hdecides with hsome | hblocks
    · obtain ⟨value, hvalue⟩ := Option.isSome_iff_exists.1 hsome
      rw [at?_merge hoverlay hvalue, Option.some.injEq] at hpath
      unfold merge at hpath
      split at hpath
      · rename_i below upper hbelow
        cases hpath
        cases hold : base.at? path with
        | none => rw [hold] at hbelow; cases hbelow
        | some old =>
          rw [hold] at hbelow
          cases hbelow
          exact sorted_mergeFields (hbase path _ hold) _
      · rw [hpath] at hvalue
        exact hoverlay path fields hvalue
    · rw [at?_merge_of_blocks hoverlay hblocks] at hpath
      cases hpath
  · rw [at?_merge_of_undecided hoverlay hdecides] at hpath
    exact hbase path fields hpath

/-- **To lay a value over once more changes nothing.** -/
theorem merge_merge (hbase : base.InOrder) (hoverlay : overlay.InOrder) :
    (base.merge overlay).merge overlay = base.merge overlay := by
  induction hsize : sizeOf overlay using Nat.strongRecOn generalizing base overlay with
  | ind n ih =>
    subst hsize
    cases overlay with
    | object upper =>
      obtain ⟨fields, hfields⟩ : ∃ fields, base.merge (object upper) = object fields := by
        cases base with
        | object below => exact ⟨_, merge_object below upper⟩
        | _ => exact ⟨upper, merge_of_not_isObject_left rfl⟩
      have hinOrder := inOrder_merge hbase hoverlay
      rw [hfields] at hinOrder ⊢
      rw [merge_object, Fields.ext_get? (sorted_mergeFields hinOrder.sorted _) hinOrder.sorted fun name => ?_]
      rw [get?_mergeFields name _ hoverlay.sorted]
      cases hvalue : Fields.get? name upper with
      | none => rfl
      | some value =>
        have hmerged : Fields.get? name fields = some (merge ((base.field? name).getD null) value) := by
          have hfield : (base.merge (object upper)).field? name = _ := field?_merge hoverlay rfl name
          rwa [hfields, show (object upper).field? name = some value from hvalue] at hfield
        have hold : ((base.field? name).getD null).InOrder := by
          cases hget : base.field? name with
          | none => exact inOrder_of_not_isObject rfl
          | some old =>
            cases base with
            | object below => exact hbase.get? hget
            | _ => cases hget
        rw [Option.elim_some, hmerged, Option.getD_some,
          ih _ (sizeOf_lt_of_mem (Fields.mem_of_get? hvalue)) hold (hoverlay.get? hvalue) rfl]
    | _ => rw [merge_of_not_isObject_right rfl, merge_of_not_isObject_right rfl]

/-! ## One overlay, and a stack of them -/

/-- **What the overlay makes of the base under a path**: its own value if that is no object; nothing below such a value;
the base's where it has no say; and where it has an object, that laid on the object of the base, if there is one. -/
structure LaidAt (base overlay merged : Json) (path : List String) : Prop where
  value : ∀ v, overlay.at? path = some v → v.isObject = false → merged.at? path = some v
  below : overlay.Blocks path → merged.at? path = none
  kept : overlay.at? path = none → ¬ overlay.Blocks path → merged.at? path = base.at? path
  object : ∀ v old, overlay.at? path = some v → v.isObject = true → base.at? path = some old → old.isObject = true →
    merged.at? path = some (old.merge v)
  replaced : ∀ v, overlay.at? path = some v → v.isObject = true →
    (∀ old, base.at? path = some old → old.isObject = false) → merged.at? path = some v

theorem laidAt_merge (base : Json) (hoverlay : overlay.InOrder) (path : List String) :
    LaidAt base overlay (base.merge overlay) path where
  value v hv hleaf := by rw [at?_merge hoverlay hv, merge_of_not_isObject_right hleaf]
  below := at?_merge_of_blocks hoverlay
  kept hnone hfree := at?_merge_of_undecided hoverlay fun h => h.elim (by rw [hnone]; exact Bool.false_ne_true) hfree
  object v old hv _ hold _ := by rw [at?_merge hoverlay hv, hold, Option.getD_some]
  replaced v hv _ hleaf := by
    rw [at?_merge hoverlay hv]
    cases hold : base.at? path with
    | none => rw [Option.getD_none, merge_of_not_isObject_left rfl]
    | some old => rw [Option.getD_some, merge_of_not_isObject_left (hleaf old hold)]

variable {layers far near : List Json} {layer : Json}

theorem inOrder_foldl_merge (hbase : base.InOrder) (hlayers : ∀ layer ∈ layers, layer.InOrder) :
    (layers.foldl merge base).InOrder := by
  induction layers generalizing base with
  | nil => exact hbase
  | cons layer layers ih =>
    obtain ⟨hlayer, hlayers⟩ := List.forall_mem_cons.1 hlayers
    exact ih (inOrder_merge hbase hlayer) hlayers

/-- Layers that have no say about a path leave what is under it. -/
theorem at?_foldl_merge (hlayers : ∀ layer ∈ layers, layer.InOrder ∧ ¬ layer.Decides path) (base : Json) :
    (layers.foldl merge base).at? path = base.at? path := by
  induction layers generalizing base with
  | nil => rfl
  | cons layer layers ih =>
    obtain ⟨⟨hlayer, hundecided⟩, hlayers⟩ := List.forall_mem_cons.1 hlayers
    rw [List.foldl_cons, ih hlayers, at?_merge_of_undecided hlayer hundecided]

/-- **The last layer that has a say about a path decides** what is under it, unless it has an object there. -/
theorem at?_foldl_merge_of_decides (base : Json) (hlayer : layer.InOrder) (hdecides : layer.Decides path)
    (hnear : ∀ layer ∈ near, layer.InOrder ∧ ¬ layer.Decides path) :
    (∀ v, v.isObject = false →
        (((far ++ layer :: near).foldl merge base).at? path = some v ↔ layer.at? path = some v)) ∧
      (layer.at? path = none → ((far ++ layer :: near).foldl merge base).at? path = none) := by
  rw [List.foldl_append, List.foldl_cons, at?_foldl_merge hnear]
  generalize far.foldl merge base = below
  rcases hdecides with hsome | hblocks
  · obtain ⟨w, hw⟩ := Option.isSome_iff_exists.1 hsome
    refine ⟨fun v hv => ?_, fun hnone => by rw [hw] at hnone; cases hnone⟩
    rw [at?_merge hlayer hw, hw, Option.some.injEq, Option.some.injEq]
    cases hobject : w.isObject with
    | false => rw [merge_of_not_isObject_right hobject]
    | true =>
      -- an object stays an object, so neither of the two is the value
      have hmerged : (merge ((below.at? path).getD null) w).isObject = true := by
        cases hbelow : ((below.at? path).getD null).isObject with
        | true => exact isObject_merge hbelow hobject
        | false => rwa [merge_of_not_isObject_left hbelow]
      constructor
      · intro e
        rw [e, hv] at hmerged
        cases hmerged
      · intro e
        rw [e, hv] at hobject
        cases hobject
  · rw [at?_merge_of_blocks hlayer hblocks, at?_of_blocks hblocks]
    exact ⟨fun _ _ => Iff.rfl, fun _ => rfl⟩

end Json
end Intake
