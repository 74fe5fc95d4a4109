import Intake.Proofs.Marker
/-!
# Pointer — the pointers of a backlog stand for their markers, in their order

The order of keys is the order of their octets (`Utf8.encode_lt_encode_iff`).  A marker in no backlog folder has a
pointer exactly if it lies below the table prefix; the pointer leads back to it and has its destination, and pointers
are ordered as their markers are (`Backlog.pointer_exact`).
-/
namespace Intake

/-! ## The order of octets -/

namespace Utf8

/-- **The octets of the smaller character come first**, whatever follows them: a character with fewer octets has a
smaller first one, and the octets of characters with as many carry the digits of their code points. -/
theorem encodeChar_append_lt {c d : Char} (h : c < d) (x y : Octets) :
    String.utf8EncodeChar c ++ x < String.utf8EncodeChar d ++ y := by
  have hlt : c.val.toNat < d.val.toNat := h
  have hc : c.val.toNat < 55296 ∨ 57343 < c.val.toNat ∧ c.val.toNat < 1114112 := c.valid
  have hd : d.val.toNat < 55296 ∨ 57343 < d.val.toNat ∧ d.val.toNat < 1114112 := d.valid
  unfold String.utf8EncodeChar
  generalize c.val.toNat = n at hlt hc
  generalize d.val.toNat = m at hlt hd
  have hdigits : ∀ k, k < 1114112 →
      k / 64 / 64 = k / 4096 ∧ k / 4096 / 64 = k / 262144 ∧ k / 262144 % 8 = k / 262144 := fun k hk => by omega
  obtain ⟨hn₁, hn₂, hn₃⟩ := hdigits n (by omega)
  obtain ⟨hm₁, hm₂, hm₃⟩ := hdigits m (by omega)
  simp only
  repeat' split
  all_goals
    simp (disch := omega) only [List.cons_append, List.nil_append, List.cons_lt_cons_iff, UInt8.lt_iff_toNat_lt,
      ← UInt8.toNat_inj, toNat_octet]
    omega

theorem encodeChars_lt {s t : List Char} (h : s < t) : encodeChars s < encodeChars t := by
  induction s generalizing t with
  | nil =>
    cases t with
    | nil => cases h
    | cons d t =>
      rw [encodeChars, encodeChars, List.flatMap_nil, List.flatMap_cons]
      cases hd : String.utf8EncodeChar d with
      | nil => exact absurd hd (by simp)
      | cons b bs => exact List.nil_lt_cons _ _
  | cons c s ih =>
    cases t with
    | nil => cases h
    | cons d t =>
      rw [encodeChars, encodeChars, List.flatMap_cons, List.flatMap_cons]
      rcases List.cons_lt_cons_iff.1 h with hlt | ⟨rfl, hlt⟩
      · exact encodeChar_append_lt hlt _ _
      · exact List.append_left_lt (ih hlt)

/-- **The order of texts is that of their octets.** -/
theorem encode_lt_encode_iff {a b : String} : encode a < encode b ↔ a < b := by
  have hlt : ∀ {a b : String}, a < b → encode a < encode b := fun h => encodeChars_lt h
  refine ⟨fun h => Decidable.byContradiction fun hnot => ?_, hlt⟩
  by_cases hba : b < a
  · exact List.lt_asymm h (hlt hba)
  · obtain rfl : a = b := String.le_antisymm (String.not_lt.1 hba) (String.not_lt.1 hnot)
    exact List.lt_irrefl _ h

end Utf8

namespace Key

/-- What two keys start with does not matter to their order. -/
theorem append_lt_append_iff (front : String) {a b : String} : front ++ a < front ++ b ↔ a < b := by
  show (front ++ a).toList < (front ++ b).toList ↔ a.toList < b.toList
  rw [String.toList_append, String.toList_append]
  induction front.toList with
  | nil => rfl
  | cons c front ih =>
    rw [List.cons_append, List.cons_append, List.cons_lt_cons_iff, ih]
    simp

theorem withoutBacklog_of_outside {key : String} (h : isBacklog key = false) : withoutBacklog key = key := by
  have hnone : holdsText "/_backlog/" key = false := (Bool.or_eq_false_iff.1 h).2
  unfold withoutBacklog cutText?
  cases hcut : Text.cut? "/_backlog/".toList key.toList with
  | none => rfl
  | some parts =>
    rw [holdsText, hcut] at hnone
    cases hnone

end Key

namespace Backlog

/-- A marker has a pointer exactly if it lies below the table prefix. -/
theorem pointerFor_eq_ok_iff {tablePrefix marker pointer : String} : pointerFor tablePrefix marker = .ok pointer ↔
    ∃ rest, rest ≠ "" ∧ marker = tablePrefix ++ "/" ++ rest ∧ pointer = folder tablePrefix ++ rest := by
  refine ⟨pointerFor_eq_ok, ?_⟩
  rintro ⟨rest, hrest, rfl, rfl⟩
  have hempty : rest.isEmpty = false := String.isEmpty_eq_false_iff.2 hrest
  unfold pointerFor
  rw [String.append_assoc, dropStart?_append]
  simp only [Option.bind_eq_bind, Option.bind_some, dropStart?_append, Option.filter_some, hempty, Bool.not_false,
    ↓reduceIte]

/-- **Pointers stand for their markers, exactly and in order.**  The pointer of a marker outside of backlog folders lies
in the backlog folder of its table, leads back to the marker and has its destination, whatever the rule for
destinations; there is one exactly if the marker lies below the table prefix; and the octets of pointers are ordered as
those of their markers. -/
theorem pointer_exact {tablePrefix marker : String} (htable : tablePrefix ≠ "")
    (houtside : Key.isBacklog marker = false) :
    (∀ pointer, pointerFor tablePrefix marker = .ok pointer →
      startsWith (tablePrefix ++ "/_backlog/") pointer = true ∧ Key.isBacklog pointer = true ∧
        markerFor pointer = marker ∧ ∀ layout : Layout, layout.destination pointer = layout.destination marker) ∧
      ((∃ pointer, pointerFor tablePrefix marker = .ok pointer) ↔
        ∃ rest, rest ≠ "" ∧ marker = tablePrefix ++ "/" ++ rest) ∧
      ∀ other pointer pointer', pointerFor tablePrefix marker = .ok pointer →
        pointerFor tablePrefix other = .ok pointer' →
          (pointer < pointer' ↔ marker < other) ∧
            (Utf8.encode pointer < Utf8.encode pointer' ↔ Utf8.encode marker < Utf8.encode other) := by
  refine ⟨fun pointer hpointer => ?_, ⟨?_, ?_⟩, fun other pointer pointer' hpointer hpointer' => ?_⟩
  · have hmarker := markerFor_pointer htable houtside hpointer
    obtain ⟨rest, -, -, rfl⟩ := pointerFor_eq_ok hpointer
    have hstarts : startsWith (folder tablePrefix) (folder tablePrefix ++ rest) = true := startsWith_iff.2 ⟨rest, rfl⟩
    refine ⟨by rwa [folder_eq htable] at hstarts ⊢, isBacklog_of_startsWith hstarts, hmarker, fun layout => ?_⟩
    have hsame : Key.withoutBacklog (folder tablePrefix ++ rest) = Key.withoutBacklog marker :=
      hmarker.trans (Key.withoutBacklog_of_outside houtside).symm
    rw [Layout.destination, hsame, Layout.destination]
  · rintro ⟨pointer, hpointer⟩
    obtain ⟨rest, hrest, hmarker, -⟩ := pointerFor_eq_ok hpointer
    exact ⟨rest, hrest, hmarker⟩
  · rintro ⟨rest, hrest, hmarker⟩
    exact ⟨_, pointerFor_eq_ok_iff.2 ⟨rest, hrest, hmarker, rfl⟩⟩
  · obtain ⟨rest, -, rfl, rfl⟩ := pointerFor_eq_ok hpointer
    obtain ⟨rest', -, rfl, rfl⟩ := pointerFor_eq_ok hpointer'
    have horder : folder tablePrefix ++ rest < folder tablePrefix ++ rest' ↔
        tablePrefix ++ "/" ++ rest < tablePrefix ++ "/" ++ rest' :=
      (Key.append_lt_append_iff _).trans (Key.append_lt_append_iff _).symm
    exact ⟨horder, by rw [Utf8.encode_lt_encode_iff, Utf8.encode_lt_encode_iff, horder]⟩

/-- A marker directly at the table prefix and one below it, for a table whose own name ends like a backlog folder. -/
theorem pointer_exact_similar :
    markerFor "d/t_backlog/_backlog/a/_SUCCESS" = "d/t_backlog/a/_SUCCESS" ∧
      "d/t_backlog/_backlog/_SUCCESS" < "d/t_backlog/_backlog/a/_SUCCESS" := by
  have htable : "d/t_backlog" ≠ "" := by decide
  have hshallow : pointerFor "d/t_backlog" "d/t_backlog/_SUCCESS" = .ok "d/t_backlog/_backlog/_SUCCESS" :=
    pointerFor_eq_ok_iff.2 ⟨"_SUCCESS", by decide, by decide, by decide⟩
  have hdeep : pointerFor "d/t_backlog" "d/t_backlog/a/_SUCCESS" = .ok "d/t_backlog/_backlog/a/_SUCCESS" :=
    pointerFor_eq_ok_iff.2 ⟨"a/_SUCCESS", by decide, by decide, by decide⟩
  obtain ⟨-, -, horder⟩ := pointer_exact htable (show Key.isBacklog "d/t_backlog/_SUCCESS" = false by decide)
  obtain ⟨hexact, -, -⟩ := pointer_exact htable (show Key.isBacklog "d/t_backlog/a/_SUCCESS" = false by decide)
  exact ⟨(hexact _ hdeep).2.2.1, (horder _ _ _ hshallow hdeep).1.2 (by decide)⟩

end Backlog
end Intake
