import Intake.Proofs.JobName
/-!
# Naming — what the names of jobs tell apart

The names of a marker's parts are a code for their numbers: every name fits the warehouse, is read back as its load and
its number, and belongs to one part only (`ofPart_code`).  They are no code for the marker: a name is recognised for
every marker whose key is cleaned to the same text (`isFor_ofPart_iff`), so two keys are told apart only if they are
written in characters that cleaning keeps apart.
-/
namespace Intake
namespace JobId

/-! ## Sizes -/

/-- What stands for a character of a key takes one octet. -/
theorem utf8Size_cleanChar (c : Char) : (cleanChar c).utf8Size = 1 := by
  have hseen : (cleanChar c).toNat ≤ 127 := Nat.le_succ_of_le (seen_cleanChar c).2
  rw [Char.utf8Size_eq_one_iff, UInt32.le_iff_toNat_le]
  exact hseen

theorem utf8ByteSize_body (jobPrefix marker : String) :
    (body jobPrefix marker).utf8ByteSize = (body jobPrefix marker).toList.length := by
  refine utf8ByteSize_of_ascii fun c hc => ?_
  rw [body, String.toList_ofList] at hc
  obtain ⟨d, -, rfl⟩ := List.mem_map.1 (List.mem_of_mem_take hc)
  exact utf8Size_cleanChar d

/-- **A name keeps the room of a tag free**, if its prefix leaves that room. -/
theorem utf8ByteSize_make {jobPrefix marker s : String} (hs : IsSuffix s)
    (hshort : jobPrefix.utf8ByteSize + 49 ≤ maxLength) :
    (make jobPrefix marker s).utf8ByteSize + tagRoom ≤ maxLength := by
  have hbody : (body jobPrefix marker).utf8ByteSize ≤ maxLength - (jobPrefix.utf8ByteSize + 49) := by
    rw [utf8ByteSize_body, body, String.toList_ofList, List.length_take]
    exact Nat.min_le_left _ _
  have hsuffix := hs.1
  rw [make, String.utf8ByteSize_append, String.utf8ByteSize_append, String.utf8ByteSize_append,
    show "-".utf8ByteSize = 1 from rfl]
  unfold suffixLength at hsuffix
  unfold tagRoom
  omega

/-! ## The number of a part -/

section Parts

variable {jobPrefix marker s : String} {index index' : Nat} (hs : IsSuffix s)
  (hroom : jobPrefix.utf8ByteSize + 49 ≤ maxLength) (htag : (tag index).utf8ByteSize ≤ tagRoom) (total : Nat)

include hs hroom htag

theorem utf8ByteSize_ofPart_le : (ofPart (make jobPrefix marker s) index total).utf8ByteSize ≤ maxLength := by
  have hsize : (make jobPrefix marker s).utf8ByteSize + tagRoom ≤ maxLength := utf8ByteSize_make hs hroom
  have hlt := lt_of_utf8ByteSize_tag htag
  by_cases hlast : nextIndex index = total
  · rw [ofPart_last hlast]; omega
  · rw [ofPart_of_fits hlast (fits_of_room hs hroom hlt), String.utf8ByteSize_append]
    omega

/-- The tag read back says which part it is, and the last part is the one with none. -/
theorem splitPart_ofPart_of_room : splitPart (ofPart (make jobPrefix marker s) index total) =
    (make jobPrefix marker s, if index + 1 = total then none else some index) := by
  have hlt := lt_of_utf8ByteSize_tag htag
  rw [splitPart_ofPart hs (by omega) fun _ => fits_of_room hs hroom hlt, nextIndex]

theorem eq_of_ofPart_eq (htag' : (tag index').utf8ByteSize ≤ tagRoom)
    (h : ofPart (make jobPrefix marker s) index total = ofPart (make jobPrefix marker s) index' total) :
    index = index' := by
  have hread : splitPart (ofPart (make jobPrefix marker s) index total) = _ := splitPart_ofPart_of_room hs hroom htag total
  rw [h, splitPart_ofPart_of_room hs hroom htag', Prod.mk.injEq] at hread
  by_cases hlast : index + 1 = total
  · by_cases hlast' : index' + 1 = total
    · omega
    · simp [hlast, hlast'] at hread
  · by_cases hlast' : index' + 1 = total
    · simp [hlast, hlast'] at hread
    · simpa [hlast, hlast', eq_comm] using hread

end Parts

/-- **The names of parts are a code.**  Of a name whose prefix leaves room, every part with a tag that fits its room has
a name that the warehouse takes and that is read back as the load's name and the part's number; the last part has the
load's name itself, which is read back as no part's, whatever stands in the prefix or the key; and no two parts have
one name. -/
theorem ofPart_code {jobPrefix marker s : String} (hs : IsSuffix s) (hshort : jobPrefix.utf8ByteSize ≤ 975)
    (total : Nat) : splitPart (make jobPrefix marker s) = (make jobPrefix marker s, none) ∧
      ∀ index < total, (tag index).utf8ByteSize ≤ tagRoom →
        (ofPart (make jobPrefix marker s) index total).utf8ByteSize ≤ maxLength ∧
        (index + 1 < total → splitPart (ofPart (make jobPrefix marker s) index total) =
          (make jobPrefix marker s, some index)) ∧
        (index + 1 = total → ofPart (make jobPrefix marker s) index total = make jobPrefix marker s) ∧
        ∀ index' < total, (tag index').utf8ByteSize ≤ tagRoom →
          ofPart (make jobPrefix marker s) index total = ofPart (make jobPrefix marker s) index' total →
          index = index' := by
  have hroom : jobPrefix.utf8ByteSize + 49 ≤ maxLength := by unfold maxLength; omega
  refine ⟨splitPart_make _ _ hs, fun index hindex htag => ⟨utf8ByteSize_ofPart_le hs hroom htag total, fun hnext => ?_,
    fun hlast => ?_, fun index' hindex' htag' => eq_of_ofPart_eq hs hroom htag total htag'⟩⟩
  · rw [splitPart_ofPart_of_room hs hroom htag, if_neg (by omega)]
  · exact ofPart_last hlast

/-- A load of twelve parts whose prefix and key look as if they had tags. -/
theorem ofPart_code_tagged : IsSuffix "0123456789abcdef0123456789abcdef" ∧
    "run-part3-".utf8ByteSize ≤ 975 ∧ (tag 7).utf8ByteSize ≤ tagRoom ∧
    splitPart (ofPart (make "run-part3-" "d/t/x-part7/_SUCCESS-part9" "0123456789abcdef0123456789abcdef") 7 12) =
      (make "run-part3-" "d/t/x-part7/_SUCCESS-part9" "0123456789abcdef0123456789abcdef", some 7) := by
  have hs : IsSuffix "0123456789abcdef0123456789abcdef" := by decide
  have htag : (tag 7).utf8ByteSize ≤ tagRoom := utf8ByteSize_tag 11 (by omega) (by omega)
  exact ⟨hs, by decide, htag, ((ofPart_code hs (by decide) 12).2 7 (by omega) htag).2.1 (by omega)⟩

/-! ## The marker of a name -/

/-- Cleaning keeps the characters of the alphabet apart. -/
def KeepsApart (alphabet : Char → Prop) : Prop :=
  ∀ c d, alphabet c → alphabet d → cleanChar c = cleanChar d → c = d

theorem KeepsApart.eq_of_map {alphabet : Char → Prop} (h : KeepsApart alphabet) : ∀ {l l' : List Char},
    (∀ c ∈ l, alphabet c) → (∀ c ∈ l', alphabet c) → l.map cleanChar = l'.map cleanChar → l = l'
  | [], [], _, _, _ => rfl
  | [], _ :: _, _, _, he => by cases he
  | _ :: _, [], _, _, he => by cases he
  | c :: l, d :: l', hl, hl', he => by
    obtain ⟨hcd, hrest⟩ := List.cons.inj he
    rw [h c d (hl c List.mem_cons_self) (hl' d List.mem_cons_self) hcd,
      h.eq_of_map (fun c hc => hl c (List.mem_cons_of_mem _ hc)) (fun c hc => hl' c (List.mem_cons_of_mem _ hc)) hrest]

/-- A body for which there is room is the whole key, cleaned. -/
theorem body_of_room {jobPrefix marker : String}
    (h : jobPrefix.utf8ByteSize + marker.toList.length + 49 ≤ maxLength) :
    body jobPrefix marker = String.ofList (marker.toList.map cleanChar) := by
  unfold body maxLength suffixLength tagRoom at *
  rw [List.take_of_length_le (by rw [List.length_map]; omega)]

/-- Keys in an alphabet that is kept apart, and for which there is room, have different bodies. -/
theorem KeepsApart.body_inj {alphabet : Char → Prop} (h : KeepsApart alphabet) {jobPrefix marker marker' : String}
    (hmarker : ∀ c ∈ marker.toList, alphabet c) (hmarker' : ∀ c ∈ marker'.toList, alphabet c)
    (hroom : jobPrefix.utf8ByteSize + marker.toList.length + 49 ≤ maxLength)
    (hroom' : jobPrefix.utf8ByteSize + marker'.toList.length + 49 ≤ maxLength) :
    body jobPrefix marker = body jobPrefix marker' ↔ marker = marker' := by
  refine ⟨fun he => ?_, fun he => he ▸ rfl⟩
  rw [body_of_room hroom, body_of_room hroom', ← String.toList_inj, String.toList_ofList, String.toList_ofList] at he
  exact String.toList_inj.1 (h.eq_of_map hmarker hmarker' he)

/-- **What a name tells of its marker.**  The name of a part is recognised for a marker exactly if the marker's body is
that of the marker it was made for and the name was not cut for its tag.  For keys in an alphabet that cleaning keeps
apart, for which there is room, that is to say exactly for the marker it was made for. -/
theorem isFor_ofPart_iff {jobPrefix marker marker' s : String} {index : Nat} (hs : IsSuffix s)
    (hindex : index < 2 ^ 64) (total : Nat) :
    (isFor (ofPart (make jobPrefix marker' s) index total) jobPrefix marker = true ↔
      body jobPrefix marker' = body jobPrefix marker ∧
        (nextIndex index = total ∨ Fits (make jobPrefix marker' s) index)) ∧
    ∀ alphabet, KeepsApart alphabet → (∀ c ∈ marker.toList, alphabet c) → (∀ c ∈ marker'.toList, alphabet c) →
      jobPrefix.utf8ByteSize + marker.toList.length + 49 ≤ maxLength →
      jobPrefix.utf8ByteSize + marker'.toList.length + 49 ≤ maxLength → index < 10 ^ 11 →
      (isFor (ofPart (make jobPrefix marker' s) index total) jobPrefix marker = true ↔ marker = marker') := by
  have hexact : isFor (ofPart (make jobPrefix marker' s) index total) jobPrefix marker = true ↔
      body jobPrefix marker' = body jobPrefix marker ∧
        (nextIndex index = total ∨ Fits (make jobPrefix marker' s) index) := by
    by_cases hwhole : nextIndex index = total ∨ Fits (make jobPrefix marker' s) index
    · rw [isFor_ofPart hs hindex hwhole.resolve_left, and_iff_left hwhole]
    · obtain ⟨hlast, hcut⟩ := not_or.1 hwhole
      simp [isFor_ofPart_of_cut hs hindex hlast hcut, hwhole]
  refine ⟨hexact, fun alphabet hapart hmarker hmarker' hroom hroom' hshort => ?_⟩
  have hfits : Fits (make jobPrefix marker' s) index := fits_of_room hs (by omega) hshort
  rw [hexact, and_iff_left (.inr hfits), hapart.body_inj hmarker' hmarker hroom' hroom, eq_comm]

/-- Letters, digits, underscores and slashes are kept apart: a slash becomes the dash that is not among them. -/
theorem keepsApart_plain : KeepsApart fun c => c.isAlphanum = true ∨ c = '_' ∨ c = '/' := by
  have hsame : ∀ c, c.isAlphanum = true ∨ c = '_' → cleanChar c = c := by
    rintro c (h | rfl)
    · simp [cleanChar, h]
    · rfl
  have hdash : ∀ c, c.isAlphanum = true ∨ c = '_' → c ≠ '-' := by
    rintro c h rfl
    revert h; decide
  have hslash : cleanChar '/' = '-' := rfl
  intro c d hc hd he
  rw [← or_assoc] at hc hd
  rcases hc with hc | rfl <;> rcases hd with hd | rfl
  · rwa [hsame c hc, hsame d hd] at he
  · rw [hsame c hc, hslash] at he
    exact absurd he (hdash c hc)
  · rw [hsame d hd, hslash] at he
    exact absurd he.symm (hdash d hd)
  · rfl

/-- A plain key is told apart from one that is a day further. -/
theorem isFor_ofPart_iff_plain : IsSuffix "0123456789abcdef0123456789abcdef" ∧
    (isFor (ofPart (make "load-" "d/t/2024/01/_SUCCESS" "0123456789abcdef0123456789abcdef") 0 2) "load-"
      "d/t/2024/02/_SUCCESS" = true ↔ "d/t/2024/02/_SUCCESS" = "d/t/2024/01/_SUCCESS") := by
  have hs : IsSuffix "0123456789abcdef0123456789abcdef" := by decide
  have hplain : ∀ key : String, key.toList.all (fun c => c.isAlphanum || c == '_' || c == '/') = true →
      ∀ c ∈ key.toList, c.isAlphanum = true ∨ c = '_' ∨ c = '/' := fun key h => by
    simpa only [List.all_eq_true, Bool.or_eq_true, beq_iff_eq, or_assoc] using h
  exact ⟨hs, (isFor_ofPart_iff hs (by omega) 2).2 _ keepsApart_plain (hplain _ (by decide)) (hplain _ (by decide))
    (by decide) (by decide) (by omega)⟩

/-- **A slash and a dash are not kept apart**: the name of one marker's job is recognised for another marker of the same
table. -/
theorem isFor_of_dash : "d/t/2024/01/_SUCCESS" ≠ "d/t/2024-01/_SUCCESS" ∧
    isFor (ofPart (make "gcf-ingest-" "d/t/2024-01/_SUCCESS" "00000000000040008000000000000001") 0 1) "gcf-ingest-"
      "d/t/2024/01/_SUCCESS" = true := by
  decide +kernel

end JobId
end Intake
