import Intake.Proofs.JobName
import Mathlib.Data.List.DropRight
import Intake.TableLock
/-!
# LockText — what the texts that the engine leaves in a lock are read as

The name of a job is read as that name, and a failure as a text set by hand, for every prefix that is not empty and
does not start with a blank.  The name of a part that was cut so far that it lost its prefix is read as set by hand.
-/
namespace Intake

/-- A prefix of job names that trimming leaves alone: it has a first character, which is not blank. -/
def JobId.IsLead (jobPrefix : String) : Prop := ∃ c cs, jobPrefix.toList = c :: cs ∧ isBlank c = false

/-- A text that starts and ends with characters that are not blank. -/
def Unpadded (text : String) : Prop :=
  (∃ a, text.toList.head? = some a ∧ isBlank a = false) ∧ ∃ b, text.toList.getLast? = some b ∧ isBlank b = false

theorem Unpadded.trim {text : String} (h : Unpadded text) : trim text = text := by
  obtain ⟨⟨a, ha, ha'⟩, b, hb, hb'⟩ := h
  rw [Intake.trim, trimChars_of_ends ha hb ha' hb', String.ofList_toList]

theorem Unpadded.isEmpty {text : String} (h : Unpadded text) : text.isEmpty = false := by
  obtain ⟨⟨a, ha, -⟩, -⟩ := h
  refine String.isEmpty_eq_false_iff.2 ?_
  rintro rfl
  cases ha

/-- **A text without outer blanks is read as it was written**, as a job or as set by hand. -/
theorem LockBody.ofOctets?_encode {text : String} (jobPrefix : String) (h : Unpadded text) :
    ofOctets? jobPrefix (Utf8.encode text) = some (if startsWith jobPrefix text then .job text else .manual text) := by
  simp only [ofOctets?, Utf8.decodeLossy_encode, h.trim, h.isEmpty, Bool.false_eq_true, ↓reduceIte]
  split <;> rfl

/-- What is read as set by hand does not start with the prefix. -/
theorem LockBody.startsWith_of_manual {jobPrefix text : String} {octets : Octets}
    (h : ofOctets? jobPrefix octets = some (.manual text)) : startsWith jobPrefix text = false := by
  simp only [ofOctets?] at h
  split at h
  · cases h
  · split at h
    · cases h
    · rename_i hstarts
      cases h
      simpa using hstarts

/-- Trimming a text that does not start with a blank cuts it at the end only. -/
theorem trimChars_cons {c : Char} {cs : List Char} (hc : isBlank c = false) :
    ∃ cs', trimChars (c :: cs) = c :: cs' ∧ c :: cs' <+: c :: cs := by
  have hd : (c :: cs).dropWhile isBlank = c :: cs := by simp [hc]
  have hl : (c :: cs).rdropWhile isBlank ≠ [] := by
    rw [Ne, List.rdropWhile_eq_nil_iff]
    exact fun h => by simpa [hc] using h c List.mem_cons_self
  have hp : (c :: cs).rdropWhile isBlank <+: c :: cs := List.rdropWhile_prefix _ _
  have he : trimChars (c :: cs) = (c :: cs).rdropWhile isBlank := by rw [trimChars, hd]; rfl
  rw [he]
  cases hr : (c :: cs).rdropWhile isBlank with
  | nil => exact absurd hr hl
  | cons a as =>
    rw [hr] at hp
    obtain rfl := (List.cons_prefix_cons.1 hp).1
    exact ⟨as, rfl, hp⟩

/-- **A text that starts neither with a blank nor with the prefix is read as set by hand.** -/
theorem LockBody.ofOctets?_manual {jobPrefix text : String} {c : Char} {cs : List Char} (ht : text.toList = c :: cs)
    (hc : isBlank c = false) (hp : startsWith jobPrefix text = false) :
    ∃ t, ofOctets? jobPrefix (Utf8.encode text) = some (.manual t) := by
  obtain ⟨cs', he, hpre⟩ := trimChars_cons hc
  have htrim : (trim text).toList = c :: cs' := by rw [trim, String.toList_ofList, ht, he]
  have hne : (trim text).isEmpty = false := String.isEmpty_eq_false_iff.2 fun h => by rw [h] at htrim; cases htrim
  have hns : startsWith jobPrefix (trim text) = false := by
    rw [← Bool.not_eq_true] at hp ⊢
    intro h
    apply hp
    rw [startsWith, List.isPrefixOf_iff_prefix, htrim] at h
    rw [startsWith, List.isPrefixOf_iff_prefix, ht]
    exact h.trans hpre
  exact ⟨trim text, by simp [ofOctets?, hne, hns]⟩

theorem trimChars_eq (l : List Char) : trimChars l = (l.dropWhile isBlank).rdropWhile isBlank := rfl

theorem not_blank_of_dropWhile {l cs : List Char} {c : Char} (h : l.dropWhile isBlank = c :: cs) :
    isBlank c = false := by
  have hc := List.head?_dropWhile_not isBlank l
  rw [h] at hc
  exact hc

theorem trimChars_ne_nil {l : List Char} {b : Char} (hb : b ∈ l) (hb' : isBlank b = false) : trimChars l ≠ [] := by
  intro h
  rw [trimChars_eq, List.rdropWhile_eq_nil_iff] at h
  cases hkept : l.dropWhile isBlank with
  | nil => exact Bool.eq_false_iff.1 hb' (List.dropWhile_eq_nil_iff.1 hkept b hb)
  | cons c cs => exact Bool.eq_false_iff.1 (not_blank_of_dropWhile hkept) (h c (hkept ▸ List.mem_cons_self))

theorem not_blank_of_trimChars {l cs : List Char} {c : Char} (h : trimChars l = c :: cs) : isBlank c = false := by
  have hpre : c :: cs <+: l.dropWhile isBlank := h ▸ List.rdropWhile_prefix _ _
  obtain ⟨rest, hrest⟩ := hpre
  exact not_blank_of_dropWhile hrest.symm

/-- **A text that starts with the prefix is read as it was written**, or as set by hand if the prefix starts with a blank,
which is trimmed off. -/
theorem LockBody.ofOctets?_of_startsWith {jobPrefix text : String} (hstarts : startsWith jobPrefix text = true)
    (hfirst : jobPrefix = "" → ∃ a, text.toList.head? = some a ∧ isBlank a = false)
    (hlast : ∃ b, text.toList.getLast? = some b ∧ isBlank b = false) :
    ofOctets? jobPrefix (Utf8.encode text) = some (.job text) ∨
      ∃ t, ofOctets? jobPrefix (Utf8.encode text) = some (.manual t) := by
  cases htext : text.toList with
  | nil =>
    rw [htext] at hlast
    obtain ⟨b, hb, -⟩ := hlast
    cases hb
  | cons a as =>
    cases ha : isBlank a with
    | false =>
      rw [ofOctets?_encode jobPrefix ⟨⟨a, by rw [htext]; rfl, ha⟩, hlast⟩, if_pos hstarts]
      exact .inl rfl
    | true =>
      obtain ⟨b, hb, hb'⟩ := hlast
      obtain ⟨c, cs, htrim⟩ := List.exists_cons_of_ne_nil (trimChars_ne_nil (List.mem_of_getLast? hb) hb')
      have hkept : (trim text).toList = c :: cs := by rw [trim, String.toList_ofList, htrim]
      have hne : (trim text).isEmpty = false := String.isEmpty_eq_false_iff.2 fun h => by rw [h] at hkept; cases hkept
      have hother : ¬ startsWith jobPrefix (trim text) = true := by
        intro h
        cases hprefix : jobPrefix.toList with
        | nil =>
          obtain ⟨a', ha', hblank⟩ := hfirst (String.toList_eq_nil_iff.1 hprefix)
          rw [htext] at ha'
          cases ha'
          rw [ha] at hblank
          cases hblank
        | cons p ps =>
          rw [startsWith, List.isPrefixOf_iff_prefix, hprefix, htext, List.cons_prefix_cons] at hstarts
          rw [startsWith, List.isPrefixOf_iff_prefix, hprefix, hkept, List.cons_prefix_cons] at h
          have hc := not_blank_of_trimChars htrim
          rw [← h.1, hstarts.1, ha] at hc
          cases hc
      refine .inr ⟨trim text, ?_⟩
      rw [ofOctets?, Utf8.decodeLossy_encode]
      simp only [hne, hother, Bool.false_eq_true, ↓reduceIte]

/-- The text starts with a small letter. -/
def StartsLower (text : String) : Prop := ∃ c cs, text.toList = c :: cs ∧ c.isLower = true

theorem StartsLower.append {text : String} (h : StartsLower text) (more : String) : StartsLower (text ++ more) := by
  obtain ⟨c, cs, e, hc⟩ := h
  exact ⟨c, cs ++ more.toList, by rw [String.toList_append, e]; rfl, hc⟩

theorem StoreFault.startsLower_message (fault : StoreFault) : StartsLower fault.message := by
  cases fault <;> exact StartsLower.append ⟨_, _, rfl, by decide⟩ _

theorem WarehouseFault.startsLower_message (fault : WarehouseFault) : StartsLower fault.message := by
  cases fault <;> exact StartsLower.append ⟨_, _, rfl, by decide⟩ _

/-- What is said of a failure starts with a small letter. -/
theorem Failure.startsLower_message (failure : Failure) : StartsLower failure.message := by
  cases failure with
  | warehouse fault => exact fault.startsLower_message
  | store fault => exact fault.startsLower_message
  | _ => repeat (first | exact ⟨_, _, rfl, by decide⟩ | apply StartsLower.append)

/-- What can be seen is not blank. -/
theorem not_blank_of_seen {c : Char} (h₁ : 33 ≤ c.toNat) (h₂ : c.toNat ≤ 126) : isBlank c = false := by
  simp only [isBlank, Bool.or_eq_false_iff, Bool.and_eq_false_iff, decide_eq_false_iff_not, beq_eq_false_iff_ne]
  omega

theorem isBlank_of_isLower {c : Char} (h : c.isLower = true) : isBlank c = false := by
  rw [show c.isLower = (decide (c.val ≥ 'a'.val) && decide (c.val ≤ 'z'.val)) from rfl] at h
  simp only [Bool.and_eq_true, decide_eq_true_eq, ge_iff_le, UInt32.le_iff_toNat_le] at h
  have h₁ : 97 ≤ c.toNat := h.1
  have h₂ : c.toNat ≤ 122 := h.2
  exact not_blank_of_seen (by omega) (by omega)

theorem JobId.IsLead.ne_empty {jobPrefix : String} (h : IsLead jobPrefix) : jobPrefix ≠ "" := by
  rintro rfl
  obtain ⟨c, cs, e, -⟩ := h
  cases e

/-- **A recorded failure is read as set by hand**, whatever the failure and whatever the prefix, if there is one. -/
theorem TableLock.ofOctets?_errorText (lock : TableLock) (hnonempty : lock.jobPrefix ≠ "") (failure : Failure) :
    ∃ t, LockBody.ofOctets? lock.jobPrefix (Utf8.encode (lock.errorText failure.message)) = some (.manual t) := by
  obtain ⟨c, cs, hm, hc⟩ := failure.startsLower_message
  unfold errorText
  split
  · -- the message starts like a name, so the prefix starts with a small letter and not with the `E` put before it
    rename_i hs
    obtain ⟨p, ps, hp⟩ := List.exists_cons_of_ne_nil fun h => hnonempty (String.toList_eq_nil_iff.1 h)
    rw [startsWith, List.isPrefixOf_iff_prefix, hp, hm, List.cons_prefix_cons] at hs
    obtain ⟨rfl, -⟩ := hs
    refine LockBody.ofOctets?_manual (String.toList_append ..) (by decide) ?_
    rw [← Bool.not_eq_true, startsWith, List.isPrefixOf_iff_prefix, hp, String.toList_append]
    intro h
    have := (List.cons_prefix_cons.1 h).1
    rw [this] at hc
    exact absurd hc (by decide)
  · rename_i hs
    exact LockBody.ofOctets?_manual hm (isBlank_of_isLower hc) (by simpa using hs)

namespace JobId

theorem not_blank_of_isHexDigit {c : Char} (h : isHexDigit c = true) : isBlank c = false := by
  simp only [isHexDigit, Bool.or_eq_true, Bool.and_eq_true, decide_eq_true_eq, Char.le_def,
    UInt32.le_iff_toNat_le] at h
  have h : (48 ≤ c.toNat ∧ c.toNat ≤ 57 ∨ 97 ≤ c.toNat ∧ c.toNat ≤ 102) ∨ 65 ≤ c.toNat ∧ c.toNat ≤ 70 := h
  exact not_blank_of_seen (by omega) (by omega)

theorem not_blank_of_isDigit {c : Char} (h : c.isDigit = true) : isBlank c = false := by
  refine not_blank_of_isHexDigit ?_
  simp only [Char.isDigit, Bool.and_eq_true, decide_eq_true_eq] at h
  have h : '0' ≤ c ∧ c ≤ '9' := h
  simp only [isHexDigit, h, decide_true, Bool.and_self, Bool.true_or]

theorem getLast?_make (jobPrefix marker : String) {s : String} (hs : IsSuffix s) :
    ∃ b, (make jobPrefix marker s).toList.getLast? = some b ∧ isBlank b = false := by
  obtain ⟨b, hb⟩ := Option.ne_none_iff_exists'.1 (fun h => hs.ne_nil (List.getLast?_eq_none_iff.1 h))
  refine ⟨b, by rw [make_eq]; simp [List.getLast?_cons, hb], not_blank_of_isHexDigit (hs.hex ?_)⟩
  exact List.mem_of_getLast? hb

theorem unpadded_make {jobPrefix marker s : String} (hlead : IsLead jobPrefix) (hs : IsSuffix s) :
    Unpadded (make jobPrefix marker s) := by
  obtain ⟨c, cs, hp, hc⟩ := hlead
  exact ⟨⟨c, by rw [make_eq]; simp [hp], hc⟩, getLast?_make jobPrefix marker hs⟩

theorem not_blank_cleanChar (c : Char) : isBlank (cleanChar c) = false :=
  not_blank_of_seen (seen_cleanChar c).1 (seen_cleanChar c).2

/-- Without a prefix a name starts with what tells its marker. -/
theorem head?_make_of_empty (marker s : String) : ∃ a, (make "" marker s).toList.head? = some a ∧ isBlank a = false := by
  rw [make_eq, String.toList_append, String.empty_append, body, String.toList_ofList]
  cases hbody : (marker.toList.map cleanChar).take (maxLength - ("".utf8ByteSize + suffixLength + 1 + tagRoom)) with
  | nil => exact ⟨'-', by rw [String.toList_append]; rfl, by decide⟩
  | cons c cs =>
    have hc : c ∈ marker.toList.map cleanChar := List.mem_of_mem_take (hbody ▸ List.mem_cons_self)
    obtain ⟨d, -, rfl⟩ := List.mem_map.1 hc
    exact ⟨_, rfl, not_blank_cleanChar d⟩

theorem getLast?_ofPart {id : String} (index total : Nat)
    (h : ∃ b, id.toList.getLast? = some b ∧ isBlank b = false) :
    ∃ b, (ofPart id index total).toList.getLast? = some b ∧ isBlank b = false := by
  unfold ofPart
  split
  · exact h
  · obtain ⟨c, cs, e, hc⟩ := decimal_cons index
    obtain ⟨b, hb⟩ : ∃ b, (decimal index).toList.getLast? = some b :=
      Option.ne_none_iff_exists'.1 fun hn => by rw [List.getLast?_eq_none_iff.1 hn] at e; cases e
    refine ⟨b, ?_, not_blank_of_isDigit (isDigit_of_mem_decimal (List.mem_of_getLast? hb))⟩
    simp [List.getLast?_cons, hb]

/-- **The name of a part is read as it was written**, even if it was cut. -/
theorem unpadded_ofPart {id : String} {index total : Nat} (h : Unpadded id) : Unpadded (ofPart id index total) := by
  refine ⟨?_, getLast?_ofPart index total h.2⟩
  unfold ofPart
  split
  · exact h.1
  · obtain ⟨⟨a, ha, ha'⟩, -⟩ := h
    simp only [String.toList_append, String.toList_ofList]
    cases hl : maxLength - ("-part" ++ decimal index).utf8ByteSize with
    | zero => exact ⟨'-', by simp, by decide⟩
    | succ n =>
      refine ⟨a, ?_, ha'⟩
      cases hi : id.toList with
      | nil => rw [hi] at ha; cases ha
      | cons x xs => rw [hi] at ha; cases ha; rfl

/-- **A name that has room for its tag is read as it was written**, or as set by hand. -/
theorem ofOctets?_ofPart {jobPrefix marker s : String} {index total : Nat} (hs : IsSuffix s)
    (hfits : nextIndex index ≠ total → Fits (make jobPrefix marker s) index) :
    LockBody.ofOctets? jobPrefix (Utf8.encode (ofPart (make jobPrefix marker s) index total)) =
        some (.job (ofPart (make jobPrefix marker s) index total)) ∨
      ∃ t, LockBody.ofOctets? jobPrefix (Utf8.encode (ofPart (make jobPrefix marker s) index total)) =
        some (.manual t) := by
  obtain ⟨tail, htail⟩ : ∃ tail, ofPart (make jobPrefix marker s) index total = make jobPrefix marker s ++ tail := by
    by_cases hlast : nextIndex index = total
    · exact ⟨"", by rw [ofPart_last hlast, String.append_empty]⟩
    · exact ⟨tag index, ofPart_of_fits hlast (hfits hlast)⟩
  refine LockBody.ofOctets?_of_startsWith ?_ (fun hempty => ?_) (getLast?_ofPart index total (getLast?_make _ _ hs))
  · rw [htail, make_eq, String.append_assoc, String.append_assoc]
    exact startsWith_iff.2 ⟨_, rfl⟩
  · obtain ⟨a, ha, hblank⟩ := head?_make_of_empty marker s
    refine ⟨a, ?_, hblank⟩
    rw [htail, hempty, String.toList_append, List.head?_append, ha]
    rfl

end JobId
end Intake
