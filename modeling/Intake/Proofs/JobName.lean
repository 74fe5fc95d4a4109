import Intake.Job.Id
import Intake.Proofs.Text
/-!
# JobName — what the name of a job tells

A name is the prefix, the body of its marker, a drawn suffix and, for all parts but the last, a tag with the number of
the part.  Taking the tag off gives the name that the marker's parts share (`splitPart_ofPart`), and that name tells the
marker by its body (`isFor_iff`, `isFor_ofPart`).  All of this holds of names that are not cut to make room for the tag.
-/
namespace Intake

theorem utf8ByteSize_ofList_cons (c : Char) (l : List Char) :
    (String.ofList (c :: l)).utf8ByteSize = c.utf8Size + (String.ofList l).utf8ByteSize := by
  have h : String.ofList (c :: l) = String.singleton c ++ String.ofList l := by
    rw [← String.toList_inj]; simp
  rw [h, String.utf8ByteSize_append, String.utf8ByteSize_singleton]

theorem length_le_utf8ByteSize (s : String) : s.toList.length ≤ s.utf8ByteSize := by
  suffices h : ∀ l : List Char, l.length ≤ (String.ofList l).utf8ByteSize by simpa using h s.toList
  intro l
  induction l with
  | nil => simp
  | cons c l ih =>
    rw [utf8ByteSize_ofList_cons, List.length_cons]
    have := c.utf8Size_pos
    omega

theorem utf8ByteSize_of_ascii {s : String} (h : ∀ c ∈ s.toList, c.utf8Size = 1) : s.utf8ByteSize = s.toList.length := by
  suffices h : ∀ l : List Char, (∀ c ∈ l, c.utf8Size = 1) → (String.ofList l).utf8ByteSize = l.length by
    simpa using h s.toList ‹_›
  intro l hl
  induction l with
  | nil => simp
  | cons c l ih =>
    rw [utf8ByteSize_ofList_cons, List.length_cons, ih fun c hc => hl c (List.mem_cons_of_mem _ hc),
      hl c List.mem_cons_self, Nat.add_comm]

namespace JobId

/-- A suffix as it is drawn. -/
def IsSuffix (s : String) : Prop := s.utf8ByteSize = suffixLength ∧ s.toList.all isHexDigit = true

instance (s : String) : Decidable (IsSuffix s) := inferInstanceAs (Decidable (_ ∧ _))

/-- What stands for a character of a key can be seen. -/
theorem seen_cleanChar (c : Char) : 33 ≤ (cleanChar c).toNat ∧ (cleanChar c).toNat ≤ 126 := by
  unfold cleanChar
  split
  · rename_i h
    simp only [Bool.or_eq_true, beq_iff_eq] at h
    obtain (h | rfl) | rfl := h
    · rw [show c.isAlphanum = (decide (c.val ≥ 'A'.val ∧ c.val ≤ 'Z'.val) ||
        decide (c.val ≥ 'a'.val) && decide (c.val ≤ 'z'.val) || decide (c.val ≥ '0'.val) && decide (c.val ≤ '9'.val))
        from rfl] at h
      simp only [Bool.or_eq_true, Bool.and_eq_true, decide_eq_true_eq, ge_iff_le, UInt32.le_iff_toNat_le] at h
      have h : ((65 ≤ c.toNat ∧ c.toNat ≤ 90) ∨ 97 ≤ c.toNat ∧ c.toNat ≤ 122) ∨ 48 ≤ c.toNat ∧ c.toNat ≤ 57 := h
      omega
    · decide
    · decide
  · split <;> decide

def tag (index : Nat) : String := "-part" ++ decimal index

/-- The name has room for the tag of a part. -/
def Fits (id : String) (index : Nat) : Prop := id.toList.length + (tag index).utf8ByteSize ≤ maxLength

theorem IsSuffix.hex {s : String} (h : IsSuffix s) {c : Char} (hc : c ∈ s.toList) : isHexDigit c = true :=
  List.all_eq_true.1 h.2 c hc

theorem IsSuffix.dash_notMem {s : String} (h : IsSuffix s) : '-' ∉ s.toList :=
  fun hc => absurd (h.hex hc) (by decide)

theorem IsSuffix.ne_nil {s : String} (h : IsSuffix s) : s.toList ≠ [] := fun e => by
  have : s = "" := by rw [← String.toList_inj, e]; rfl
  rw [this] at h; revert h; decide

theorem dash_notMem_digits {l : List Char} (h : l.all (fun c => (digitValue? c).isSome) = true) : '-' ∉ l :=
  fun hc => absurd (List.all_eq_true.1 h '-' hc) (by decide)

theorem toList_part : "-part".toList = '-' :: ['p', 'a', 'r', 't'] := rfl

/-- The last dash of a text divides it in one way only. -/
theorem eq_of_dash {a b a' b' : List Char} (hb : '-' ∉ b) (hb' : '-' ∉ b') (h : a ++ '-' :: b = a' ++ '-' :: b') :
    a = a' ∧ b = b' := by
  have h₁ : Text.cutLast? ['-'] (a ++ '-' :: b) = some (a, b) := Text.cutLast?_of_notMem a (by simp) hb
  have h₂ : Text.cutLast? ['-'] (a' ++ '-' :: b') = some (a', b') := Text.cutLast?_of_notMem a' (by simp) hb'
  rw [h, h₂] at h₁
  cases h₁
  exact ⟨rfl, rfl⟩

/-- **What taking the tag off a name gives**: the name itself, or what stands before a tag of digits. -/
theorem splitPart_cases (id : String) : splitPart id = (id, none) ∨
    ∃ base digits index, id = base ++ ("-part" ++ digits) ∧ digits.toList.all (fun c => (digitValue? c).isSome) = true ∧
      digits.isEmpty = false ∧ readWord64 digits = .ok index ∧ splitPart id = (base, some index) := by
  unfold splitPart
  cases hc : cutTextLast? "-part" id with
  | none => exact .inl rfl
  | some found =>
    obtain ⟨base, digits⟩ := found
    obtain ⟨⟨b, a⟩, hl, e⟩ := Option.map_eq_some_iff.1 hc
    cases e
    simp only
    split
    · exact .inl rfl
    · rename_i hd
      simp only [Bool.or_eq_true, Bool.not_eq_true', not_or, Bool.not_eq_true, Bool.not_eq_false] at hd
      cases hr : readWord64 (String.ofList a) with
      | error fault => exact .inl rfl
      | ok index =>
        refine .inr ⟨_, _, index, ?_, hd.2, hd.1, hr, rfl⟩
        rw [← String.toList_inj, Text.cutLast?_eq_some hl]
        simp

/-- Digits after a name are taken off as its tag. -/
theorem splitPart_append (base : String) {digits : String} {index : Nat}
    (hd : digits.toList.all (fun c => (digitValue? c).isSome) = true) (he : digits.isEmpty = false)
    (hr : readWord64 digits = .ok index) : splitPart (base ++ ("-part" ++ digits)) = (base, some index) := by
  have hc : cutTextLast? "-part" (base ++ ("-part" ++ digits)) = some (base, digits) := by
    unfold cutTextLast?
    rw [String.toList_append, String.toList_append, toList_part,
      Text.cutLast?_of_notMem base.toList (by decide) (dash_notMem_digits hd)]
    simp
  simp only [splitPart, hc, he, hd, hr, Bool.not_true, Bool.or_false, Bool.false_eq_true, ↓reduceIte]

theorem splitPart_tag (base : String) {index : Nat} (h : index < 2 ^ 64) :
    splitPart (base ++ tag index) = (base, some index) := by
  refine splitPart_append base (List.all_eq_true.2 fun c hc => ?_) ?_ (readUpTo_decimal (by rw [maxWord64_eq]; omega))
  · rw [digitValue?_of_isDigit (isDigit_of_mem_decimal hc)]; rfl
  · obtain ⟨c, cs, e, -⟩ := decimal_cons index
    refine String.isEmpty_eq_false_iff.2 fun he => ?_
    rw [he] at e; cases e

/-- **A name that ends in a suffix has no tag.** -/
theorem splitPart_suffix (front : String) {s : String} (hs : IsSuffix s) :
    splitPart (front ++ ("-" ++ s)) = (front ++ ("-" ++ s), none) := by
  rcases splitPart_cases (front ++ ("-" ++ s)) with h | ⟨base, digits, index, he, hd, -, -, -⟩
  · exact h
  · rw [← String.toList_inj] at he
    simp only [String.toList_append, toList_part] at he
    have hn : '-' ∉ ['p', 'a', 'r', 't'] ++ digits.toList := by simp [dash_notMem_digits hd]
    obtain ⟨-, hsd⟩ := eq_of_dash hs.dash_notMem hn he
    exact absurd (hs.hex (c := 'p') (by rw [hsd]; simp)) (by decide)

theorem make_eq (jobPrefix marker suffix : String) :
    make jobPrefix marker suffix = jobPrefix ++ body jobPrefix marker ++ ("-" ++ suffix) := by
  rw [make, String.append_assoc]

theorem splitPart_make (jobPrefix marker : String) {s : String} (hs : IsSuffix s) :
    splitPart (make jobPrefix marker s) = (make jobPrefix marker s, none) := by
  rw [make_eq]; exact splitPart_suffix _ hs

/-- **The name of a marker's job tells the marker's body and the suffix.** -/
theorem make_inj {jobPrefix marker marker' s s' : String} (hs : IsSuffix s) (hs' : IsSuffix s')
    (h : make jobPrefix marker s = make jobPrefix marker' s') :
    body jobPrefix marker = body jobPrefix marker' ∧ s = s' := by
  rw [make_eq, make_eq, ← String.toList_inj] at h
  simp only [String.toList_append] at h
  obtain ⟨h₁, h₂⟩ := eq_of_dash hs.dash_notMem hs'.dash_notMem h
  exact ⟨String.toList_inj.1 (List.append_cancel_left h₁), String.toList_inj.1 h₂⟩

/-- The name is one of a marker's exactly if, without its tag, it is a name made for the marker. -/
theorem isFor_iff {id jobPrefix marker : String} :
    isFor id jobPrefix marker = true ↔ ∃ s, IsSuffix s ∧ (splitPart id).1 = make jobPrefix marker s := by
  have hrest : isFor id jobPrefix marker = true ↔
      ∃ rest, id = jobPrefix ++ body jobPrefix marker ++ ("-" ++ rest) ∧ IsSuffix (splitPart rest).1 := by
    unfold isFor
    split
    · rename_i hn
      simp only [Bool.false_eq_true, false_iff, not_exists, not_and]
      rintro rest rfl
      simp [String.append_assoc] at hn
    · rename_i rest hsome
      simp only [Option.bind_eq_bind, Option.bind_eq_some_iff, dropStart?_eq_some] at hsome
      obtain ⟨x, rfl, y, rfl, rfl⟩ := hsome
      simp only [Bool.and_eq_true, beq_iff_eq]
      constructor
      · exact fun h => ⟨rest, by simp [String.append_assoc], h⟩
      · rintro ⟨rest', he, h⟩
        have : rest' = rest := by
          simp only [String.append_assoc, String.append_right_inj] at he
          exact he.symm
        rwa [this] at h
  rw [hrest]
  constructor
  · rintro ⟨rest, rfl, hs⟩
    rcases splitPart_cases rest with h | ⟨base, digits, index, rfl, hd, he, hr, h⟩
    · rw [h] at hs
      exact ⟨rest, hs, by rw [splitPart_suffix _ hs, make_eq]⟩
    · rw [h] at hs
      refine ⟨base, hs, ?_⟩
      have e : jobPrefix ++ body jobPrefix marker ++ ("-" ++ (base ++ ("-part" ++ digits))) =
          make jobPrefix marker base ++ ("-part" ++ digits) := by simp [make_eq, String.append_assoc]
      rw [e, splitPart_append _ hd he hr]
  · rintro ⟨s, hs, h⟩
    rcases splitPart_cases id with h' | ⟨base, digits, index, rfl, hd, he, hr, h'⟩
    · rw [h', make_eq] at h
      refine ⟨s, h, ?_⟩
      rcases splitPart_cases s with hsp | ⟨base, digits, index, rfl, -, -, -, -⟩
      · rwa [hsp]
      · exact absurd (by simp) hs.dash_notMem
    · rw [h', make_eq] at h
      refine ⟨s ++ ("-part" ++ digits), ?_, ?_⟩
      · rw [show base = _ from h]; simp [String.append_assoc]
      · rw [splitPart_append s hd he hr]; exact hs

/-- **Two markers one name is for have the same body.** -/
theorem body_eq_of_isFor {id jobPrefix marker marker' : String} (h : isFor id jobPrefix marker = true)
    (h' : isFor id jobPrefix marker' = true) : body jobPrefix marker = body jobPrefix marker' := by
  obtain ⟨s, hs, e⟩ := isFor_iff.1 h
  obtain ⟨s', hs', e'⟩ := isFor_iff.1 h'
  exact (make_inj hs hs' (e.symm.trans e')).1

theorem ofPart_last {id : String} {index total : Nat} (h : nextIndex index = total) : ofPart id index total = id :=
  if_pos h

/-- All parts but the last get a tag, for which their name is cut if need be. -/
theorem ofPart_of_ne {id : String} {index total : Nat} (h : nextIndex index ≠ total) : ofPart id index total =
    String.ofList (id.toList.take (maxLength - (tag index).utf8ByteSize)) ++ tag index := by
  simp only [ofPart, h, ↓reduceIte]
  rfl

/-- A name that has room for the tag gets it whole. -/
theorem ofPart_of_fits {id : String} {index total : Nat} (h : nextIndex index ≠ total) (hf : Fits id index) :
    ofPart id index total = id ++ tag index := by
  have hl : id.toList.length ≤ maxLength - (tag index).utf8ByteSize := by unfold Fits at hf; omega
  rw [ofPart_of_ne h, List.take_of_length_le hl, String.ofList_toList]

/-- **A part's name without its tag is the name its marker's parts share.** -/
theorem splitPart_ofPart {jobPrefix marker s : String} {index total : Nat} (hs : IsSuffix s) (hi : index < 2 ^ 64)
    (hf : nextIndex index ≠ total → Fits (make jobPrefix marker s) index) :
    splitPart (ofPart (make jobPrefix marker s) index total) =
      (make jobPrefix marker s, if nextIndex index = total then none else some index) := by
  by_cases h : nextIndex index = total
  · rw [ofPart_last h, if_pos h, splitPart_make _ _ hs]
  · rw [ofPart_of_fits h (hf h), if_neg h, splitPart_tag _ hi]

/-- **A part's name is for exactly the markers with its marker's body.** -/
theorem isFor_ofPart {jobPrefix marker marker' s : String} {index total : Nat} (hs : IsSuffix s) (hi : index < 2 ^ 64)
    (hf : nextIndex index ≠ total → Fits (make jobPrefix marker s) index) :
    isFor (ofPart (make jobPrefix marker s) index total) jobPrefix marker' = true ↔
      body jobPrefix marker = body jobPrefix marker' := by
  rw [isFor_iff, splitPart_ofPart hs hi hf]
  constructor
  · rintro ⟨s', hs', h⟩
    exact (make_inj hs hs' h).1
  · exact fun h => ⟨s, hs, by rw [make_eq, make_eq, h]⟩

/-! ## Names that are cut

The next result needs no room for the tag.  Cutting a name takes away at most a part of its suffix, unless the prefix
leaves no room for a body at all, and then all names are of one length. -/

theorem utf8Size_of_isDigit {c : Char} (h : c.isDigit = true) : c.utf8Size = 1 := by
  simp only [Char.isDigit, Bool.and_eq_true, decide_eq_true_eq] at h
  rw [Char.utf8Size_eq_one_iff]
  have := h.2
  exact UInt32.le_trans this (by decide)

theorem utf8Size_of_isHexDigit {c : Char} (h : isHexDigit c = true) : c.utf8Size = 1 := by
  simp only [isHexDigit, Bool.or_eq_true, Bool.and_eq_true, decide_eq_true_eq] at h
  rw [Char.utf8Size_eq_one_iff]
  rcases h with (⟨-, h⟩ | ⟨-, h⟩) | ⟨-, h⟩ <;> exact UInt32.le_trans h (by decide)

theorem IsSuffix.length {s : String} (h : IsSuffix s) : s.toList.length = suffixLength := by
  rw [← h.1, utf8ByteSize_of_ascii fun c hc => utf8Size_of_isHexDigit (h.hex hc)]

theorem utf8ByteSize_tag_eq (index : Nat) : (tag index).utf8ByteSize = (Nat.toDigits 10 index).length + 5 := by
  have hsize := utf8ByteSize_of_ascii fun c hc => utf8Size_of_isDigit (isDigit_of_mem_decimal (n := index) hc)
  rw [toList_decimal] at hsize
  rw [tag, String.utf8ByteSize_append, hsize, show "-part".utf8ByteSize = 5 from rfl, Nat.add_comm]

/-- The tag of a short number is short. -/
theorem utf8ByteSize_tag (digits : Nat) {index : Nat} (hpos : 0 < digits) (h : index < 10 ^ digits) :
    (tag index).utf8ByteSize ≤ digits + 5 := by
  have hdigits : (Nat.toDigits 10 index).length ≤ digits := (Nat.length_toDigits_le_iff (by omega) hpos).2 h
  rw [utf8ByteSize_tag_eq]
  omega

/-- The number on a short tag is short. -/
theorem lt_of_utf8ByteSize_tag {index : Nat} (h : (tag index).utf8ByteSize ≤ tagRoom) : index < 10 ^ 11 := by
  rw [utf8ByteSize_tag_eq] at h
  unfold tagRoom at h
  exact (Nat.length_toDigits_le_iff (by omega) (by omega)).1 (show (Nat.toDigits 10 index).length ≤ 11 by omega)

/-- A body is there only if the prefix leaves room for it. -/
theorem room_of_body {jobPrefix marker : String} (h : 0 < (body jobPrefix marker).toList.length) :
    jobPrefix.toList.length + (body jobPrefix marker).toList.length + 49 ≤ maxLength := by
  have hp := length_le_utf8ByteSize jobPrefix
  unfold body at h ⊢
  simp only [String.toList_ofList, List.length_take, List.length_map] at h ⊢
  unfold maxLength suffixLength tagRoom at *
  omega

theorem length_make (jobPrefix marker : String) {s : String} (hs : IsSuffix s) :
    (make jobPrefix marker s).toList.length = jobPrefix.toList.length + (body jobPrefix marker).toList.length + 33 := by
  have := hs.length
  simp only [make, String.toList_append, List.length_append, this, show "-".toList.length = 1 from rfl]
  unfold suffixLength
  omega

/-- **A prefix that leaves room for a body leaves room for the tags of parts** with numbers of up to eleven digits. -/
theorem fits_of_room {jobPrefix marker s : String} {index : Nat} (hs : IsSuffix s)
    (hshort : jobPrefix.utf8ByteSize + 49 ≤ maxLength) (hindex : index < 10 ^ 11) :
    Fits (make jobPrefix marker s) index := by
  have hp := length_le_utf8ByteSize jobPrefix
  have htag := utf8ByteSize_tag 11 (by omega) hindex
  have hbody := @room_of_body jobPrefix marker
  rw [Fits, length_make _ _ hs]
  omega

/-- A prefix that is too long leaves no room. -/
theorem not_fits_of_length {jobPrefix marker s : String} {index : Nat} (hs : IsSuffix s)
    (h : maxLength < jobPrefix.toList.length + 33 + (tag index).utf8ByteSize) :
    ¬ Fits (make jobPrefix marker s) index := by
  rw [Fits, length_make _ _ hs]
  omega

/-- A name that was cut for a tag is no whole name. -/
theorem make_eq_of_take {jobPrefix marker marker' s s' : String} {tagSize : Nat} (hs : IsSuffix s) (hs' : IsSuffix s')
    (htag : tagSize ≤ 25) (h : (make jobPrefix marker s).toList.take (maxLength - tagSize) =
      (make jobPrefix marker' s').toList) : make jobPrefix marker' s' = make jobPrefix marker s := by
  by_cases hcut : (make jobPrefix marker s).toList.length ≤ maxLength - tagSize
  · rw [List.take_of_length_le hcut] at h
    exact (String.toList_inj.1 h).symm
  exfalso
  have hlen := congrArg List.length h
  have hmake := length_make jobPrefix marker hs
  rw [List.length_take, length_make jobPrefix marker' hs'] at hlen
  have hroom := @room_of_body jobPrefix marker
  unfold maxLength at *
  -- the cut is within the suffix, so the same dash is the last one
  have hsplit : (make jobPrefix marker s).toList.take (1024 - tagSize) =
      (jobPrefix.toList ++ (body jobPrefix marker).toList) ++ '-' :: s.toList.take (1024 - tagSize -
        (jobPrefix.toList.length + (body jobPrefix marker).toList.length + 1)) := by
    rw [make_eq]
    simp only [String.toList_append, show "-".toList = ['-'] from rfl]
    have hrest : 1024 - tagSize - (jobPrefix.toList ++ (body jobPrefix marker).toList).length = 1024 - tagSize -
        (jobPrefix.toList.length + (body jobPrefix marker).toList.length + 1) + 1 := by
      rw [List.length_append]; omega
    rw [List.take_append, List.take_of_length_le (by rw [List.length_append]; omega), hrest, List.singleton_append,
      List.take_succ_cons]
  rw [hsplit, make_eq] at h
  simp only [String.toList_append, show "-".toList = ['-'] from rfl] at h
  obtain ⟨hfront, -⟩ := eq_of_dash (fun hc => hs.dash_notMem (List.mem_of_mem_take hc)) hs'.dash_notMem h
  have := congrArg List.length (List.append_cancel_left hfront)
  omega

/-- **A part's name without its tag is no other marker's name**, even if it was cut. -/
theorem make_eq_of_splitPart {jobPrefix marker marker' s s' : String} {index total : Nat} (hs : IsSuffix s)
    (hs' : IsSuffix s') (h : (splitPart (ofPart (make jobPrefix marker s) index total)).1 = make jobPrefix marker' s') :
    make jobPrefix marker' s' = make jobPrefix marker s := by
  by_cases hlast : nextIndex index = total
  · rw [ofPart_last hlast, splitPart_make _ _ hs] at h
    exact h.symm
  have hpart : ofPart (make jobPrefix marker s) index total =
      String.ofList ((make jobPrefix marker s).toList.take (maxLength - (tag index).utf8ByteSize)) ++
        ("-part" ++ decimal index) := ofPart_of_ne hlast
  have hdigits : '-' ∉ ['p', 'a', 'r', 't'] ++ (decimal index).toList := by
    simp only [List.mem_append, not_or]
    exact ⟨by decide, fun hc => absurd (isDigit_of_mem_decimal hc) (by decide)⟩
  rcases splitPart_cases (ofPart (make jobPrefix marker s) index total) with
    hwhole | ⟨base, digits, i, hid, hd, -, hread, hsplit⟩
  · -- a name that ends in a suffix does not end in a tag
    rw [hwhole, hpart, make_eq _ marker', ← String.toList_inj] at h
    simp only [String.toList_append, toList_part] at h
    obtain ⟨-, hsuffix⟩ := eq_of_dash hdigits hs'.dash_notMem h
    exact absurd (hs'.hex (c := 'p') (by rw [← hsuffix]; simp)) (by decide)
  · rw [hsplit] at h
    rw [hpart, ← String.toList_inj] at hid
    simp only [String.toList_append, toList_part] at hid
    have hd' : '-' ∉ ['p', 'a', 'r', 't'] ++ digits.toList := by simp [dash_notMem_digits hd]
    obtain ⟨hbase, hsame⟩ := eq_of_dash hdigits hd' hid
    have hdec : digits = decimal index := String.toList_inj.1 (List.append_cancel_left hsame).symm
    have hindex : index < 2 ^ 64 := by
      have := (eq_of_readUpTo_decimal (hdec ▸ hread)).2
      rw [maxWord64_eq] at this
      omega
    have htake : (make jobPrefix marker s).toList.take (maxLength - (tag index).utf8ByteSize) =
        (make jobPrefix marker' s').toList := by
      rw [← show base = _ from h, ← hbase, String.toList_ofList]
    exact make_eq_of_take hs hs' (utf8ByteSize_tag 20 (by omega) (by omega)) htake

/-- **A part whose name was cut is taken for no marker's job.** -/
theorem isFor_ofPart_of_cut {jobPrefix marker marker' s : String} {index total : Nat} (hs : IsSuffix s)
    (hi : index < 2 ^ 64) (hlast : nextIndex index ≠ total) (hcut : ¬ Fits (make jobPrefix marker s) index) :
    isFor (ofPart (make jobPrefix marker s) index total) jobPrefix marker' = false := by
  rw [← Bool.not_eq_true, isFor_iff]
  rintro ⟨s', hs', h⟩
  have hmake := make_eq_of_splitPart hs hs' h
  rw [ofPart_of_ne hlast, splitPart_tag _ hi, hmake, ← String.toList_inj, String.toList_ofList] at h
  have htag := utf8ByteSize_tag 20 (by omega) (show index < 10 ^ 20 by omega)
  have hlength := congrArg List.length h
  rw [List.length_take] at hlength
  unfold Fits maxLength at *
  omega

end JobId
end Intake
