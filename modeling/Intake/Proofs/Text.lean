import Mathlib.Algebra.Group.Nat.Defs
import Mathlib.Data.List.Basic
import Intake.Text.Blank
import Intake.Text.Cut
import Intake.Text.Decimal
import Intake.Text.Utf8
/-!
# Text — what is written is read back

Cutting a text finds the place it is cut at; numbers and octets of a text are read as the number and the text they were
written for (`readUpTo_decimal`, `Utf8.decodeLossy_encode`); a text without outer blanks is not changed by trimming.
-/
namespace Intake

/-! ## Starts and cuts -/

theorem dropStart?_eq_some {start s rest : String} : dropStart? start s = some rest ↔ s = start ++ rest := by
  unfold dropStart?
  rw [Option.map_eq_some_iff]
  constructor
  · rintro ⟨l, h, rfl⟩
    have := List.isPrefixOf?_eq_some_iff_append_eq.1 h
    rw [← String.toList_inj]; simp [this]
  · rintro rfl
    exact ⟨rest.toList, List.isPrefixOf?_eq_some_iff_append_eq.2 (by simp), String.ofList_toList⟩

@[simp]
theorem dropStart?_append (start rest : String) : dropStart? start (start ++ rest) = some rest :=
  dropStart?_eq_some.2 rfl

theorem startsWith_iff {start s : String} : startsWith start s = true ↔ ∃ rest, s = start ++ rest := by
  unfold startsWith
  rw [List.isPrefixOf_iff_prefix]
  constructor
  · rintro ⟨l, h⟩
    exact ⟨String.ofList l, by rw [← String.toList_inj]; simp [h]⟩
  · rintro ⟨rest, rfl⟩
    exact ⟨rest.toList, by simp⟩

namespace Text

/-- A text between a start and a longer text with that start has the start itself. -/
theorem prefix_of_between {start text rest : List Char} (h : ¬ text < start) (h' : text < start ++ rest) :
    start <+: text := by
  induction start generalizing text with
  | nil => exact List.nil_prefix
  | cons c start ih =>
    cases text with
    | nil => exact absurd (List.nil_lt_cons _ _) h
    | cons d text =>
      rw [List.cons_lt_cons_iff, not_or, not_and] at h
      rw [List.cons_append, List.cons_lt_cons_iff] at h'
      obtain ⟨rfl, hlt⟩ := h'.resolve_left h.1
      exact (List.prefix_cons_inj _).2 (ih (h.2 rfl) hlt)

/-- A text is found where it stands. -/
theorem cutLast?_eq_some {sep : List Char} : ∀ {l before after : List Char}, cutLast? sep l = some (before, after) →
    l = before ++ sep ++ after
  | [], before, after, h => by
    unfold cutLast? at h
    split at h
    · rename_i hs; cases h; simp [List.isEmpty_iff.1 hs]
    · cases h
  | c :: l, before, after, h => by
    unfold cutLast? at h
    split at h
    · rename_i b a hl
      cases h
      rw [cutLast?_eq_some hl]; rfl
    · obtain ⟨a, ha, h⟩ := Option.map_eq_some_iff.1 h
      cases h
      exact (List.isPrefixOf?_eq_some_iff_append_eq.1 ha).symm

theorem cut?_eq_some {sep : List Char} : ∀ {l before after : List Char}, cut? sep l = some (before, after) →
    l = before ++ sep ++ after
  | [], before, after, h => by
    unfold cut? at h
    split at h
    · rename_i hs; cases h; simp [List.isEmpty_iff.1 hs]
    · cases h
  | c :: l, before, after, h => by
    unfold cut? at h
    split at h
    · rename_i a ha
      cases h
      exact (List.isPrefixOf?_eq_some_iff_append_eq.1 ha).symm
    · obtain ⟨⟨b, a⟩, hl, h⟩ := Option.map_eq_some_iff.1 h
      cases h
      rw [cut?_eq_some hl]; rfl

/-- More text before it does not change the last place where a text stands. -/
theorem cutLast?_append_left {sep l before after : List Char} (front : List Char)
    (h : cutLast? sep l = some (before, after)) : cutLast? sep (front ++ l) = some (front ++ before, after) := by
  induction front with
  | nil => exact h
  | cons c front ih => rw [List.cons_append, cutLast?, ih]; rfl

/-- A text whose first character does not occur stands nowhere. -/
theorem cutLast?_eq_none {c : Char} {sep : List Char} : ∀ {l : List Char}, c ∉ l → cutLast? (c :: sep) l = none
  | [], _ => rfl
  | d :: l, h => by
    have hd : (c == d) = false := by simpa using fun e => h (by simp [e])
    rw [cutLast?, cutLast?_eq_none (fun hc => h (List.mem_cons_of_mem _ hc))]
    simp [List.isPrefixOf?, hd]

/-- **The last place of a text** whose first character occurs neither later in it nor after it. -/
theorem cutLast?_of_notMem {c : Char} {sep after : List Char} (before : List Char) (hs : c ∉ sep) (ha : c ∉ after) :
    cutLast? (c :: sep) (before ++ (c :: sep ++ after)) = some (before, after) := by
  have h : cutLast? (c :: sep) (c :: sep ++ after) = some ([], after) := by
    rw [List.cons_append, cutLast?, cutLast?_eq_none (by simp [hs, ha])]
    have : (c :: sep).isPrefixOf? (c :: (sep ++ after)) = some after :=
      List.isPrefixOf?_eq_some_iff_append_eq.2 (by simp)
    simp [this]
  simpa using cutLast?_append_left before h

/-- **The first place of a text**, if it stands nowhere before. -/
theorem cut?_of_first {sep after : List Char} (hsep : sep ≠ []) : ∀ {before : List Char},
    (∀ b, b <:+ before → b ≠ [] → ¬ sep <+: b ++ (sep ++ after)) →
      cut? sep (before ++ (sep ++ after)) = some (before, after)
  | [], _ => by
    obtain ⟨c, s, rfl⟩ := List.exists_cons_of_ne_nil hsep
    have hhere : (c :: s).isPrefixOf? (c :: (s ++ after)) = some after :=
      List.isPrefixOf?_eq_some_iff_append_eq.2 (by simp)
    simp [cut?, hhere]
  | c :: before, h => by
    have hhere : sep.isPrefixOf? (c :: (before ++ (sep ++ after))) = none := by
      cases hp : sep.isPrefixOf? (c :: (before ++ (sep ++ after))) with
      | none => rfl
      | some rest =>
        have := List.isPrefixOf?_eq_some_iff_append_eq.1 hp
        exact absurd ⟨rest, this⟩ (h (c :: before) (List.suffix_refl _) (by simp))
    rw [List.cons_append, cut?, hhere,
      cut?_of_first hsep fun b hb hne => h b (hb.trans (List.suffix_cons _ _)) hne]
    rfl

theorem cut?_isSome_iff {sep : List Char} : ∀ {l : List Char}, (cut? sep l).isSome = true ↔ sep <:+: l
  | [] => by
    unfold cut?
    split
    · rename_i h; simp [List.isEmpty_iff.1 h]
    · rename_i h; simpa using h
  | c :: l => by
    unfold cut?
    split
    · rename_i a ha
      have := List.isPrefixOf?_eq_some_iff_append_eq.1 ha
      simp only [Option.isSome_some, true_iff]
      exact (List.prefix_iff_eq_append.2 (by rw [← this]; simp) : sep <+: c :: l).isInfix
    · rename_i hn
      rw [Option.isSome_map, cut?_isSome_iff, List.infix_cons_iff]
      refine ⟨.inr, fun h => h.resolve_left fun hp => ?_⟩
      obtain ⟨t, ht⟩ := hp
      rw [List.isPrefixOf?_eq_some_iff_append_eq.2 ht] at hn
      cases hn

end Text

/-- A text that ends with a character does not reach into one without it. -/
theorem Text.infix_of_append {l front back : List Char} {c : Char} (h : l ++ [c] <:+: front ++ back) (hc : c ∉ back) :
    l ++ [c] <:+: front := by
  obtain ⟨before, after, h⟩ := h
  rcases List.append_eq_append_iff.1 h with ⟨more, hfront, -⟩ | ⟨tail, hends, hback⟩
  · exact ⟨before, more, hfront.symm⟩
  · rcases List.eq_nil_or_concat tail with rfl | ⟨most, last, rfl⟩
    · exact ⟨before, [], by rw [List.append_nil, hends, List.append_nil]⟩
    · rw [List.concat_eq_append, ← List.append_assoc, ← List.append_assoc] at hends
      obtain rfl : c = last := List.singleton_inj.1 (List.append_inj' hends rfl).2
      exact absurd (by rw [hback]; simp) hc

theorem dropStart?_eq_none_of_lt {start key : String} (h : key < start) : dropStart? start key = none := by
  cases hrest : dropStart? start key with
  | none => rfl
  | some rest =>
    obtain rfl := dropStart?_eq_some.1 hrest
    have hlt : (start ++ rest).toList < start.toList := h
    rw [String.toList_append] at hlt
    exact absurd hlt (List.not_lt.2 List.le_append_left)

/-- **Texts with a start stand together**: after one that lacks it, from the start on, there is none that has it. -/
theorem dropStart?_eq_none_of_passed {start key key' : String} (hfrom : ¬ key < start) (hlt : key < key')
    (h : dropStart? start key = none) : dropStart? start key' = none := by
  cases hrest : dropStart? start key' with
  | none => rfl
  | some rest =>
    obtain rfl := dropStart?_eq_some.1 hrest
    have hbetween : key.toList < start.toList ++ rest.toList := by rw [← String.toList_append]; exact hlt
    have hstarts : startsWith start key = true := List.isPrefixOf_iff_prefix.2 (Text.prefix_of_between hfrom hbetween)
    obtain ⟨rest', rfl⟩ := startsWith_iff.1 hstarts
    rw [dropStart?_append] at h
    cases h

theorem holdsText_iff {sep s : String} : holdsText sep s = true ↔ sep.toList <:+: s.toList :=
  Text.cut?_isSome_iff

/-! ## Blanks -/

theorem trimChars_of_ends {l : List Char} {a b : Char} (ha : l.head? = some a) (hb : l.getLast? = some b)
    (ha' : isBlank a = false) (hb' : isBlank b = false) : trimChars l = l := by
  have h₁ : l.dropWhile isBlank = l := by
    cases l with
    | nil => rfl
    | cons c l => cases ha; simp [ha']
  have h₂ : l.reverse.dropWhile isBlank = l.reverse := by
    rw [List.getLast?_eq_head?_reverse] at hb
    cases hr : l.reverse with
    | nil => rfl
    | cons c r => rw [hr] at hb; cases hb; simp [hb']
  rw [trimChars, h₁, h₂, List.reverse_reverse]

/-! ## Numbers -/

theorem digitValue?_of_isDigit {c : Char} (h : c.isDigit = true) : digitValue? c = some (c.toNat - '0'.toNat) := by
  simp only [Char.isDigit, Bool.and_eq_true, decide_eq_true_eq] at h
  exact if_pos h

theorem le_ofDigitChars (l : List Char) (v : Nat) : v ≤ Nat.ofDigitChars 10 l v := by
  rw [Nat.ofDigitChars_eq_ofDigitChars_zero]
  have : 1 * v ≤ 10 ^ l.length * v := Nat.mul_le_mul_right v (Nat.one_le_pow _ _ (by omega))
  omega

/-- Digits are read as the number they write, up to the largest number allowed. -/
theorem readDigits_of_isDigit {max : Nat} : ∀ {l : List Char} {v : Nat}, (∀ c ∈ l, c.isDigit = true) →
    Nat.ofDigitChars 10 l v ≤ max → v ≤ max → readDigits max v l = .ok (Nat.ofDigitChars 10 l v)
  | [], v, _, _, _ => by simp [readDigits]
  | c :: l, v, hd, hm, _ => by
    have hc := digitValue?_of_isDigit (hd c List.mem_cons_self)
    rw [Nat.ofDigitChars_cons, Nat.mul_comm 10 v] at hm ⊢
    have hv := Nat.le_trans (le_ofDigitChars l _) hm
    rw [readDigits, hc]
    simp only [hv, ↓reduceIte]
    exact readDigits_of_isDigit (fun c h => hd c (List.mem_cons_of_mem _ h)) hm hv

theorem eq_of_readDigits {max : Nat} : ∀ {l : List Char} {v n : Nat}, (∀ c ∈ l, c.isDigit = true) →
    readDigits max v l = .ok n → n = Nat.ofDigitChars 10 l v
  | [], v, n, _, h => by simp only [readDigits, Except.ok.injEq] at h; simp [h]
  | c :: l, v, n, hd, h => by
    have hc := digitValue?_of_isDigit (hd c List.mem_cons_self)
    rw [readDigits, hc] at h
    simp only at h
    split at h
    · rw [Nat.ofDigitChars_cons, Nat.mul_comm 10 v]
      exact eq_of_readDigits (fun c h => hd c (List.mem_cons_of_mem _ h)) h
    · cases h

theorem le_of_readDigits {max : Nat} : ∀ {l : List Char} {v n : Nat}, v ≤ max → readDigits max v l = .ok n → n ≤ max
  | [], v, n, hv, h => by simp only [readDigits, Except.ok.injEq] at h; omega
  | c :: l, v, n, hv, h => by
    unfold readDigits at h
    split at h
    · cases h
    · split at h
      · rename_i hle
        exact le_of_readDigits hle h
      · cases h

theorem toList_decimal (n : Nat) : (decimal n).toList = Nat.toDigits 10 n := Nat.toList_repr

theorem isDigit_of_mem_decimal {n : Nat} {c : Char} (h : c ∈ (decimal n).toList) : c.isDigit = true := by
  rw [toList_decimal] at h
  exact Nat.isDigit_of_mem_toDigits (by omega) (by omega) h

theorem decimal_cons (n : Nat) : ∃ c cs, (decimal n).toList = c :: cs ∧ c.isDigit = true := by
  cases h : (decimal n).toList with
  | nil => rw [toList_decimal] at h; exact absurd h Nat.toDigits_ne_nil
  | cons c cs => exact ⟨c, cs, rfl, isDigit_of_mem_decimal (by rw [h]; exact List.mem_cons_self)⟩

theorem readUpTo_eq_readDigits {max : Nat} {s : String} {c : Char} {cs : List Char} (h : s.toList = c :: cs)
    (hc : c.isDigit = true) : readUpTo max s = readDigits max 0 s.toList := by
  have hp : c ≠ '+' := fun e => by subst e; revert hc; decide
  unfold readUpTo
  rw [h]
  split
  · rename_i h'; cases h'
  · rename_i h'; cases h'; exact absurd rfl hp
  · rename_i h'; cases h'; exact absurd rfl hp
  · rfl

theorem maxWord64_eq : maxWord64 = 2 ^ 64 - 1 := rfl

/-- **A written number is read back.** -/
theorem readUpTo_decimal {max n : Nat} (h : n ≤ max) : readUpTo max (decimal n) = .ok n := by
  obtain ⟨c, cs, e, hc⟩ := decimal_cons n
  have hn : Nat.ofDigitChars 10 (decimal n).toList 0 = n := by
    rw [toList_decimal]; exact Nat.ofDigitChars_toDigits (by omega) (by omega)
  rw [readUpTo_eq_readDigits e hc, readDigits_of_isDigit (fun _ h => isDigit_of_mem_decimal h) (by omega) (by omega), hn]

theorem decimal_inj {n m : Nat} (h : decimal n = decimal m) : n = m := by
  have hn := readUpTo_decimal (Nat.le_max_left n m)
  rw [h, readUpTo_decimal (Nat.le_max_right n m)] at hn
  exact (Except.ok.inj hn).symm

/-- A number read from the text of a number is that number, and allowed. -/
theorem eq_of_readUpTo_decimal {max n i : Nat} (h : readUpTo max (decimal n) = .ok i) : i = n ∧ n ≤ max := by
  obtain ⟨c, cs, e, hc⟩ := decimal_cons n
  rw [readUpTo_eq_readDigits e hc] at h
  have hn : i = n := by
    rw [eq_of_readDigits (fun _ h => isDigit_of_mem_decimal h) h, toList_decimal]
    exact Nat.ofDigitChars_toDigits (by omega) (by omega)
  exact ⟨hn, hn ▸ le_of_readDigits (Nat.zero_le _) h⟩

theorem readSigned64?_decimal (n : Nat) :
    readSigned64? (decimal n) = (readUpTo (Nat.pow 2 63 - 1) (decimal n)).toOption.map Int.ofNat := by
  obtain ⟨c, cs, e, hc⟩ := decimal_cons n
  have hm : c ≠ '-' := fun e => by subst e; revert hc; decide
  unfold readSigned64?
  rw [e]
  split
  · rename_i h'; cases h'; exact absurd rfl hm
  · rfl

/-- A signed number read from the text of a number is that number. -/
theorem eq_of_readSigned64?_decimal {n : Nat} {i : Int} (h : readSigned64? (decimal n) = some i) : i = n := by
  rw [readSigned64?_decimal] at h
  obtain ⟨k, hk, rfl⟩ := Option.map_eq_some_iff.1 h
  cases hr : readUpTo (Nat.pow 2 63 - 1) (decimal n) with
  | error f => rw [hr] at hk; cases hk
  | ok m =>
    rw [hr] at hk
    cases hk
    rw [(eq_of_readUpTo_decimal hr).1]
    rfl

/-! ## Octets -/

namespace Utf8

theorem toNat_octet {n : Nat} (h : n < 256) : (UInt8.ofNat n).toNat = n := by
  simp [Nat.mod_eq_of_lt h]

theorem isTail_iff (b : UInt8) : isTail b = true ↔ 128 ≤ b.toNat ∧ b.toNat ≤ 191 := by
  simp [isTail, UInt8.le_iff_toNat_le]

theorem between_iff (a b c : UInt8) : (decide (a ≤ b) && decide (b ≤ c)) = true ↔ a.toNat ≤ b.toNat ∧ b.toNat ≤ c.toNat := by
  simp [UInt8.le_iff_toNat_le]

theorem eq_iff_toNat (a b : UInt8) : (a == b) = true ↔ a.toNat = b.toNat := by
  simp [← UInt8.toNat_inj]

theorem isSecond_iff (b₀ b₁ : UInt8) : isSecond b₀ b₁ = true ↔
    (b₀.toNat = 224 → 160 ≤ b₁.toNat) ∧ (b₀.toNat = 237 → b₁.toNat ≤ 159) ∧ (b₀.toNat = 240 → 144 ≤ b₁.toNat) ∧
      (b₀.toNat = 244 → b₁.toNat ≤ 143) ∧ 128 ≤ b₁.toNat ∧ b₁.toNat ≤ 191 := by
  simp only [isSecond, secondRange, eq_iff_toNat, between_iff, show (0xE0 : UInt8).toNat = 224 from rfl,
    show (0xED : UInt8).toNat = 237 from rfl, show (0xF0 : UInt8).toNat = 240 from rfl,
    show (0xF4 : UInt8).toNat = 244 from rfl]
  (repeat' split) <;> simp only [show (0xA0 : UInt8).toNat = 160 from rfl, show (0x80 : UInt8).toNat = 128 from rfl,
    show (0x90 : UInt8).toNat = 144 from rfl, show (0xBF : UInt8).toNat = 191 from rfl,
    show (0x9F : UInt8).toNat = 159 from rfl, show (0x8F : UInt8).toNat = 143 from rfl] <;> omega

theorem tailBits_eq (b : UInt8) : tailBits b = b.toNat - 128 := rfl

theorem leadBits_two (b : UInt8) : leadBits 2 b = b.toNat - 192 := rfl

theorem leadBits_three (b : UInt8) : leadBits 3 b = b.toNat - 224 := rfl

theorem leadBits_four (b : UInt8) : leadBits 4 b = b.toNat - 240 := rfl

theorem not_ascii {b : UInt8} (h : 128 ≤ b.toNat) : ¬ b < 0x80 := fun hlt => by
  have : b.toNat < 128 := UInt8.lt_iff_toNat_lt.1 hlt
  omega

theorem look_two {b₀ b₁ : UInt8} {n : Nat} (h : 128 ≤ n) (h' : n < 2048) (e₀ : b₀.toNat = n / 64 % 32 + 192)
    (e₁ : b₁.toNat = n % 64 + 128) (rest : Octets) : look b₀ (b₁ :: rest) = .char (Char.ofNat n) 2 := by
  have hn : leadBits 2 b₀ * 64 + tailBits b₁ = n := by
    have := leadBits_two b₀; have := tailBits_eq b₁; omega
  have hb : 194 ≤ b₀.toNat ∧ b₀.toNat ≤ 223 := by omega
  unfold look
  rw [if_neg (not_ascii (by omega)), if_pos ((between_iff 0xC2 b₀ 0xDF).2 hb)]
  simp only [(isTail_iff b₁).2 (by omega), ↓reduceIte, hn]

theorem look_three {b₀ b₁ b₂ : UInt8} {n : Nat} (h : 2048 ≤ n) (h' : n < 65536) (hs : n < 55296 ∨ 57343 < n)
    (e₀ : b₀.toNat = n / 4096 % 16 + 224) (e₁ : b₁.toNat = n / 64 % 64 + 128) (e₂ : b₂.toNat = n % 64 + 128)
    (rest : Octets) : look b₀ (b₁ :: b₂ :: rest) = .char (Char.ofNat n) 3 := by
  have hn : (leadBits 3 b₀ * 64 + tailBits b₁) * 64 + tailBits b₂ = n := by
    have := leadBits_three b₀; have := tailBits_eq b₁; have := tailBits_eq b₂; omega
  have hb : 224 ≤ b₀.toNat ∧ b₀.toNat ≤ 239 := by omega
  have hb' : ¬ (194 ≤ b₀.toNat ∧ b₀.toNat ≤ 223) := by omega
  unfold look
  rw [if_neg (not_ascii (by omega)), if_neg (fun hc => hb' ((between_iff 0xC2 b₀ 0xDF).1 hc)),
    if_pos ((between_iff 0xE0 b₀ 0xEF).2 hb)]
  simp only [(isSecond_iff b₀ b₁).2 (by omega), (isTail_iff b₂).2 (by omega), ↓reduceIte, hn]

theorem look_four {b₀ b₁ b₂ b₃ : UInt8} {n : Nat} (h : 65536 ≤ n) (h' : n < 1114112)
    (e₀ : b₀.toNat = n / 262144 % 8 + 240) (e₁ : b₁.toNat = n / 4096 % 64 + 128) (e₂ : b₂.toNat = n / 64 % 64 + 128)
    (e₃ : b₃.toNat = n % 64 + 128) (rest : Octets) :
    look b₀ (b₁ :: b₂ :: b₃ :: rest) = .char (Char.ofNat n) 4 := by
  have hn : ((leadBits 4 b₀ * 64 + tailBits b₁) * 64 + tailBits b₂) * 64 + tailBits b₃ = n := by
    have := leadBits_four b₀; have := tailBits_eq b₁; have := tailBits_eq b₂; have := tailBits_eq b₃; omega
  have hb : 240 ≤ b₀.toNat ∧ b₀.toNat ≤ 244 := by omega
  have hb' : ¬ (194 ≤ b₀.toNat ∧ b₀.toNat ≤ 223) := by omega
  have hb'' : ¬ (224 ≤ b₀.toNat ∧ b₀.toNat ≤ 239) := by omega
  unfold look
  rw [if_neg (not_ascii (by omega)), if_neg (fun hc => hb' ((between_iff 0xC2 b₀ 0xDF).1 hc)),
    if_neg (fun hc => hb'' ((between_iff 0xE0 b₀ 0xEF).1 hc)), if_pos ((between_iff 0xF0 b₀ 0xF4).2 hb)]
  simp only [(isSecond_iff b₀ b₁).2 (by omega), (isTail_iff b₂).2 (by omega), (isTail_iff b₃).2 (by omega),
    ↓reduceIte, hn]

theorem decodeLossyFrom_skip (bs rest : Octets) :
    decodeLossyFrom bs.length (bs ++ rest) = decodeLossyFrom 0 rest := by
  induction bs with
  | nil => rfl
  | cons b bs ih => simpa [decodeLossyFrom] using ih

/-- **The octets of a character are read as that character**, whatever follows them. -/
theorem look_encodeChar (c : Char) (rest : Octets) :
    ∃ b bs, String.utf8EncodeChar c = b :: bs ∧ look b (bs ++ rest) = .char c (bs.length + 1) := by
  have hr : c.val.toNat < 55296 ∨ 57343 < c.val.toNat ∧ c.val.toNat < 1114112 := c.valid
  have hc : Char.ofNat c.val.toNat = c := Char.ofNat_toNat c
  unfold String.utf8EncodeChar
  generalize c.val.toNat = n at hr hc
  simp only
  by_cases h1 : n ≤ 127
  · rw [if_pos h1]
    refine ⟨_, _, rfl, ?_⟩
    have e := toNat_octet (n := n) (by omega)
    have hlt : UInt8.ofNat n < 0x80 := UInt8.lt_iff_toNat_lt.2 (by rw [e]; exact Nat.lt_succ_of_le h1)
    unfold look
    rw [if_pos hlt, e, hc]; rfl
  by_cases h2 : n ≤ 2047
  · rw [if_neg h1, if_pos h2]
    refine ⟨_, _, rfl, ?_⟩
    rw [← hc]
    exact look_two (by omega) (by omega) (toNat_octet (by omega)) (toNat_octet (by omega)) rest
  by_cases h3 : n ≤ 65535
  · rw [if_neg h1, if_neg h2, if_pos h3]
    refine ⟨_, _, rfl, ?_⟩
    rw [← hc]
    exact look_three (by omega) (by omega) (by omega) (toNat_octet (by omega)) (toNat_octet (by omega))
      (toNat_octet (by omega)) rest
  · rw [if_neg h1, if_neg h2, if_neg h3]
    refine ⟨_, _, rfl, ?_⟩
    rw [← hc]
    exact look_four (by omega) (by omega) (toNat_octet (by omega)) (toNat_octet (by omega))
      (toNat_octet (by omega)) (toNat_octet (by omega)) rest

theorem decodeLossyFrom_encodeChars (s : List Char) : decodeLossyFrom 0 (encodeChars s) = s := by
  induction s with
  | nil => rfl
  | cons c s ih =>
    obtain ⟨b, bs, he, hl⟩ := look_encodeChar c (encodeChars s)
    have hs : encodeChars (c :: s) = b :: (bs ++ encodeChars s) := by
      simp [encodeChars, he]
    rw [hs, decodeLossyFrom, hl]
    simp only [Nat.add_sub_cancel]
    rw [decodeLossyFrom_skip, ih]

/-- **Every text survives being written and read.** -/
@[simp]
theorem decodeLossy_encode (s : String) : decodeLossy (encode s) = s := by
  rw [decodeLossy, encode, decodeLossyFrom_encodeChars, String.ofList_toList]

end Utf8
end Intake
