import Intake.Proofs.Text
import Intake.Url.Basic
/-!
# Query — the named values of an address read back

A query is a form: pairs of a name and a value with `&` between them and `=` inside, both texts written octet by octet.
Reading a form text back gives the text that was written (`formDecode_formEncode`), no written text holds `&` or `=`, and
so the pairs of an address are those it had and those that were added, in order (`pairs_withPairs`).
-/
namespace Intake
namespace Url

/-! ## Texts of a form -/

def formOctet (b : UInt8) : List Char :=
  let c := Char.ofNat b.toNat
  if c.isAlphanum || c == '*' || c == '-' || c == '.' || c == '_' then [c]
  else if c == ' ' then ['+'] else escapeOctet b

theorem formEncode_eq (text : String) : formEncode text = String.ofList ((Utf8.encode text).flatMap formOctet) := rfl

/-- A character of a form before its escaped octets are read: `+` is a blank. -/
def ofPlus (c : Char) : Char := if c = '+' then ' ' else c

/-- **The text that stands in a form.** -/
def formDecode (text : List Char) : String := Utf8.decodeLossy (unescape (text.map ofPlus))

/-- What a reader of a form sees of an octet: a character that is the octet, or an escape of it. -/
def IsFormOf (b : UInt8) : List Char → Prop
  | [c] => c ≠ '%' ∧ Utf8.encodeChars [c] = [b]
  | [p, x, y] => p = '%' ∧ ((digitOf? 16 x).bind fun m => (digitOf? 16 y).map fun n => (m * 16 + n).toUInt8) = some b
  | _ => False

instance (b : UInt8) : (l : List Char) → Decidable (IsFormOf b l)
  | [_] | [_, _, _] => inferInstanceAs (Decidable (_ ∧ _))
  | [] | [_, _] | _ :: _ :: _ :: _ :: _ => inferInstanceAs (Decidable False)

theorem octet_forall {P : UInt8 → Prop} (h : ∀ n : Fin 256, P (UInt8.ofNat n)) (b : UInt8) : P b := by
  simpa using h ⟨b.toNat, b.toNat_lt⟩

theorem isFormOf_formOctet : ∀ b : UInt8, IsFormOf b ((formOctet b).map ofPlus) :=
  octet_forall (by decide +kernel)

theorem separators_notMem_formOctet : ∀ b : UInt8, '&' ∉ formOctet b ∧ '=' ∉ formOctet b :=
  octet_forall (by decide +kernel)

theorem unescape_of_isFormOf {b : UInt8} {l : List Char} (h : IsFormOf b l) (rest : List Char) :
    unescape (l ++ rest) = b :: unescape rest := by
  match l, h with
  | [c], ⟨hne, hc⟩ =>
    have hstep : unescape (c :: rest) = Utf8.encodeChars [c] ++ unescape rest := by
      rw [unescape.eq_def]
      split
      · rename_i heq; cases heq; exact absurd rfl hne
      · rename_i heq; cases heq; rfl
      · rename_i heq; cases heq
    rw [List.singleton_append, hstep, hc, List.singleton_append]
  | [p, x, y], ⟨hp, hxy⟩ =>
    obtain ⟨m, hm, hxy⟩ := Option.bind_eq_some_iff.1 hxy
    obtain ⟨n, hn, hb⟩ := Option.map_eq_some_iff.1 hxy
    subst hp
    simp [unescape, hm, hn, hb]

/-- **A text of a form reads back as it was written.** -/
theorem formDecode_formEncode (text : String) : formDecode (formEncode text).toList = text := by
  have hoctets : ∀ bs : Octets, unescape ((bs.flatMap formOctet).map ofPlus) = bs := by
    intro bs
    induction bs with
    | nil => rfl
    | cons b bs ih =>
      rw [List.flatMap_cons, List.map_append, unescape_of_isFormOf (isFormOf_formOctet b), ih]
  rw [formDecode, formEncode_eq, String.toList_ofList, hoctets, Utf8.decodeLossy_encode]

theorem separators_notMem_formEncode (text : String) : '&' ∉ (formEncode text).toList ∧ '=' ∉ (formEncode text).toList := by
  simp only [formEncode_eq, String.toList_ofList, List.mem_flatMap, not_exists, not_and]
  exact ⟨fun b _ => (separators_notMem_formOctet b).1, fun b _ => (separators_notMem_formOctet b).2⟩

/-! ## Pairs -/

/-- A pair of a form; without `=` it is a name with nothing to it. -/
def pairOf (text : List Char) : String × String :=
  match Text.cut? ['='] text with
  | some (name, value) => (formDecode name, formDecode value)
  | none => (formDecode text, "")

/-- **The named values of an address**, in order. -/
def pairs (url : Url) : List (String × String) :=
  match url.query with
  | none | some "" => []
  | some query => (splitAt '&' query.toList).map pairOf

/-- The value of a name; of several the last counts. -/
def value? (url : Url) (name : String) : Option String :=
  (url.pairs.reverse.find? fun pair => pair.1 == name).map (·.2)

theorem value?_withoutUser (url : Url) (name : String) : url.withoutUser.value? name = url.value? name := rfl

theorem splitAt_ne_nil (sep : Char) (l : List Char) : splitAt sep l ≠ [] := by
  cases l with
  | nil => simp [splitAt]
  | cons c l => rw [splitAt]; split <;> (try split) <;> simp

theorem splitAt_of_notMem {sep : Char} : ∀ {l : List Char}, sep ∉ l → splitAt sep l = [l]
  | [], _ => rfl
  | c :: l, h => by
    have hl : splitAt sep l = [l] := splitAt_of_notMem fun hm => h (.tail _ hm)
    have hc : c ≠ sep := fun e => h (e ▸ .head _)
    simp [splitAt, hl, hc]

theorem splitAt_append (sep : Char) (l' : List Char) : ∀ l : List Char,
    splitAt sep (l ++ sep :: l') = splitAt sep l ++ splitAt sep l'
  | [] => by
    obtain ⟨part, more, h⟩ := List.exists_cons_of_ne_nil (splitAt_ne_nil sep l')
    simp [splitAt, h]
  | c :: l => by
    obtain ⟨part, more, h⟩ := List.exists_cons_of_ne_nil (splitAt_ne_nil sep l)
    by_cases hc : c = sep <;> simp [splitAt, splitAt_append sep l' l, h, hc]

def pairText (name value : String) : String := formEncode name ++ "=" ++ formEncode value

theorem pairOf_pairText (name value : String) : pairOf (pairText name value).toList = (name, value) := by
  have hcut : Text.cut? ['='] ((formEncode name).toList ++ (['='] ++ (formEncode value).toList)) =
      some ((formEncode name).toList, (formEncode value).toList) := by
    refine Text.cut?_of_first (by simp) fun b hb hne hstart => ?_
    obtain ⟨c, b, rfl⟩ := List.exists_cons_of_ne_nil hne
    obtain rfl : '=' = c := by simpa using hstart
    exact (separators_notMem_formEncode name).2 (hb.subset (.head _))
  have htext : (pairText name value).toList = (formEncode name).toList ++ (['='] ++ (formEncode value).toList) := by
    simp [pairText]
  rw [pairOf, htext, hcut]
  simp only [formDecode_formEncode]

theorem amp_notMem_pairText (name value : String) : '&' ∉ (pairText name value).toList := by
  simp [pairText, (separators_notMem_formEncode name).1, (separators_notMem_formEncode value).1]

theorem pairs_of_query {url : Url} {query : String} (h : url.query = some query) (hne : query ≠ "") :
    url.pairs = (splitAt '&' query.toList).map pairOf := by
  simp [pairs, h]

theorem pairs_withPair (url : Url) (name value : String) :
    (url.withPair name value).pairs = url.pairs ++ [(name, value)] := by
  have hpair : (splitAt '&' (pairText name value).toList).map pairOf = [(name, value)] := by
    rw [splitAt_of_notMem (amp_notMem_pairText name value), List.map_singleton, pairOf_pairText]
  have hne : pairText name value ≠ "" := fun h => by simpa [pairText] using congrArg String.toList h
  by_cases hempty : url.query = none ∨ url.query = some ""
  · -- the pair is the whole query
    have hwith : (url.withPair name value).query = some (pairText name value) := by
      rcases hempty with h | h <;> simp [withPair, h, pairText]
    have hnone : url.pairs = [] := by rcases hempty with h | h <;> simp [pairs, h]
    rw [pairs_of_query hwith hne, hpair, hnone, List.nil_append]
  · -- the pair stands after an ampersand
    obtain ⟨query, hquery⟩ := Option.ne_none_iff_exists'.1 fun h => hempty (.inl h)
    have hsome : query ≠ "" := fun h => hempty (.inr (h ▸ hquery))
    have hwith : (url.withPair name value).query = some (query ++ "&" ++ pairText name value) := by
      simp [withPair, hquery, pairText]
    have htext : (query ++ "&" ++ pairText name value).toList = query.toList ++ '&' :: (pairText name value).toList := by
      simp
    have hne' : query ++ "&" ++ pairText name value ≠ "" := fun h => by simpa using congrArg String.toList h
    rw [pairs_of_query hwith hne', htext, splitAt_append, List.map_append, hpair, pairs_of_query hquery hsome]

/-- **The pairs of an address after some were added** are those it had and the added ones. -/
theorem pairs_withPairs (added : List (String × String)) : ∀ url : Url,
    (url.withPairs added).pairs = url.pairs ++ added := by
  induction added with
  | nil => intro url; simp [withPairs]
  | cons pair added ih =>
    intro url
    have h := ih (url.withPair pair.1 pair.2)
    rw [pairs_withPair] at h
    simpa [withPairs] using h

theorem value?_withPairs (url : Url) (added : List (String × String)) (name : String) : (url.withPairs added).value? name =
    ((added.reverse.find? fun pair => pair.1 == name).or (url.pairs.reverse.find? fun pair => pair.1 == name)).map
      (·.2) := by
  rw [value?, pairs_withPairs, List.reverse_append, List.find?_append]

end Url
end Intake
