import Intake.Proofs.Attempt
import Intake.Proofs.Calendar
/-!
# Stamp — no two markers share a claim

The text of an instant is read from its end: what follows the year has a fixed width, and the year is the rest, with a sign
if it needs one.  The name of a claim is read from its end as well: its last underscore stands right before that text,
whatever the name of the marker holds.  So the key of a claim determines the marker and its instant
(`Claim.key_unique`), and a claim that was made is in the way of no other one.
-/
namespace Intake

/-! ## Numbers at the end of a text -/

theorem toList_paddedDecimal (width n : Nat) : (paddedDecimal width n).toList =
    List.replicate (width - (decimal n).toList.length) '0' ++ (decimal n).toList := by
  simp [paddedDecimal]

theorem length_paddedDecimal {width n : Nat} (hwidth : 0 < width) (h : n < 10 ^ width) :
    (paddedDecimal width n).toList.length = width := by
  have hdigits : (decimal n).toList.length ≤ width := by
    rw [toList_decimal]
    exact (Nat.length_toDigits_le_iff (by decide) hwidth).2 h
  rw [toList_paddedDecimal, List.length_append, List.length_replicate]
  omega

theorem paddedDecimal_inj {width n m : Nat} (h : (paddedDecimal width n).toList = (paddedDecimal width m).toList) :
    n = m := by
  have hvalue : ∀ k, Nat.ofDigitChars 10 (paddedDecimal width k).toList 0 = k := fun k => by
    rw [toList_paddedDecimal, Nat.ofDigitChars_append, Nat.ofDigitChars_replicate_zero, toList_decimal, Nat.mul_zero,
      Nat.ofDigitChars_toDigits (by decide) (by decide)]
  rw [← hvalue n, h, hvalue m]

/-- A number of a fixed width at the end of a text can be told from what stands before it. -/
theorem append_paddedDecimal_inj {width n m : Nat} {front front' : List Char} (hwidth : 0 < width) (hn : n < 10 ^ width)
    (hm : m < 10 ^ width) (h : front ++ (paddedDecimal width n).toList = front' ++ (paddedDecimal width m).toList) :
    front = front' ∧ n = m := by
  obtain ⟨hfront, hnumber⟩ := List.append_inj' h
    (by rw [length_paddedDecimal hwidth hn, length_paddedDecimal hwidth hm])
  exact ⟨hfront, paddedDecimal_inj hnumber⟩

/-- What stands before digits, and has none, can be told from them. -/
theorem eq_of_before_digits {sign sign' digits digits' : List Char} (hsign : ∀ c ∈ sign, c.isDigit = false)
    (hsign' : ∀ c ∈ sign', c.isDigit = false) (hdigits : ∀ c ∈ digits, c.isDigit = true)
    (hdigits' : ∀ c ∈ digits', c.isDigit = true) (h : sign ++ digits = sign' ++ digits') :
    sign = sign' ∧ digits = digits' := by
  have hcut : ∀ {s d : List Char}, (∀ c ∈ s, c.isDigit = false) → (∀ c ∈ d, c.isDigit = true) →
      (s ++ d).takeWhile (fun c => !c.isDigit) = s := fun {s d} hs hd => by
    rw [List.takeWhile_append_of_pos fun c hc => by simp [hs c hc]]
    cases d with
    | nil => simp
    | cons c d => simp [hd c List.mem_cons_self]
  have heq : sign = sign' := by rw [← hcut hsign hdigits, h, hcut hsign' hdigits']
  subst heq
  exact ⟨rfl, List.append_cancel_left h⟩

namespace Timestamp

/-! ## The text of an instant -/

def yearSign (year : Int) : List Char := if year < 0 then ['-'] else if year > 9999 then ['+'] else []

theorem isDigit_of_mem_yearSign {year : Int} : ∀ c ∈ yearSign year, c.isDigit = false := by
  unfold yearSign
  split
  · exact List.forall_mem_singleton.2 (by decide)
  · split
    · exact List.forall_mem_singleton.2 (by decide)
    · exact List.forall_mem_nil _

theorem yearSign_eq_minus_iff (year : Int) : yearSign year = ['-'] ↔ year < 0 := by
  unfold yearSign
  by_cases hneg : year < 0
  · simp [hneg]
  · rw [if_neg hneg]
    split <;> simpa using hneg

theorem toList_yearText (year : Int) : (yearText year).toList = yearSign year ++ (paddedDecimal 4 year.natAbs).toList := by
  unfold yearText yearSign
  split
  · simp
  · split <;> simp

theorem yearText_inj {year year' : Int} (h : (yearText year).toList = (yearText year').toList) : year = year' := by
  rw [toList_yearText, toList_yearText] at h
  obtain ⟨hsign, hdigits⟩ := eq_of_before_digits isDigit_of_mem_yearSign isDigit_of_mem_yearSign
    (fun _ => isDigit_of_mem_paddedDecimal) (fun _ => isDigit_of_mem_paddedDecimal) h
  have habs : year.natAbs = year'.natAbs := paddedDecimal_inj hdigits
  have hneg : year < 0 ↔ year' < 0 := by rw [← yearSign_eq_minus_iff, ← yearSign_eq_minus_iff, hsign]
  omega

/-- **The text of an instant determines it.** -/
theorem compactText_inj {t t' : Timestamp} (h : t.compactText = t'.compactText) : t = t' := by
  have hlist := congrArg String.toList h
  simp only [compactText, String.toList_append] at hlist
  have hhour : ∀ s : Timestamp, s.secondOfDay / 3600 < 10 ^ 2 := fun s => by
    have := s.secondOfDay_eq
    omega
  have hminute : ∀ s : Timestamp, s.secondOfDay / 60 % 60 < 10 ^ 2 := fun s => by omega
  have hsecond : ∀ s : Timestamp, s.secondOfDay % 60 + s.unixNanos / 1000000000 < 10 ^ 2 := fun s => by
    rw [unixNanos_div]
    split <;> omega
  have hnanos : ∀ s : Timestamp, s.unixNanos % 1000000000 < 10 ^ 9 := fun s => Nat.mod_lt _ (by decide)
  have hdate := fun s : Timestamp => calendarDay_lt (s.unixSeconds.fdiv 86400)
  -- from the end on, number after number
  obtain ⟨hfront, enanos⟩ := append_paddedDecimal_inj (by decide) (hnanos t) (hnanos t') (List.append_cancel_right hlist)
  obtain ⟨hfront, esecond⟩ :=
    append_paddedDecimal_inj (by decide) (hsecond t) (hsecond t') (List.append_cancel_right hfront)
  obtain ⟨hfront, eminute⟩ := append_paddedDecimal_inj (by decide) (hminute t) (hminute t') hfront
  obtain ⟨hfront, ehour⟩ := append_paddedDecimal_inj (by decide) (hhour t) (hhour t') hfront
  obtain ⟨hfront, eday⟩ := append_paddedDecimal_inj (by decide) (hdate t).2 (hdate t').2 (List.append_cancel_right hfront)
  obtain ⟨hfront, emonth⟩ := append_paddedDecimal_inj (by decide) (hdate t).1 (hdate t').1 hfront
  have eyear := yearText_inj hfront
  refine eq_of_clock ?_ ehour eminute esecond enanos
  revert eday emonth eyear
  cases calendarDay (t.unixSeconds.fdiv 86400)
  cases calendarDay (t'.unixSeconds.fdiv 86400)
  rintro rfl rfl rfl
  rfl

example : (ofUnix 59 1500000000).compactText = "19700101T000060.500000000Z" ∧
    (ofUnix 60 500000000).compactText = "19700101T000100.500000000Z" := by decide +kernel

end Timestamp

/-! ## The key of a claim -/

theorem Key.eq_of_directory_ne {key : String} (h : directory key ≠ "") : key = directory key ++ "/" ++ name key := by
  rcases eq_directory_name key with hslash | ⟨hkey, -⟩
  · exact absurd (by simp [directory, cutTextLast?_slash_none hslash]) h
  · exact hkey

namespace Claim

/-- The last underscore in the name of a claim stands before the text of the instant. -/
theorem cutLast?_name_key (marker : String) (created : Timestamp) :
    Text.cutLast? ['_'] (Key.name (key marker created)).toList =
      some ("_claimed_".toList ++ ((Key.name marker).toList ++ "_created_at".toList), created.compactText.toList) := by
  have htext : '_' ∉ created.compactText.toList := Timestamp.notMem_compactText (by decide) (by decide) created
  have hlist : (Key.name (key marker created)).toList =
      "_claimed_".toList ++ ((Key.name marker).toList ++ "_created_at".toList) ++
        (['_'] ++ created.compactText.toList) := by
    simp [name_key, Key.claimStart]
  rw [hlist]
  exact Text.cutLast?_of_notMem _ List.not_mem_nil htext

/-- **The key of a claim determines its marker and the instant of that.** -/
theorem key_eq_iff {marker other : String} {created created' : Timestamp} (hmarker : Key.directory marker ≠ "")
    (hother : Key.directory other ≠ "") :
    key marker created = key other created' ↔ marker = other ∧ created = created' := by
  refine ⟨fun h => ?_, fun h => by rw [h.1, h.2]⟩
  have hdirectory : Key.directory marker = Key.directory other := by
    rw [← directory_key marker created, h, directory_key]
  -- a name may hold any number of underscores, and the text of an instant holds none: the last one parts the two
  have hcut := cutLast?_name_key marker created
  rw [h, cutLast?_name_key other created'] at hcut
  obtain ⟨hfront, htext⟩ := Prod.mk.inj (Option.some.inj hcut)
  have hname : Key.name marker = Key.name other :=
    String.toList_inj.1 (List.append_cancel_right (List.append_cancel_left hfront)).symm
  refine ⟨?_, Timestamp.compactText_inj (String.toList_inj.1 htext.symm)⟩
  rw [Key.eq_of_directory_ne hmarker, Key.eq_of_directory_ne hother, hdirectory, hname]

/-! ## Claims one after the other -/

open Site (Reaches Answers)

variable {marker : ObjectInfo} {result : Except Failure String} {site site' : Site}

theorem reaches_takeObject_iff : Reaches (takeObject marker).run site (.done result) site' ↔
    ∃ reply, Answers (.put (key marker.key marker.created) [] .absent) site reply site' ∧
      ending (key marker.key marker.created) reply = result := by
  rw [run_takeObject]
  constructor
  · intro h
    cases h with
    | call hanswers hrest =>
      cases hrest
      exact ⟨_, hanswers, rfl⟩
  · rintro ⟨reply, hanswers, rfl⟩
    exact .call hanswers (.refl _ _)

/-- **A claim that was created is there, and nothing else has changed.** -/
theorem isSome_get?_of_takeObject (h : Reaches (takeObject marker).run site (.done result) site') (claim : String) :
    (site'.store.get? claim).isSome = true ↔ (site.store.get? claim).isSome = true ∨
      key marker.key marker.created = claim ∧ result = .ok claim := by
  obtain ⟨reply, hanswers, rfl⟩ := reaches_takeObject_iff.1 h
  obtain ⟨rfl, hunwritten⟩ | ⟨rfl, hfree, now, rfl⟩ := hanswers.put_cases
  · have herror : ∀ c, ending c reply ≠ .ok claim := fun c => by
      cases reply with
      | error fault => exact fun e => by cases e
      | ok result =>
        cases result with
        | written version => exact absurd rfl (hunwritten version)
        | conflict current => exact fun e => by cases e
    simp [herror]
  · by_cases hclaim : key marker.key marker.created = claim
    · subst hclaim
      simp [ending]
    · simp [Store.get?_write_of_ne _ _ _ (Ne.symm hclaim), hclaim]

/-- A claim can turn out to be a duplicate if it is there already, and only then. -/
theorem exists_duplicate_iff :
    (∃ s, Reaches (takeObject marker).run site (.done (.error (.duplicate (key marker.key marker.created)))) s) ↔
      (site.store.get? (key marker.key marker.created)).isSome = true := by
  constructor
  · rintro ⟨s, h⟩
    obtain ⟨reply, hanswers, hending⟩ := reaches_takeObject_iff.1 h
    obtain ⟨⟨fault, rfl, -⟩, -⟩ | ⟨now, rfl, -⟩ := hanswers
    · cases hending
    · cases hget : site.store.get? (key marker.key marker.created) with
      | some object => rfl
      | none =>
        rw [Store.put, hget] at hending
        cases hending
  · intro h
    obtain ⟨object, hget⟩ := Option.isSome_iff_exists.1 h
    refine ⟨site, reaches_takeObject_iff.2 ⟨_, .inr ⟨marker.created, rfl, ?_⟩, ?_⟩⟩
    · simp [Store.put, hget, Store.refuses?]
    · simp [Store.put, hget, Store.refuses?, ending]

/-- **Claims that were made one after the other**, each with what came of it. -/
inductive Claimings : List (ObjectInfo × Except Failure String) → Site → Site → Prop where
  | none (site : Site) : Claimings [] site site
  | next {marker : ObjectInfo} {result : Except Failure String} {log : List (ObjectInfo × Except Failure String)}
      {site mid site' : Site} (htakes : Reaches (takeObject marker).run site (.done result) mid)
      (hrest : Claimings log mid site') : Claimings ((marker, result) :: log) site site'

variable {log : List (ObjectInfo × Except Failure String)}

/-- **After any claims, those are there that were there or succeeded.** -/
theorem Claimings.isSome_get? (h : Claimings log site site') (claim : String) :
    (site'.store.get? claim).isSome = true ↔ (site.store.get? claim).isSome = true ∨
      ∃ made ∈ log, key made.1.key made.1.created = claim ∧ made.2 = .ok claim := by
  induction h with
  | none site => simp
  | next htakes _ ih =>
    rw [ih, isSome_get?_of_takeObject htakes, List.exists_mem_cons_iff, or_assoc]

/-- **No two markers share a claim.**  The keys of two claims on markers with a directory are the same only if the markers
are, and their instants.  So after any claims on such markers, whatever came of them, a claim on a marker can turn out to be
a duplicate exactly if it was there before, or if one of them was a claim on this very marker, with its instant, and
succeeded. -/
theorem key_unique {marker other : String} (hmarker : Key.directory marker ≠ "") (hother : Key.directory other ≠ "")
    (created created' : Timestamp) :
    (key marker created = key other created' ↔ marker = other ∧ created = created') ∧
    ∀ (info : ObjectInfo) (log : List (ObjectInfo × Except Failure String)) (site site' : Site),
      info.key = marker → info.created = created → Claimings log site site' →
      (∀ made ∈ log, Key.directory made.1.key ≠ "") →
      ((∃ s, Reaches (takeObject info).run site' (.done (.error (.duplicate (key marker created)))) s) ↔
        (site.store.get? (key marker created)).isSome = true ∨
          ∃ made ∈ log, (made.1.key = marker ∧ made.1.created = created) ∧ made.2 = .ok (key marker created)) := by
  refine ⟨key_eq_iff hmarker hother, ?_⟩
  rintro info log site site' rfl rfl h hlog
  rw [exists_duplicate_iff, h.isSome_get?]
  refine or_congr_right (exists_congr fun made => and_congr_right fun hmade => ?_)
  rw [key_eq_iff (hlog made hmade) hmarker]

/-- A marker with an unhandy name that was created in a leap second, or in the second after it. -/
def unhandy (created : Timestamp) : ObjectInfo :=
  ⟨"d/t/_claimed_a_created_at_+12345_", 0, "1", created, created⟩

theorem key_unique_leap_second :
    let early := unhandy (.ofUnix 59 1500000000)
    let late := unhandy (.ofUnix 60 500000000)
    Key.directory late.key ≠ "" ∧
    ∃ site', Claimings [(early, .ok (key early.key early.created))] ⟨.empty, [], []⟩ site' ∧
      ¬ ∃ s, Reaches (takeObject late).run site' (.done (.error (.duplicate (key late.key late.created)))) s := by
  intro early late
  have hdirectory : Key.directory late.key ≠ "" := by decide
  have htakes : Reaches (takeObject early).run ⟨.empty, [], []⟩ (.done (.ok (key early.key early.created))) _ :=
    reaches_takeObject_iff.2 ⟨_, .inr ⟨early.created, rfl, rfl⟩, rfl⟩
  have hclaimings : Claimings [(early, .ok (key early.key early.created))] ⟨.empty, [], []⟩ _ := .next htakes (.none _)
  refine ⟨hdirectory, _, hclaimings, fun hduplicate => ?_⟩
  have hiff := (key_unique hdirectory hdirectory late.created early.created).2 late _ _ _ rfl rfl hclaimings
    fun made hmade => by rw [List.mem_singleton.1 hmade]; exact hdirectory
  rcases hiff.1 hduplicate with hthere | ⟨made, hmade, hsame, -⟩
  · cases hthere
  · rw [List.mem_singleton.1 hmade] at hsame
    exact absurd hsame.2 (by decide)

end Claim
end Intake
