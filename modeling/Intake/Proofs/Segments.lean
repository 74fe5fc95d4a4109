import Intake.Proofs.Matching
import Intake.Proofs.Pointer
import Intake.Proofs.Query
/-!
# Segments — the tables of keys by the pattern that is used where none is given

The pattern is a dataset, a slash, a table, parts that may all be missing, and a slash (`KeyPattern.read_default`).  A
dataset is made of word characters, hyphens and points, a table of word characters and hyphens.  A key that starts with
a dataset and a table, each with a slash behind it, has that table (`KeyPattern.resolve_of_names`), as a repeated class
takes all it can.  The parts that may be missing hold characters of tables, slashes and `$` only; so a key with a table
is of that form if its second segment is free of `$` (`KeyPattern.names_of_resolve`), and it can be queued if something
follows (`KeyPattern.resolve_segments`).
-/
namespace Intake

/-! ## Segments of keys -/

namespace Key

/-- The segments of a key. -/
def segments (key : String) : List String := (Url.splitAt '/' key.toList).map String.ofList

theorem segments_append (front rest : String) : segments (front ++ "/" ++ rest) = segments front ++ segments rest := by
  have hlist : (front ++ "/" ++ rest).toList = front.toList ++ '/' :: rest.toList := by simp
  rw [segments, hlist, Url.splitAt_append, List.map_append, segments, segments]

theorem segments_of_notMem {key : String} (h : '/' ∉ key.toList) : segments key = [key] := by
  rw [segments, Url.splitAt_of_notMem h, List.map_singleton, String.ofList_toList]

theorem segments_cons_cons {first second : String} (hfirst : '/' ∉ first.toList) (hsecond : '/' ∉ second.toList)
    (rest : String) : segments (first ++ "/" ++ second ++ "/" ++ rest) = first :: second :: segments rest := by
  rw [segments_append, segments_append, segments_of_notMem hfirst, segments_of_notMem hsecond]
  rfl

end Key

/-! ## The pattern as a tree -/

namespace KeyPattern

def isTableChar (c : Char) : Bool := isWordChar c || c == '-'

def isDatasetChar (c : Char) : Bool := isTableChar c || c == '.'

/-- A text of one character or more of a kind. -/
def IsName (isPart : Char → Bool) (name : String) : Prop := name ≠ "" ∧ ∀ c ∈ name.toList, isPart c = true

def only (c : Char) : CharClass := .range c.toNat c.toNat

def tableClass : CharClass := .union (.union .none .word) (only '-')

def datasetClass : CharClass := .union tableClass (only '.')

def digitClass : CharClass := .union .none (.range '0'.toNat '9'.toNat)

def slash : Node := .one (only '/')

def literal (word : List Char) : Node := Pattern.sequence (word.map fun c => some (.one (only c)))

def digits (n : Nat) : Node := .times n (some n) true (.one digitClass)

/-- What may stand between a table and the slash at the end: the kind of a batch, its partition or the parts of its
date, and its name. -/
def parts : List Node :=
  [slash, .either (literal "incremental".toList) (literal "history".toList),
   slash, .group 3 (.seq (.one (only '$')) (.several digitClass)),
   slash, .group 4 (digits 4), slash, .group 5 (digits 2), slash, .group 6 (digits 2), slash, .group 7 (digits 2),
   slash, .group 8 (.several tableClass)]

/-- The pattern that is used where none is given. -/
def standard : KeyPattern where
  pattern := {
    source := defaultKeyPattern
    node := .seq (.edge .textStart) (.seq (.group 1 (.several datasetClass)) (.seq slash
      (.seq (.group 2 (.several tableClass)) (.optionals parts slash))))
    names := ["dataset", "table", "partition", "yyyy", "mm", "dd", "hh", "batch"].map some }

set_option maxRecDepth 100000 in
/-- The text of the pattern reads as that tree. -/
theorem read_default : read defaultKeyPattern = .ok standard := by decide +kernel

/-! ## Its characters and groups -/

theorem holds_only {c d : Char} : (only c).holds d.toNat = true ↔ d = c := by
  rw [only, CharClass.holds, Bool.and_eq_true, decide_eq_true_eq, decide_eq_true_eq, ← Char.toNat_inj]
  omega

theorem holds_only_eq (c d : Char) : (only c).holds d.toNat = (d == c) := by
  rw [Bool.eq_iff_iff, holds_only, beq_iff_eq]

theorem holds_tableClass (c : Char) : tableClass.holds c.toNat = isTableChar c := by
  show (false || isWordChar c || (only '-').holds c.toNat) = _
  rw [holds_only_eq, Bool.false_or, isTableChar]

theorem holds_datasetClass (c : Char) : datasetClass.holds c.toNat = isDatasetChar c := by
  rw [datasetClass, CharClass.holds, holds_tableClass, holds_only_eq, isDatasetChar]

theorem isTableChar_of_digit {c : Char} (h : digitClass.holds c.toNat = true) : isTableChar c = true := by
  have hword : isWordChar c = true := by
    show inRanges c.toNat ((48, 57) :: _) = true
    have hrange : 48 ≤ c.toNat ∧ c.toNat ≤ 57 := by simpa [digitClass, CharClass.holds] using h
    rw [inRanges, if_neg (by omega), if_pos hrange.2]
  rw [isTableChar, hword, Bool.true_or]

/-- A character that may follow a table: one of a table, a slash or `$`. -/
def Follows (c : Char) : Prop := isTableChar c = true ∨ c = '/' ∨ c = '$'

theorem within_literal {chars : Char → Prop} {marks : Nat → Prop} {word : List Char} (h : ∀ c ∈ word, chars c) :
    (literal word).Within chars marks := by
  induction word with
  | nil => trivial
  | cons c word ih =>
    have hone : (Node.one (only c)).Within chars marks := fun d hd => holds_only.1 hd ▸ h c (.head _)
    cases word with
    | nil => exact hone
    | cons d word => exact ⟨hone, ih fun e he => h e (.tail _ he)⟩

/-- **The parts behind a table** have characters that may follow it, and groups of their own. -/
theorem within_parts : ∀ part ∈ parts, part.Within Follows (2 < ·) := by
  have hslash : slash.Within Follows (2 < ·) := fun c hc => .inr (.inl (holds_only.1 hc))
  have hdigit : (Node.one digitClass).Within Follows (2 < ·) := fun c hc => .inl (isTableChar_of_digit hc)
  have hdollar : (Node.one (only '$')).Within Follows (2 < ·) := fun c hc => .inr (.inr (holds_only.1 hc))
  have htable : (Node.one tableClass).Within Follows (2 < ·) := fun c hc => .inl (holds_tableClass c ▸ hc)
  have hkinds : ∀ c ∈ "incremental".toList ++ "history".toList, Follows c := fun c hc =>
    .inl (List.all_eq_true.1 (show ("incremental".toList ++ "history".toList).all isTableChar = true by decide) c hc)
  have hkind : (Node.either (literal "incremental".toList) (literal "history".toList)).Within Follows (2 < ·) :=
    ⟨within_literal fun c hc => hkinds c (List.mem_append_left _ hc),
      within_literal fun c hc => hkinds c (List.mem_append_right _ hc)⟩
  simp only [parts, List.forall_mem_cons, List.not_mem_nil, false_imp_iff, implies_true, and_true]
  exact ⟨hslash, hkind, hslash, ⟨by decide, hdollar, hdigit⟩, hslash, ⟨by decide, hdigit⟩, hslash, ⟨by decide, hdigit⟩,
    hslash, ⟨by decide, hdigit⟩, hslash, ⟨by decide, hdigit⟩, hslash, by decide, htable⟩

/-! ## A key with names at its start has their table -/

/-- A match of a dataset and a table with slashes behind them: the groups of the two names are marked around all of
their characters, and the groups marked later are others. -/
theorem run_of_names {dataset table : List Char} (hdataset : dataset ≠ [])
    (hdatasetChars : ∀ c ∈ dataset, isDatasetChar c) (htable : table ≠ []) (htableChars : ∀ c ∈ table, isTableChar c)
    (rest : List Char) :
    ∃ place marked,
      standard.pattern.node.run ⟨0, none, dataset ++ '/' :: (table ++ '/' :: rest), []⟩ some = some place ∧
        place.groups = marked ++ [(2, dataset.length + 1, dataset.length + 1 + table.length), (1, 0, dataset.length)] ∧
        ∀ g ∈ marked, 2 < g.1 := by
  let start : Place := ⟨0, none, dataset ++ '/' :: (table ++ '/' :: rest), []⟩
  let afterDataset : Place := start.past dataset ('/' :: (table ++ '/' :: rest))
  let atSlash : Place := { afterDataset with groups := [(1, 0, afterDataset.index)] }
  let atTable : Place := atSlash.next '/' (table ++ '/' :: rest)
  let afterTable : Place := atTable.past table ('/' :: rest)
  let behind : Place := { afterTable with groups := (2, atTable.index, afterTable.index) :: atTable.groups }
  have hindex : behind.groups =
      [(2, dataset.length + 1, dataset.length + 1 + table.length), (1, 0, dataset.length)] := by
    simp [behind, afterTable, atTable, atSlash, afterDataset, start, Place.past, Place.next]
  -- behind the table all parts may be missing
  obtain ⟨place, hplace⟩ : ∃ place, (Node.optionals parts slash).run behind some = some place := by
    refine Option.isSome_iff_exists.1 (Node.isSome_run_optionals parts ?_)
    rw [slash, Node.run_one_cons rfl (holds_only.2 rfl)]
    rfl
  have hatTable : (Node.seq (.group 2 (.several tableClass)) (.optionals parts slash)).run atTable some =
      some place := by
    refine Eq.trans ?_ hplace
    refine Node.run_several htable (fun c hc => ?_) (fun c hc => ?_) rfl (Option.isSome_of_mem hplace)
    · rw [holds_tableClass]
      exact htableChars c hc
    · obtain rfl : '/' = c := by simpa using hc
      decide
  have hatSlash : (Node.seq slash (.seq (.group 2 (.several tableClass)) (.optionals parts slash))).run atSlash some =
      some place := by
    have hnext : atSlash.after = '/' :: (table ++ '/' :: rest) := rfl
    rw [Node.run, slash, Node.run_one_cons hnext (holds_only.2 rfl)]
    exact hatTable
  have hstart : standard.pattern.node.run start some = some place := by
    refine Eq.trans ?_ hatSlash
    refine Node.run_several hdataset (fun c hc => ?_) (fun c hc => ?_) rfl (Option.isSome_of_mem hatSlash)
    · rw [holds_datasetClass]
      exact hdatasetChars c hc
    · obtain rfl : '/' = c := by simpa using hc
      decide
  obtain ⟨q, hpasses, hq⟩ := Node.passes_of_run _ _ _ _ hplace
  obtain rfl : q = place := Option.some.inj hq
  obtain ⟨m, ⟨-, marked, hmarked, hmarks⟩, hlast⟩ := hpasses.optionals within_parts
  obtain ⟨c, rest', -, -, rfl⟩ := hlast
  exact ⟨_, marked, hstart, by rw [← hindex, ← hmarked]; rfl, hmarks⟩

theorem resolve_of_captures {keys : KeyPattern} {key : String} {found : Found} {dataset table : Capture}
    (hfind : keys.pattern.find? key = some found) (hdataset : found.capture? "dataset" = some dataset)
    (htable : found.capture? "table" = some table) (hdatasetText : dataset.text ≠ "") (htableText : table.text ≠ "") :
    ∃ destination, keys.resolve key = .ok destination ∧
      destination.tablePrefix = String.ofList (key.toList.take table.finish) ∧
      destination.table.dataset = dataset.text ∧ destination.table.table = table.text := by
  unfold resolve
  simp only [hfind, hdataset, htable, Option.filter_some, String.isEmpty_eq_false_iff.2 hdatasetText,
    String.isEmpty_eq_false_iff.2 htableText, Bool.not_false, if_true, Option.map_some]
  exact ⟨_, rfl, rfl, rfl, rfl⟩

/-- **A key that starts with a dataset and a table has that table.** -/
theorem resolve_of_names {dataset table : String} (hdataset : IsName isDatasetChar dataset)
    (htable : IsName isTableChar table) (rest : String) :
    ∃ found, standard.resolve (dataset ++ "/" ++ table ++ "/" ++ rest) = .ok found ∧
      found.tablePrefix = dataset ++ "/" ++ table ∧ found.table.dataset = dataset ∧ found.table.table = table := by
  have hlist : (dataset ++ "/" ++ table ++ "/" ++ rest).toList =
      dataset.toList ++ '/' :: (table.toList ++ '/' :: rest.toList) := by simp
  have htake : (dataset.toList ++ '/' :: (table.toList ++ '/' :: rest.toList)).take
      (dataset.toList.length + 1 + table.toList.length) = (dataset ++ "/" ++ table).toList := by
    have happend : dataset.toList ++ '/' :: (table.toList ++ '/' :: rest.toList) =
        (dataset ++ "/" ++ table).toList ++ '/' :: rest.toList := by simp
    have hlength : (dataset ++ "/" ++ table).toList.length = dataset.toList.length + 1 + table.toList.length := by
      simp only [String.toList_append, List.length_append]
      rfl
    rw [happend, ← hlength, List.take_left]
  obtain ⟨place, marked, hrun, hgroups, hmarks⟩ := run_of_names (mt String.toList_eq_nil_iff.1 hdataset.1) hdataset.2
    (mt String.toList_eq_nil_iff.1 htable.1) htable.2 rest.toList
  let match_ : Found :=
    ⟨dataset.toList ++ '/' :: (table.toList ++ '/' :: rest.toList), standard.pattern, place.groups⟩
  have hfind : standard.pattern.find? (dataset ++ "/" ++ table ++ "/" ++ rest) = some match_ := by
    rw [Pattern.find?, hlist, show standard.pattern.node.searchFrom 0 none _ = some place from
      Node.searchFrom_textStart.trans hrun, Option.map_some]
  have hdatasetIndex : standard.pattern.groupIndex? "dataset" = some 1 := by decide
  have htableIndex : standard.pattern.groupIndex? "table" = some 2 := by decide
  have hdatasetCapture : match_.capture? "dataset" = some ⟨dataset, dataset.toList.length⟩ := by
    rw [Found.capture?_of_groups hdatasetIndex (hgroups.trans (List.append_cons marked _ _)) fun g hg => ?_]
    · simp [match_]
    · rcases List.mem_append.1 hg with hg | hg
      · exact Nat.ne_of_gt (Nat.lt_of_succ_lt (hmarks g hg))
      · simp_all
  have htableCapture : match_.capture? "table" = some ⟨table, dataset.toList.length + 1 + table.toList.length⟩ := by
    rw [Found.capture?_of_groups htableIndex hgroups fun g hg => Nat.ne_of_gt (hmarks g hg), htake]
    simp [List.drop_append]
  obtain ⟨found, hfound, hfront, hfoundDataset, hfoundTable⟩ :=
    resolve_of_captures hfind hdatasetCapture htableCapture hdataset.1 htable.1
  refine ⟨found, hfound, ?_, hfoundDataset, hfoundTable⟩
  rw [hfront, hlist, htake, String.ofList_toList]

/-! ## A key with a table starts with names -/

theorem IsName.ofList {isPart : Char → Bool} {name : List Char} (hne : name ≠ []) (h : ∀ c ∈ name, isPart c = true) :
    IsName isPart (String.ofList name) :=
  ⟨fun e => hne (by simpa using congrArg String.toList e), by rwa [String.toList_ofList]⟩

theorem IsName.slash_notMem {isPart : Char → Bool} {name : String} (h : IsName isPart name)
    (hslash : isPart '/' = false) : '/' ∉ name.toList := fun hmem => by
  rw [h.2 '/' hmem] at hslash
  cases hslash

/-- The texts on the way through the pattern: a dataset, a table, and what may follow it up to a slash. -/
theorem texts_of_resolve {key : String} {found : Destination} (h : standard.resolve key = .ok found) :
    ∃ dataset table more rest : List Char, key.toList = dataset ++ '/' :: (table ++ (more ++ '/' :: rest)) ∧
      dataset ≠ [] ∧ (∀ c ∈ dataset, isDatasetChar c = true) ∧ table ≠ [] ∧ (∀ c ∈ table, isTableChar c = true) ∧
      ∀ c ∈ more, Follows c := by
  obtain ⟨place, hrun⟩ : ∃ place, standard.pattern.node.run ⟨0, none, key.toList, []⟩ some = some place := by
    cases hfind : standard.pattern.find? key with
    | none =>
      unfold resolve at h
      rw [hfind] at h
      cases h
    | some match_ =>
      obtain ⟨place, hsearch, -⟩ := Option.map_eq_some_iff.1 hfind
      exact ⟨place, Node.searchFrom_textStart.symm.trans hsearch⟩
  obtain ⟨q, hpasses, -⟩ := Node.passes_of_run _ _ _ _ hrun
  obtain ⟨_, ⟨-, rfl⟩, _, ⟨m, hdataset, rfl⟩, _, ⟨c, afterSlash, hslash, hc, rfl⟩, _, ⟨m', htable, rfl⟩, htail⟩ :=
    hpasses
  obtain ⟨m'', ⟨⟨more, hmore, hfollows⟩, -⟩, c', rest, hslash', hc', rfl⟩ := htail.optionals within_parts
  obtain rfl : c = '/' := holds_only.1 hc
  obtain rfl : c' = '/' := holds_only.1 hc'
  obtain ⟨dataset, hdatasetSome, hdatasetText, hdatasetChars⟩ := hdataset.several
  obtain ⟨table, htableSome, htableText, htableChars⟩ := htable.several
  refine ⟨dataset, table, more, rest, ?_, hdatasetSome, fun c hc => ?_, htableSome, fun c hc => ?_, hfollows⟩
  · calc key.toList = dataset ++ m.after := hdatasetText
      _ = dataset ++ '/' :: afterSlash := congrArg _ hslash
      _ = dataset ++ '/' :: (table ++ m'.after) := congrArg (fun l => dataset ++ '/' :: l) htableText
      _ = dataset ++ '/' :: (table ++ (more ++ m''.after)) := congrArg (fun l => dataset ++ '/' :: (table ++ l)) hmore
      _ = dataset ++ '/' :: (table ++ (more ++ '/' :: rest)) := by rw [hslash']
  · exact holds_datasetClass c ▸ hdatasetChars c hc
  · exact holds_tableClass c ▸ htableChars c hc

/-- **A key with a table starts with a dataset and a table**, if its second segment is free of `$`. -/
theorem names_of_resolve {key : String} {found : Destination} (h : standard.resolve key = .ok found)
    (hfree : ∀ name ∈ (Key.segments key)[1]?, '$' ∉ name.toList) :
    ∃ dataset table rest, IsName isDatasetChar dataset ∧ IsName isTableChar table ∧
      key = dataset ++ "/" ++ table ++ "/" ++ rest := by
  obtain ⟨dataset, table, text, rest, hlist, hdatasetSome, hdatasetChars, htableSome, htableChars, hfollows⟩ :=
    texts_of_resolve h
  have hdataset : IsName isDatasetChar (String.ofList dataset) := .ofList hdatasetSome hdatasetChars
  -- the second segment ends at the first slash behind the table
  obtain ⟨more, left, hsplit, hmore⟩ :=
    List.eq_append_cons_of_mem (List.mem_append_right text (List.mem_singleton_self '/'))
  have hkey : key =
      String.ofList dataset ++ "/" ++ String.ofList (table ++ more) ++ "/" ++ String.ofList (left ++ rest) := by
    have htail : text ++ '/' :: rest = more ++ '/' :: (left ++ rest) := by
      rw [List.append_cons, hsplit, List.append_assoc, List.cons_append]
    rw [← String.toList_inj, hlist, htail]
    simp
  have hnoSlash : '/' ∉ table ++ more := fun hmem => by
    rcases List.mem_append.1 hmem with hmem | hmem
    · exact absurd (htableChars '/' hmem) (by decide)
    · exact hmore hmem
  have hsecond : (Key.segments key)[1]? = some (String.ofList (table ++ more)) := by
    rw [hkey, Key.segments_cons_cons (hdataset.slash_notMem (by decide)) (by rwa [String.toList_ofList])]
    rfl
  have hnoDollar : '$' ∉ table ++ more := by simpa using hfree _ hsecond
  refine ⟨_, _, _, hdataset, .ofList (by simp [htableSome]) fun c hc => ?_, hkey⟩
  rcases List.mem_append.1 hc with hc' | hc'
  · exact htableChars c hc'
  · have hne : c ≠ '/' := fun e => hnoSlash (e ▸ hc)
    have hne' : c ≠ '$' := fun e => hnoDollar (e ▸ hc)
    have hmem : c ∈ text ++ ['/'] := hsplit ▸ List.mem_append_left _ hc'
    have hfollow := hfollows c (by simpa [hne] using hmem)
    simpa [Follows, hne, hne'] using hfollow

/-! ## Keys that can be queued -/

/-- Of these keys the table is known and yet there is no pointer: one ends with the slash behind its table, and in the
other one `$` stands directly behind it. -/
theorem resolve_unqueued : ∃ keys, read defaultKeyPattern = .ok keys ∧
    (∃ found, keys.resolve "d/t/" = .ok found ∧ found.tablePrefix = "d/t" ∧
      (Backlog.pointerFor found.tablePrefix "d/t/").isOk = false) ∧
    ∃ found, keys.resolve "d/t$20240101/_SUCCESS" = .ok found ∧ found.tablePrefix = "d/t" ∧
      startsWith (found.tablePrefix ++ "/") "d/t$20240101/_SUCCESS" = false ∧
      (Backlog.pointerFor found.tablePrefix "d/t$20240101/_SUCCESS").isOk = false := by
  have hempty : standard.resolve "d/t/" = .ok ⟨"d/t", ⟨none, "d", "t", none⟩, none⟩ := by decide +kernel
  have hdollar : standard.resolve "d/t$20240101/_SUCCESS" = .ok ⟨"d/t", ⟨none, "d", "t", some "$20240101"⟩, none⟩ := by
    decide +kernel
  exact ⟨standard, read_default, ⟨_, hempty, rfl, by decide⟩, ⟨_, hdollar, rfl, by decide, by decide⟩⟩

/-- **The table prefix is the first two segments of the key**, for the pattern that is used where none is given and keys
with a second segment free of `$`.  Such a key has a table exactly if it starts with a dataset and a table, each with a
slash behind it, and it can be queued exactly if something follows. -/
theorem resolve_segments : ∃ keys, read defaultKeyPattern = .ok keys ∧
    ∀ key, (∀ name ∈ (Key.segments key)[1]?, '$' ∉ name.toList) →
      ((∃ found, keys.resolve key = .ok found) ↔ ∃ dataset table rest, IsName isDatasetChar dataset ∧
        IsName isTableChar table ∧ key = dataset ++ "/" ++ table ++ "/" ++ rest) ∧
      ∀ found, keys.resolve key = .ok found → ∃ rest,
        Key.segments key = found.table.dataset :: found.table.table :: Key.segments rest ∧
        found.tablePrefix = found.table.dataset ++ "/" ++ found.table.table ∧
        key = found.tablePrefix ++ "/" ++ rest ∧
        ((∃ pointer, Backlog.pointerFor found.tablePrefix key = .ok pointer) ↔ rest ≠ "") := by
  refine ⟨standard, read_default, fun key hfree => ⟨⟨?_, ?_⟩, fun found hfound => ?_⟩⟩
  · rintro ⟨found, hfound⟩
    exact names_of_resolve hfound hfree
  · rintro ⟨dataset, table, rest, hdataset, htable, rfl⟩
    obtain ⟨found, hfound, -⟩ := resolve_of_names hdataset htable rest
    exact ⟨found, hfound⟩
  · obtain ⟨dataset, table, rest, hdataset, htable, rfl⟩ := names_of_resolve hfound hfree
    obtain ⟨found', hfound', hfront, rfl, rfl⟩ := resolve_of_names hdataset htable rest
    obtain rfl : found = found' := Except.ok.inj (hfound.symm.trans hfound')
    refine ⟨rest, Key.segments_cons_cons (hdataset.slash_notMem (by decide)) (htable.slash_notMem (by decide)) rest,
      hfront, by rw [hfront], ?_⟩
    rw [hfront]
    constructor
    · rintro ⟨pointer, hpointer⟩ rfl
      obtain ⟨rest, hrest, hkey, -⟩ := Backlog.pointerFor_eq_ok hpointer
      exact hrest ((String.append_right_inj _).1 hkey).symm
    · exact fun hrest => ⟨_, Backlog.pointerFor_eq_ok_iff.2 ⟨rest, hrest, rfl, rfl⟩⟩

/-- A partition in a segment of its own, behind a table named like a kind of batch. -/
theorem resolve_segments_partition : ∃ keys found, read defaultKeyPattern = .ok keys ∧
    keys.resolve "d.e/t-history/$20240101/_SUCCESS" = .ok found ∧ found.tablePrefix = "d.e/t-history" ∧
    ∃ pointer, Backlog.pointerFor found.tablePrefix "d.e/t-history/$20240101/_SUCCESS" = .ok pointer := by
  obtain ⟨keys, hread, hkeys⟩ := resolve_segments
  obtain ⟨haccepts, hsegments⟩ := hkeys "d.e/t-history/$20240101/_SUCCESS" (by decide)
  obtain ⟨found, hfound⟩ := haccepts.2 ⟨"d.e", "t-history", "$20240101/_SUCCESS",
    ⟨by decide, List.all_eq_true.1 (by decide)⟩, ⟨by decide, List.all_eq_true.1 (by decide)⟩, by decide⟩
  obtain ⟨rest, hparts, hfront, hkey, hpointer⟩ := hsegments found hfound
  have hnames : ["d.e", "t-history"] = [found.table.dataset, found.table.table] := congrArg (List.take 2) hparts
  obtain ⟨hdataset, htable⟩ : "d.e" = found.table.dataset ∧ "t-history" = found.table.table := by simpa using hnames
  have hfoundPrefix : found.tablePrefix = "d.e/t-history" := by rw [hfront, ← hdataset, ← htable]; decide
  refine ⟨keys, found, hread, hfound, hfoundPrefix, hpointer.2 ?_⟩
  rintro rfl
  rw [hfoundPrefix] at hkey
  exact absurd hkey (by decide)

end KeyPattern
end Intake
