import Intake.Pattern.Match
import Mathlib.Tactic.Common
/-!
# Matching — the ways through a pattern, and the one a matcher takes

What a pattern means is a relation between places (`Node.Passes`).  A matcher that gives an answer has found a way
through (`Node.passes_of_run`), so the characters that it passed over and the groups that it marked are the pattern's
(`Node.Passes.reaches`).  Which of the ways it takes shows in two facts: parts that may be missing never make it fail
(`Node.isSome_run_optionals`), and a repeated class takes all the characters it can if what follows agrees
(`Node.run_several`).
-/
namespace Intake

/-! ## Ways through a pattern -/

/-- So many rounds of a step. -/
def Rounds {α : Type} (step : α → α → Prop) : Nat → α → α → Prop
  | 0, p, q => q = p
  | n + 1, p, q => ∃ m, step p m ∧ Rounds step n m q

theorem Rounds.append {α : Type} {step : α → α → Prop} {n m : Nat} {p q r : α} (h : Rounds step n p q)
    (h' : Rounds step m q r) : Rounds step (n + m) p r := by
  induction n generalizing p with
  | zero =>
    obtain rfl : q = p := h
    rwa [Nat.zero_add]
  | succ n ih =>
    obtain ⟨s, hs, hrest⟩ := h
    rw [Nat.succ_add]
    exact ⟨s, hs, ih hrest⟩

/-- What holds of no step at all, of a step, and of one after the other, holds of rounds of it. -/
theorem Rounds.closed {α : Type} {step closed : α → α → Prop} (hrefl : ∀ p, closed p p)
    (htrans : ∀ p q r, closed p q → closed q r → closed p r) (hstep : ∀ p q, step p q → closed p q) {n : Nat} {p q : α}
    (h : Rounds step n p q) : closed p q := by
  induction n generalizing p with
  | zero =>
    obtain rfl : q = p := h
    exact hrefl q
  | succ n ih =>
    obtain ⟨m, hm, hrest⟩ := h
    exact htrans p m q (hstep p m hm) (ih hrest)

/-- **The ways through a pattern**, from a place to a later one, in no order of preference. -/
def Node.Passes : Node → Place → Place → Prop
  | .empty, p, q => q = p
  | .one set, p, q => ∃ c rest, p.after = c :: rest ∧ set.holds c.toNat = true ∧ q = p.next c rest
  | .edge e, p, q => e.holds p = true ∧ q = p
  | .seq a b, p, q => ∃ m, a.Passes p m ∧ b.Passes m q
  | .either a b, p, q => a.Passes p q ∨ b.Passes p q
  | .group i body, p, q => ∃ m, body.Passes p m ∧ q = { m with groups := (i, p.index, m.index) :: m.groups }
  | .times least most _ body, p, q =>
    ∃ n, least ≤ n ∧ (∀ bound ∈ most, n ≤ max least bound) ∧ Rounds body.Passes n p q

/-! ## A matcher finds a way -/

namespace Matcher

variable {α : Type}

/-- An answer of the matcher comes from what follows, at a place that the step leads to. -/
def Follows (body : Matcher α) (step : Place → Place → Prop) : Prop :=
  ∀ p k answer, body p k = some answer → ∃ q, step p q ∧ k q = some answer

theorem prefer_eq_some {eager : Bool} {more enough : Unit → Option α} {answer : α}
    (h : prefer eager more enough = some answer) : more () = some answer ∨ enough () = some answer := by
  unfold prefer at h
  split at h <;> simp only [Option.or_eq_some_iff] at h <;> tauto

variable {body : Matcher α} {step : Place → Place → Prop}

theorem Follows.exactly (hbody : Follows body step) (n : Nat) : Follows (Matcher.exactly body n) (Rounds step n) := by
  induction n with
  | zero => exact fun p k answer h => ⟨p, rfl, h⟩
  | succ n ih =>
    intro p k answer h
    obtain ⟨m, hm, hrest⟩ := hbody _ _ _ h
    obtain ⟨q, hq, hk⟩ := ih _ _ _ hrest
    exact ⟨q, ⟨m, hm, hq⟩, hk⟩

theorem Follows.atMost (hbody : Follows body step) (eager : Bool) (n : Nat) :
    Follows (Matcher.atMost eager body n) fun p q => ∃ m ≤ n, Rounds step m p q := by
  induction n with
  | zero => exact fun p k answer h => ⟨p, ⟨0, Nat.le_refl 0, rfl⟩, h⟩
  | succ n ih =>
    intro p k answer h
    rcases prefer_eq_some h with hmore | henough
    · obtain ⟨s, hs, hrest⟩ := hbody _ _ _ hmore
      obtain ⟨q, ⟨m, hle, hm⟩, hk⟩ := ih _ _ _ hrest
      exact ⟨q, ⟨m + 1, Nat.succ_le_succ hle, s, hs, hm⟩, hk⟩
    · exact ⟨p, ⟨0, Nat.zero_le _, rfl⟩, henough⟩

theorem Follows.atLeastOnce (hbody : Follows body step) (eager : Bool) (rounds : Nat) :
    Follows (Matcher.atLeastOnce eager body rounds) fun p q => ∃ m, 1 ≤ m ∧ Rounds step m p q := by
  induction rounds with
  | zero =>
    intro p k answer h
    obtain ⟨q, hq, hk⟩ := hbody _ _ _ h
    exact ⟨q, ⟨1, Nat.le_refl 1, q, hq, rfl⟩, hk⟩
  | succ rounds ih =>
    intro p k answer h
    obtain ⟨s, hs, hrest⟩ := hbody _ _ _ h
    have hstop : k s = some answer → ∃ q, (∃ m, 1 ≤ m ∧ Rounds step m p q) ∧ k q = some answer :=
      fun hk => ⟨s, ⟨1, Nat.le_refl 1, s, hs, rfl⟩, hk⟩
    split at hrest
    · exact hstop hrest
    · rcases prefer_eq_some hrest with hmore | henough
      · obtain ⟨q, ⟨m, -, hm⟩, hk⟩ := ih _ _ _ hmore
        exact ⟨q, ⟨m + 1, Nat.le_add_left 1 m, s, hs, hm⟩, hk⟩
      · exact hstop henough

end Matcher

/-- **An answer of a pattern's matcher comes from what follows, at the end of a way through the pattern.** -/
theorem Node.passes_of_run {α : Type} (node : Node) : Matcher.Follows (@Node.run α node) node.Passes := by
  induction node with
  | empty => exact fun p k answer h => ⟨p, rfl, h⟩
  | one set =>
    intro p k answer h
    rw [run] at h
    split at h
    · cases h
    · rename_i c rest hafter
      split at h
      · rename_i hholds
        exact ⟨_, ⟨c, rest, hafter, hholds, rfl⟩, h⟩
      · cases h
  | edge e =>
    intro p k answer h
    rw [run] at h
    split at h
    · rename_i hholds
      exact ⟨p, ⟨hholds, rfl⟩, h⟩
    · cases h
  | seq a b iha ihb =>
    intro p k answer h
    obtain ⟨m, hm, hrest⟩ := iha _ _ _ h
    obtain ⟨q, hq, hk⟩ := ihb _ _ _ hrest
    exact ⟨q, ⟨m, hm, hq⟩, hk⟩
  | either a b iha ihb =>
    intro p k answer h
    rw [run, Option.or_eq_some_iff] at h
    rcases h with hfirst | ⟨-, hsecond⟩
    · obtain ⟨q, hq, hk⟩ := iha _ _ _ hfirst
      exact ⟨q, .inl hq, hk⟩
    · obtain ⟨q, hq, hk⟩ := ihb _ _ _ hsecond
      exact ⟨q, .inr hq, hk⟩
  | group i body ih =>
    intro p k answer h
    obtain ⟨m, hm, hk⟩ := ih _ _ _ h
    exact ⟨_, ⟨m, hm, rfl⟩, hk⟩
  | times least most eager body ih =>
    intro p k answer h
    cases most with
    | some bound =>
      obtain ⟨m, hm, hrest⟩ := ih.exactly least _ _ _ h
      obtain ⟨q, ⟨n, hn, hq⟩, hk⟩ := ih.atMost eager (bound - least) _ _ _ hrest
      refine ⟨q, ⟨least + n, Nat.le_add_right _ _, fun b hb => ?_, hm.append hq⟩, hk⟩
      cases hb
      omega
    | none =>
      cases least with
      | zero =>
        rcases Matcher.prefer_eq_some h with hmore | henough
        · obtain ⟨q, ⟨n, -, hq⟩, hk⟩ := ih.atLeastOnce eager _ _ _ _ hmore
          exact ⟨q, ⟨n, Nat.zero_le n, by simp, hq⟩, hk⟩
        · exact ⟨p, ⟨0, Nat.le_refl 0, by simp, rfl⟩, henough⟩
      | succ least =>
        obtain ⟨m, hm, hrest⟩ := ih.exactly least _ _ _ h
        obtain ⟨q, ⟨n, hn, hq⟩, hk⟩ := ih.atLeastOnce eager _ _ _ _ hrest
        exact ⟨q, ⟨least + n, by omega, by simp, hm.append hq⟩, hk⟩

/-! ## What lies on the way -/

/-- `q` comes after `p` by characters of some kind, and groups of some kind have been marked in between. -/
structure Place.Reaches (chars : Char → Prop) (marks : Nat → Prop) (p q : Place) : Prop where
  text : ∃ text, p.after = text ++ q.after ∧ ∀ c ∈ text, chars c
  groups : ∃ marked, q.groups = marked ++ p.groups ∧ ∀ g ∈ marked, marks g.1

section Reaches

variable {chars : Char → Prop} {marks : Nat → Prop}

theorem Place.Reaches.refl (p : Place) : Place.Reaches chars marks p p :=
  ⟨⟨[], rfl, by simp⟩, ⟨[], rfl, by simp⟩⟩

theorem Place.Reaches.trans {p q r : Place} (h : p.Reaches chars marks q) (h' : q.Reaches chars marks r) :
    p.Reaches chars marks r := by
  obtain ⟨⟨text, htext, hchars⟩, ⟨marked, hmarked, hmarks⟩⟩ := h
  obtain ⟨⟨text', htext', hchars'⟩, ⟨marked', hmarked', hmarks'⟩⟩ := h'
  refine ⟨⟨text ++ text', by rw [htext, htext', List.append_assoc], fun c hc => ?_⟩,
    ⟨marked' ++ marked, by rw [hmarked', hmarked, List.append_assoc], fun g hg => ?_⟩⟩
  · rcases List.mem_append.1 hc with hc | hc
    exacts [hchars c hc, hchars' c hc]
  · rcases List.mem_append.1 hg with hg | hg
    exacts [hmarks' g hg, hmarks g hg]

/-- The classes of a pattern have characters of some kind only, and its groups have indices of some kind. -/
def Node.Within (chars : Char → Prop) (marks : Nat → Prop) : Node → Prop
  | .empty | .edge _ => True
  | .one set => ∀ c : Char, set.holds c.toNat = true → chars c
  | .seq a b | .either a b => a.Within chars marks ∧ b.Within chars marks
  | .group i body => marks i ∧ body.Within chars marks
  | .times _ _ _ body => body.Within chars marks

/-- **A way through a pattern passes over its characters and marks its groups.** -/
theorem Node.Passes.reaches {node : Node} (hwithin : node.Within chars marks) {p q : Place} (h : node.Passes p q) :
    p.Reaches chars marks q := by
  induction node generalizing p q with
  | empty =>
    obtain rfl : q = p := h
    exact .refl q
  | one set =>
    obtain ⟨c, rest, hafter, hholds, rfl⟩ := h
    exact ⟨⟨[c], hafter, by simpa using hwithin c hholds⟩, ⟨[], rfl, by simp⟩⟩
  | edge e =>
    obtain rfl : q = p := h.2
    exact .refl q
  | seq a b iha ihb =>
    obtain ⟨m, hm, hq⟩ := h
    exact (iha hwithin.1 hm).trans (ihb hwithin.2 hq)
  | either a b iha ihb => exact h.elim (iha hwithin.1) (ihb hwithin.2)
  | group i body ih =>
    obtain ⟨m, hm, rfl⟩ := h
    obtain ⟨htext, marked, hmarked, hmarks⟩ := ih hwithin.2 hm
    refine ⟨htext, (i, p.index, m.index) :: marked, congrArg _ hmarked, fun g hg => ?_⟩
    rcases List.mem_cons.1 hg with rfl | hg
    exacts [hwithin.1, hmarks g hg]
  | times least most eager body ih =>
    obtain ⟨n, -, -, hrounds⟩ := h
    exact hrounds.closed .refl (fun _ _ _ => .trans) fun _ _ => ih hwithin

end Reaches

/-! ## The way a matcher takes -/

namespace Node

variable {α : Type} {set : CharClass} {k : Place → Option α}

/-- A part that may be missing. -/
def optional (node : Node) : Node := .times 0 (some 1) true node

/-- One character of a class or more, as many as can be. -/
def several (set : CharClass) : Node := .times 1 none true (.one set)

/-- Parts that may be missing, before a last one that may not. -/
def optionals (parts : List Node) (last : Node) : Node :=
  parts.foldr (fun part rest => .seq part.optional rest) last

theorem isSome_run_optional (node : Node) {p : Place} (h : (k p).isSome) : (node.optional.run p k).isSome := by
  simp [optional, run, Matcher.exactly, Matcher.atMost, Matcher.prefer, Option.isSome_or, h]

/-- **Parts that may be missing are no hindrance**: a matcher that can go on without them does not fail. -/
theorem isSome_run_optionals (parts : List Node) {last : Node} {p : Place} (h : (last.run p k).isSome) :
    ((optionals parts last).run p k).isSome := by
  induction parts with
  | nil => exact h
  | cons part parts ih => exact isSome_run_optional part ih

/-- A way through parts that may be missing and a last one passes through the last one at its end. -/
theorem Passes.optionals {chars : Char → Prop} {marks : Nat → Prop} {parts : List Node} {last : Node} {p q : Place}
    (hparts : ∀ part ∈ parts, part.Within chars marks) (h : (optionals parts last).Passes p q) :
    ∃ m, p.Reaches chars marks m ∧ last.Passes m q := by
  induction parts generalizing p with
  | nil => exact ⟨p, .refl p, h⟩
  | cons part parts ih =>
    obtain ⟨s, hs, hrest⟩ := h
    obtain ⟨m, hm, hlast⟩ := ih (fun other hother => hparts other (.tail _ hother)) hrest
    have hpart : part.optional.Within chars marks := hparts part (.head _)
    exact ⟨m, (hs.reaches hpart).trans hm, hlast⟩

theorem run_one_none {p : Place} (h : ∀ c ∈ p.after.head?, set.holds c.toNat = false) : (one set).run p k = none := by
  rw [run]
  split
  · rfl
  · rename_i c rest hafter
    rw [h c (by rw [hafter]; rfl), if_neg Bool.false_ne_true]

theorem run_one_cons {p : Place} {c : Char} {rest : List Char} (hafter : p.after = c :: rest)
    (h : set.holds c.toNat = true) : (one set).run p k = k (p.next c rest) := by
  rw [run]
  simp only [hafter, h, if_true]

end Node

/-- The place after a text, with `rest` left. -/
def Place.past (p : Place) (text rest : List Char) : Place :=
  { p with index := p.index + text.length, before := text.getLast?.or p.before, after := rest }

theorem Place.past_cons (p : Place) (c : Char) (text rest : List Char) :
    p.past (c :: text) rest = (p.next c (text ++ rest)).past text rest := by
  unfold past next
  rw [List.getLast?_cons]
  congr 1
  · simp only [List.length_cons]
    omega
  · cases text.getLast? <;> rfl

theorem Matcher.atLeastOnce_one {α : Type} {set : CharClass} {k : Place → Option α} {text rest : List Char}
    (hne : text ≠ []) (hin : ∀ c ∈ text, set.holds c.toNat = true)
    (hout : ∀ c ∈ rest.head?, set.holds c.toNat = false) {p : Place} {rounds : Nat} (hafter : p.after = text ++ rest)
    (hrounds : text.length ≤ rounds) (hk : (k (p.past text rest)).isSome) :
    atLeastOnce true (Node.one set).run rounds p k = k (p.past text rest) := by
  induction text generalizing p rounds with
  | nil => exact absurd rfl hne
  | cons c text ih =>
    cases rounds with
    | zero => cases hrounds
    | succ rounds =>
      rw [Place.past_cons] at hk ⊢
      have hnext : p.after = c :: (text ++ rest) := hafter
      rw [atLeastOnce, Node.run_one_cons hnext (hin c (.head _)), if_neg (by simp [Place.next]), prefer, if_pos rfl]
      cases text with
      | nil =>
        -- no further round: the next character is none of the class
        have hend : atLeastOnce true (Node.one set).run rounds (p.next c rest) k = none := by
          cases rounds <;> exact Node.run_one_none hout
        rw [List.nil_append, hend, Option.none_or]
        rfl
      | cons d text =>
        rw [ih (List.cons_ne_nil _ _) (fun e he => hin e (.tail _ he)) rfl (Nat.le_of_succ_le_succ hrounds) hk]
        exact Option.or_of_isSome hk

/-- **A repeated class takes all it can**, if what follows agrees with that. -/
theorem Node.run_several {α : Type} {set : CharClass} {k : Place → Option α} {text rest : List Char} (hne : text ≠ [])
    (hin : ∀ c ∈ text, set.holds c.toNat = true) (hout : ∀ c ∈ rest.head?, set.holds c.toNat = false) {p : Place}
    (hafter : p.after = text ++ rest) (hk : (k (p.past text rest)).isSome) :
    (several set).run p k = k (p.past text rest) :=
  Matcher.atLeastOnce_one hne hin hout hafter (by rw [hafter, List.length_append]; omega) hk

/-- A way through a repeated class passes over at least one character, and only over those of the class. -/
theorem Node.Passes.several {set : CharClass} {p q : Place} (h : (several set).Passes p q) :
    ∃ text, text ≠ [] ∧ p.after = text ++ q.after ∧ ∀ c ∈ text, set.holds c.toNat = true := by
  obtain ⟨n, hn, -, hrounds⟩ := h
  cases n with
  | zero => cases hn
  | succ n =>
    obtain ⟨m, ⟨c, rest, hafter, hholds, rfl⟩, hrest⟩ := hrounds
    have hwithin : (Node.times n none true (.one set)).Within (fun c => set.holds c.toNat = true) fun _ => True :=
      fun c hc => hc
    have hway : (Node.times n none true (.one set)).Passes (p.next c rest) q :=
      ⟨n, Nat.le_refl n, by simp, hrest⟩
    obtain ⟨⟨text, htext, hchars⟩, -⟩ := hway.reaches hwithin
    refine ⟨c :: text, List.cons_ne_nil _ _, ?_, by simpa using ⟨hholds, hchars⟩⟩
    rw [hafter, List.cons_append, ← htext]
    rfl

/-! ## Where a search finds its match -/

/-- A pattern that asks for the start of the text is found there or nowhere. -/
theorem Node.searchFrom_textStart {node : Node} {index : Nat} {rest : List Char} :
    (Node.seq (.edge .textStart) node).searchFrom index none rest =
      (Node.seq (.edge .textStart) node).run ⟨index, none, rest, []⟩ some := by
  have hlater : ∀ (rest : List Char) (index : Nat) (c : Char),
      (Node.seq (.edge .textStart) node).searchFrom index (some c) rest = none := by
    intro rest
    induction rest with
    | nil => exact fun index c => rfl
    | cons d rest ih => exact fun index c => ih (index + 1) d
  cases rest with
  | nil => rfl
  | cons c rest =>
    rw [searchFrom, hlater]
    cases (Node.seq (.edge .textStart) node).run ⟨index, none, c :: rest, []⟩ some <;> rfl

/-- A group is captured where it was marked last. -/
theorem Found.capture?_of_groups {found : Found} {name : String} {index start finish : Nat}
    {later earlier : List (Nat × Nat × Nat)} (hindex : found.pattern.groupIndex? name = some index)
    (hgroups : found.groups = later ++ (index, start, finish) :: earlier) (hlater : ∀ g ∈ later, g.1 ≠ index) :
    found.capture? name = some ⟨String.ofList ((found.key.take finish).drop start), finish⟩ := by
  have hnone : later.find? (fun g => g.1 == index) = none :=
    List.find?_eq_none.2 fun g hg => by simpa using hlater g hg
  simp [Found.capture?, hindex, hgroups, List.find?_append, hnone]

end Intake
