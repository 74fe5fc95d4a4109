import Intake.Pattern.Basic
/-!
# Match — finding a pattern in a text

A matcher takes a place in the text and what has to follow, and gives the first answer among the ways to go on, in order
of preference.  A repetition without a bound goes round again only from a later place than it started from, so the
number of rounds is bounded by the characters that are left.
-/
namespace Intake

/-- A place in a text: the number of characters before it, the last of them, the characters after it, and the groups
matched on the way, the latest first. -/
structure Place where
  index : Nat
  before : Option Char
  after : List Char
  groups : List (Nat × Nat × Nat)

def Place.next (p : Place) (c : Char) (rest : List Char) : Place :=
  { p with index := p.index + 1, before := some c, after := rest }

def Edge.holds (e : Edge) (p : Place) : Bool :=
  let wordBefore := (p.before.map isWordChar).getD false
  let wordAfter := (p.after.head?.map isWordChar).getD false
  match e with
  | .textStart => p.before.isNone
  | .textEnd => p.after.isEmpty
  | .lineStart => p.before.isNone || p.before == some '\n'
  | .lineEnd => p.after.isEmpty || p.after.head? == some '\n'
  | .word => wordBefore != wordAfter
  | .notWord => wordBefore == wordAfter

/-- A matcher: from a place and what has to follow, the first answer. -/
abbrev Matcher (α : Type) := Place → (Place → Option α) → Option α

namespace Matcher

variable {α : Type}

/-- The first answer of two ways to go on; the eager way is the first one. -/
def prefer (eager : Bool) (more enough : Unit → Option α) : Option α :=
  if eager then (more ()).or (enough ()) else (enough ()).or (more ())

def exactly (body : Matcher α) : Nat → Matcher α
  | 0, p, k => k p
  | n + 1, p, k => body p fun q => exactly body n q k

def atMost (eager : Bool) (body : Matcher α) : Nat → Matcher α
  | 0, p, k => k p
  | n + 1, p, k => prefer eager (fun _ => body p fun q => atMost eager body n q k) fun _ => k p

/-- At least once; goes round again only from a later place. -/
def atLeastOnce (eager : Bool) (body : Matcher α) : (rounds : Nat) → Matcher α
  | 0, p, k => body p k
  | rounds + 1, p, k =>
    body p fun q =>
      -- a round that took no character is the last one
      if q.index = p.index then k q
      else prefer eager (fun _ => atLeastOnce eager body rounds q k) fun _ => k q

end Matcher

/-- **The matcher of a pattern.** -/
def Node.run {α : Type} : Node → Matcher α
  | .empty, p, k => k p
  | .one set, p, k =>
    match p.after with
    | [] => none
    | c :: rest => if set.holds c.toNat then k (p.next c rest) else none
  | .edge e, p, k => if e.holds p then k p else none
  | .seq a b, p, k => a.run p fun q => b.run q k
  | .either a b, p, k => (a.run p k).or (b.run p k)
  | .group i body, p, k => body.run p fun q => k { q with groups := (i, p.index, q.index) :: q.groups }
  | .times least (some most) eager body, p, k =>
    Matcher.exactly body.run least p fun q => Matcher.atMost eager body.run (most - least) q k
  | .times 0 none eager body, p, k =>
    Matcher.prefer eager (fun _ => Matcher.atLeastOnce eager body.run p.after.length p k) fun _ => k p
  | .times (least + 1) none eager body, p, k =>
    Matcher.exactly body.run least p fun q => Matcher.atLeastOnce eager body.run q.after.length q k

/-- The first match that starts at or after a place; `rest` is what stands after it. -/
def Node.searchFrom (node : Node) : (index : Nat) → (before : Option Char) → (rest : List Char) → Option Place
  | index, before, [] => node.run ⟨index, before, [], []⟩ some
  | index, before, c :: rest =>
    match node.run ⟨index, before, c :: rest, []⟩ some with
    | some place => some place
    | none => node.searchFrom (index + 1) (some c) rest

/-- A part of a text: what it is, and where it ends. -/
structure Capture where
  text : String
  finish : Nat

structure Found where
  key : List Char
  pattern : Pattern
  groups : List (Nat × Nat × Nat)

def Pattern.find? (pattern : Pattern) (text : String) : Option Found :=
  (pattern.node.searchFrom 0 none text.toList).map fun place => ⟨text.toList, pattern, place.groups⟩

/-- The group of a name, if the match passed through it. -/
def Found.capture? (found : Found) (name : String) : Option Capture := do
  let index ← found.pattern.groupIndex? name
  let (_, start, finish) ← found.groups.find? fun g => g.1 == index
  return ⟨String.ofList ((found.key.take finish).drop start), finish⟩

end Intake
