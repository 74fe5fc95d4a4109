import Intake.Text.Blank
import Intake.Text.Fold
import Intake.Text.Word
/-!
# Pattern — expressions over texts with named groups

A pattern describes texts by classes of characters, sequence, choice and repetition, and marks parts of a match as
groups.  Of several matches the one that starts first is meant; of those that start there, the one a reader finds who
tries the choices from left to right, and as many repetitions as it can (or as few, for a reluctant repetition) first.
-/
namespace Intake

inductive CharClass where
  | range (low high : Nat)
  | digit
  | space
  | word
  | union (a b : CharClass)
  | inter (a b : CharClass)
  | minus (a b : CharClass)
  | delta (a b : CharClass)
  | not (a : CharClass)
  /-- The characters that differ in case only from one of the class. -/
  | anyCase (a : CharClass)
  | none
  deriving DecidableEq

def CharClass.holds : CharClass → Nat → Bool
  | .range low high, n => low ≤ n && n ≤ high
  | .digit, n => inRanges n digitRanges
  | .space, n => isBlank (Char.ofNat n)
  | .word, n => inRanges n wordRanges
  | .union a b, n => a.holds n || b.holds n
  | .inter a b, n => a.holds n && b.holds n
  | .minus a b, n => a.holds n && !b.holds n
  | .delta a b, n => a.holds n != b.holds n
  | .not a, n => !a.holds n
  | .anyCase a, n => a.holds n || (caseVariants n).any a.holds
  | .none, _ => false

/-- A place between two characters that a pattern can ask for. -/
inductive Edge where
  | textStart
  | textEnd
  | lineStart
  | lineEnd
  | word
  | notWord
  deriving DecidableEq

inductive Node where
  | empty
  | one (set : CharClass)
  | edge (at_ : Edge)
  | seq (first second : Node)
  | either (first second : Node)
  | group (index : Nat) (body : Node)
  /-- `body` at least `least` times and at most `most` times; `eager` repetition tries one more time first. -/
  | times (least : Nat) (most : Option Nat) (eager : Bool) (body : Node)
  deriving DecidableEq

/-- A pattern with the names of its groups: the group of index `i` is the `i`-th from 1 on. -/
structure Pattern where
  source : String
  node : Node
  names : List (Option String)
  deriving DecidableEq

def Pattern.groupIndex? (pattern : Pattern) (name : String) : Option Nat :=
  (pattern.names.findIdx? (· == some name)).map (· + 1)

end Intake
