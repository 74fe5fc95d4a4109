/-!
# Range — classes of characters as ranges of code points

A class is a list of closed ranges in increasing order.  `inRanges` stops at the first range that starts above the code
point, so a character near the start of the list is found, or missed, after a few steps.
-/
namespace Intake

/-- Closed ranges of code points, in increasing order and apart from each other. -/
abbrev CodeRanges := List (Nat × Nat)

def inRanges (n : Nat) : CodeRanges → Bool
  | [] => false
  | (lo, hi) :: rest => if n < lo then false else if n ≤ hi then true else inRanges n rest

end Intake
