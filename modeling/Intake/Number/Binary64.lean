/-!
# Binary64 — finite numbers of 53 bits

A number is a sign, a mantissa below 2^53 and a power of two from -1074 to 971.  Every operation computes the exact
quotient of whole numbers first and rounds once, to the nearest mantissa and on a tie to the even one (`round?`), so
products and quotients are those of the binary format.  `scale?` is the value of a decimal text as its reader takes it:
the digits rounded to a mantissa first, then one product or quotient with a rounded power of ten, and a second one for
each further 308 places below the point.
-/
namespace Intake

/-- A finite number of the binary format: `mantissa * 2 ^ exponent`, with a sign of its own. -/
structure Binary64 where
  negative : Bool
  mantissa : Nat
  exponent : Int
  deriving DecidableEq, Repr

namespace Binary64

/-- The quotient `num / den` divided by `2 ^ e`, as a numerator and a denominator. -/
def shifted (num den : Nat) (e : Int) : Nat × Nat :=
  if 0 ≤ e then (num, den * Nat.pow 2 e.toNat) else (num * Nat.pow 2 (-e).toNat, den)

/-- The whole number nearest to `num / den`; of two equally near ones the even one. -/
def roundHalfEven (num den : Nat) : Nat :=
  let q := num / den
  let twice := 2 * (num % den)
  if den < twice ∨ (twice = den ∧ q % 2 = 1) then q + 1 else q

/-- The power of two that gives `num / den` a mantissa of 53 bits, or the least one there is. -/
def exponentFor (num den : Nat) : Int :=
  -- the quotient lies between `2 ^ (d - 1)` and `2 ^ (d + 1)`
  let d : Int := (num.log2 : Int) - den.log2
  let (n, m) := shifted num den d
  max (if m ≤ n then d - 52 else d - 53) (-1074)

/-- **The number nearest to `num / den`**, or nothing when that is beyond the largest one. -/
def round? (num den : Nat) : Option (Nat × Int) :=
  if num = 0 then some (0, -1074)
  else
    let e := exponentFor num den
    let (n, m) := shifted num den e
    let q := roundHalfEven n m
    -- rounding up may take the mantissa to its limit
    let (q, e) := if q = Nat.pow 2 53 then (Nat.pow 2 52, e + 1) else (q, e)
    if 971 < e then none else some (q, e)

/-- A mantissa and a power of two as a quotient of whole numbers. -/
def ratio (m : Nat) (e : Int) : Nat × Nat :=
  if 0 ≤ e then (m * Nat.pow 2 e.toNat, 1) else (m, Nat.pow 2 (-e).toNat)

/-- The number nearest to `10 ^ k`, for `k` up to 308. -/
def powerOfTen (k : Nat) : Nat × Int :=
  (round? (Nat.pow 10 k) 1).getD (0, -1074)

def mul? (a b : Nat × Int) : Option (Nat × Int) :=
  let (n, d) := ratio (a.1 * b.1) (a.2 + b.2)
  round? n d

/-- The quotient of two magnitudes, the second one not zero. -/
def div (a b : Nat × Int) : Nat × Int :=
  let (n, d) := ratio a.1 a.2
  let (n', d') := ratio b.1 b.2
  (round? (n * d') (d * n')).getD (0, -1074)

/-- `scale?` for a magnitude, in at most `rounds` products or quotients. -/
def scaleFrom? : (rounds : Nat) → Nat × Int → Int → Option (Nat × Int)
  | 0, _, _ => some (0, -1074)
  | rounds + 1, f, e =>
    if e.natAbs ≤ 308 then
      if 0 ≤ e then mul? f (powerOfTen e.toNat) else some (div f (powerOfTen (-e).toNat))
    else if f.1 = 0 then some f
    else if 0 ≤ e then none
    else scaleFrom? rounds (div f (powerOfTen 308)) (e + 308)

/-- The value read from the digits `significand` and the power of ten `e`, or nothing when it is too large. -/
def scale? (negative : Bool) (significand : Nat) (e : Int) : Option Binary64 := do
  let f ← round? significand 1
  let (m, x) ← scaleFrom? 8 f e
  return ⟨negative, m, x⟩

/-! ## The shortest decimal that reads back -/

/-- The largest power of ten that is at most `num / den`, looked for upward from `k`. -/
def decimalExponentFrom (num den : Nat) : (steps : Nat) → Int → Int
  | 0, k => k
  | steps + 1, k =>
    let (n, m) := if 0 ≤ k + 1 then (num, den * Nat.pow 10 (k + 1).toNat) else (num * Nat.pow 10 (-(k + 1)).toNat, den)
    if m ≤ n then decimalExponentFrom num den steps (k + 1) else k

def decimalExponent (num den : Nat) : Int :=
  -- a guess from the powers of two, too small if anything
  let d : Int := (num.log2 : Int) - den.log2
  decimalExponentFrom num den 4 (Int.fdiv ((d - 1) * 30103) 100000 - 1)

/-- Whether the decimal `digits * 10 ^ k` lies among the reals that round to `m * 2 ^ e`. -/
def readsBack (m : Nat) (e : Int) (digits : Nat) (k : Int) : Bool :=
  -- in quarters of the last place: below a power of two the next number is half as far away
  let low := if m = Nat.pow 2 52 ∧ -1074 < e then 4 * m - 1 else 4 * m - 2
  let high := 4 * m + 2
  let (n, d) := if 0 ≤ k then (digits * Nat.pow 10 k.toNat, 1) else (digits, Nat.pow 10 (-k).toNat)
  let (ln, ld) := ratio low (e - 2)
  let (hn, hd) := ratio high (e - 2)
  if m % 2 = 0 then ln * d ≤ n * ld && n * hd ≤ hn * d else ln * d < n * ld && n * hd < hn * d

/-- The decimal of `places` digits nearest to `m * 2 ^ e` that reads back, if any does. -/
def decimalOf? (m : Nat) (e : Int) (places : Nat) : Option (Nat × Int) :=
  let (num, den) := ratio m e
  let k := decimalExponent num den - (places - 1 : Nat)
  let (n, d) := if 0 ≤ k then (num, den * Nat.pow 10 k.toNat) else (num * Nat.pow 10 (-k).toNat, den)
  let down := n / d
  let nearer := if d < 2 * (n % d) then down + 1 else down
  let farther := if d < 2 * (n % d) then down else down + 1
  if readsBack m e nearer k then some (nearer, k)
  else if readsBack m e farther k then some (farther, k)
  else none

/-- The fewest digits that read back, and their power of ten: `digits * 10 ^ exponent`. -/
def shortest (m : Nat) (e : Int) : Nat × Int :=
  ((List.range 17).findSome? fun i => decimalOf? m e (i + 1)).getD (ratio m e |>.1, 0)

def dropZeros : (places : Nat) → Nat × Int → Nat × Int
  | 0, x => x
  | places + 1, (digits, k) =>
    if digits ≠ 0 ∧ digits % 10 = 0 then dropZeros places (digits / 10, k + 1) else (digits, k)

/-- **The text of a number**: the fewest digits that read back, positional for a first digit from 10^-5 to 10^15, with
an exponent otherwise, and always with a point or an exponent. -/
def text (x : Binary64) : String :=
  let sign := if x.negative then "-" else ""
  if x.mantissa = 0 then sign ++ "0.0"
  else
    let (n, k) := dropZeros 17 (shortest x.mantissa x.exponent)
    let digits := (toString n).toList
    let lead : Int := k + digits.length - 1
    sign ++
      if 0 ≤ k ∧ lead ≤ 15 then
        String.ofList (digits ++ List.replicate k.toNat '0') ++ ".0"
      else if 0 ≤ lead ∧ lead ≤ 15 then
        String.ofList (digits.take (lead.toNat + 1)) ++ "." ++ String.ofList (digits.drop (lead.toNat + 1))
      else if -5 ≤ lead ∧ lead < 0 then
        "0." ++ String.ofList (List.replicate (-lead - 1).toNat '0' ++ digits)
      else
        let mark := if 0 ≤ lead then "e+" ++ toString lead.toNat else "e-" ++ toString (-lead).toNat
        match digits with
        | [d] => String.ofList [d] ++ mark
        | d :: rest => String.ofList (d :: '.' :: rest) ++ mark
        | [] => mark

end Binary64
end Intake
