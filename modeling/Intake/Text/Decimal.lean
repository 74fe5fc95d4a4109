/-!
# Decimal — whole numbers as text

Writing pads with zeros on the left.  Reading is strict about the characters and about the range: `readUpTo` takes an
optional plus sign and then decimal digits only, and names the first thing that is wrong reading from the left, so a
number that has grown too large is reported even when a later character is no digit.
-/
namespace Intake

def decimal (n : Nat) : String := toString n

def paddedDecimal (width n : Nat) : String :=
  let digits := (decimal n).toList
  String.ofList (List.replicate (width - digits.length) '0' ++ digits)

def paddedHex (width n : Nat) : String :=
  let digits := Nat.toDigits 16 n
  String.ofList (List.replicate (width - digits.length) '0' ++ digits)

def digitValue? (c : Char) : Option Nat :=
  if '0' ≤ c ∧ c ≤ '9' then some (c.toNat - '0'.toNat) else none

/-- Why a text is not a whole number of the range asked for. -/
inductive NumberFault where
  | empty
  | invalidDigit
  | tooLarge
  deriving DecidableEq, Repr

def NumberFault.message : NumberFault → String
  | .empty => "cannot parse integer from empty string"
  | .invalidDigit => "invalid digit found in string"
  | .tooLarge => "number too large to fit in target type"

/-- Reads digits onto the value read so far, never past `max`. -/
def readDigits (max : Nat) : Nat → List Char → Except NumberFault Nat
  | value, [] => .ok value
  | value, c :: rest =>
    match digitValue? c with
    | none => .error .invalidDigit
    | some d => if value * 10 + d ≤ max then readDigits max (value * 10 + d) rest else .error .tooLarge

/-- Reads a whole number of at most `max`: one plus sign may come first, then at least one digit. -/
def readUpTo (max : Nat) (s : String) : Except NumberFault Nat :=
  match s.toList with
  | [] => .error .empty
  | ['+'] => .error .invalidDigit
  | '+' :: rest => readDigits max 0 rest
  | digits => readDigits max 0 digits

def maxWord64 : Nat := Nat.pow 2 64 - 1

def readWord64 (s : String) : Except NumberFault Nat := readUpTo maxWord64 s

def readSigned64? (s : String) : Option Int :=
  match s.toList with
  | '-' :: rest =>
    match rest with
    | [] => none
    | _ => (readDigits (Nat.pow 2 63) 0 rest).toOption.map fun n => -(n : Int)
  | _ => (readUpTo (Nat.pow 2 63 - 1) s).toOption.map Int.ofNat

end Intake
