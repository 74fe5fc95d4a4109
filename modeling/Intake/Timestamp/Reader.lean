import Intake.Text.Blank
import Intake.Timestamp
/-!
# Timestamp.Reader — instants from text

As in `2024-01-02T03:04:05.678Z`: date, time with or without a fraction of a second, and the distance to UTC.  Blanks
may stand between the parts.
-/
namespace Intake
namespace Timestamp

def daysInMonth (year : Int) (month : Nat) : Nat :=
  let leap := year % 4 = 0 ∧ (year % 100 ≠ 0 ∨ year % 400 = 0)
  if month = 2 then if leap then 29 else 28
  else if [4, 6, 9, 11].contains month then 30 else 31

/-- The number of days from the first of 1970 to a calendar day. -/
def dayNumber (d : CalendarDay) : Int :=
  let year := if d.month ≤ 2 then d.year - 1 else d.year
  let era := year.fdiv 400
  let yearOfEra := (year.fmod 400).toNat
  let fromMarch := if d.month > 2 then d.month - 3 else d.month + 9
  let dayOfYear := (153 * fromMarch + 2) / 5 + d.day - 1
  era * 146097 + (yearOfEra * 365 + yearOfEra / 4 - yearOfEra / 100 + dayOfYear : Nat) - 719468

def skipBlanks (s : List Char) : List Char := s.dropWhile isBlank

/-- The digits at the head, at most so many, and the rest. -/
def takeDigits (most : Nat) (s : List Char) : List Nat × List Char :=
  let digits := ((s.take most).map digitValue?).takeWhile Option.isSome
  (digits.filterMap id, s.drop digits.length)

def ofDigits (digits : List Nat) : Nat := digits.foldl (fun n d => n * 10 + d) 0

def readNumber? (most : Nat) (s : List Char) : Option (Nat × List Char) :=
  match takeDigits most (skipBlanks s) with
  | ([], _) => none
  | (digits, rest) => some (ofDigits digits, rest)

def expect? (c : Char) (s : List Char) : Option (List Char) :=
  match s with
  | head :: rest => if head = c then some rest else none
  | [] => none

/-- A year: at most four digits, or a sign and as many as there are. -/
def readYear? (s : List Char) : Option (Int × List Char) :=
  match skipBlanks s with
  | '+' :: rest => (readNumber? rest.length rest).map fun (n, rest) => (n, rest)
  | '-' :: rest => (readNumber? rest.length rest).map fun (n, rest) => (-n, rest)
  | other => (readNumber? 4 other).map fun (n, rest) => (n, rest)

def readDate? (s : List Char) : Option (CalendarDay × List Char) := do
  let (year, s) ← readYear? s
  let (month, s) ← readNumber? 2 (← expect? '-' (skipBlanks s))
  let (day, s) ← readNumber? 2 (← expect? '-' (skipBlanks s))
  if 1 ≤ month ∧ month ≤ 12 ∧ 1 ≤ day ∧ day ≤ daysInMonth year month then return (⟨year, month, day⟩, s)
  else none

/-- The fraction of a second, in nanoseconds; digits beyond the ninth are passed over. -/
def readFraction? (s : List Char) : Option (Nat × List Char) :=
  match s with
  | '.' :: rest =>
    match takeDigits 9 rest with
    | ([], _) => none
    | (digits, rest) =>
      some (ofDigits digits * Nat.pow 10 (9 - digits.length), rest.dropWhile fun c => (digitValue? c).isSome)
  | other => some (0, other)

/-- A time of day, in seconds and nanoseconds.  A leap second is the last second of its minute, with nanoseconds beyond
those of a second. -/
def readTime? (s : List Char) : Option ((Nat × Nat) × List Char) := do
  let (hour, s) ← readNumber? 2 s
  let (minute, s) ← readNumber? 2 (← expect? ':' (skipBlanks s))
  let (second, s) ← readNumber? 2 (← expect? ':' (skipBlanks s))
  let (nanos, s) ← readFraction? s
  if hour ≤ 23 ∧ minute ≤ 59 ∧ second ≤ 60 then
    return (((hour * 60 + minute) * 60 + min second 59, nanos + (if second = 60 then 1000000000 else 0)), skipBlanks s)
  else none

/-- The distance to UTC without its sign, in seconds. -/
def readDistance? (s : List Char) : Option (Nat × List Char) :=
  match takeDigits 2 s with
  | ([a, b], rest) =>
    match takeDigits 2 (rest.dropWhile fun c => c == ':' || isBlank c) with
    | ([c, d], rest) =>
      if c < 6 then some ((ofDigits [a, b] * 60 + ofDigits [c, d]) * 60, rest) else none
    | ([], rest) => some (ofDigits [a, b] * 3600, rest)
    | _ => none
  | _ => none

def readOffset? (s : List Char) : Option (Int × List Char) :=
  match s with
  | 'Z' :: rest | 'z' :: rest => some (0, rest)
  | '+' :: rest => (readDistance? rest).map fun (n, rest) => (n, rest)
  | '-' :: rest => (readDistance? rest).map fun (n, rest) => (-n, rest)
  | a :: b :: c :: rest => if lowerAscii (String.ofList [a, b, c]) = "utc" then some (0, rest) else none
  | _ => none

def read? (text : String) : Option Timestamp := do
  let (day, s) ← readDate? text.toList
  let s ← match s with
    | 'T' :: rest | 't' :: rest | ' ' :: rest => some rest
    | _ => none
  let ((seconds, nanos), s) ← readTime? s
  let (offset, s) ← readOffset? s
  if 86400 ≤ offset.natAbs ∨ ¬ (skipBlanks s).isEmpty then none
  return ofUnix (dayNumber day * 86400 - offset + seconds) nanos

end Timestamp
end Intake
