import Intake.Duration
import Intake.Text.Decimal
/-!
# Timestamp — instants and their calendar text

An instant is a number of nanoseconds from the start of 1970, before or after it.  Leap seconds are not counted: the
sixty-first second of a minute has the numbers of the second after it, and a mark.  The calendar date of an instant is
that of the Gregorian calendar in both directions; eras of 400 years start in March, so that the leap day is the last of
its year.
-/
namespace Intake

/-- An instant (UTC), in nanoseconds from the start of 1970. -/
structure Timestamp where
  nanos : Int
  leap : Bool := false
  /-- A leap second is the last of its minute. -/
  ends_minute : leap = true → nanos.fdiv 1000000000 % 60 = 0 := by simp
  deriving DecidableEq, Repr

structure CalendarDay where
  year : Int
  month : Nat
  day : Nat
  deriving DecidableEq, Repr

namespace Timestamp

def ofNanos (nanos : Int) : Timestamp := { nanos := nanos }

/-- The instant a number of seconds and nanoseconds after the start of 1970.  With more nanoseconds than a second has, it
lies in the leap second after the last second of a minute. -/
def ofUnix (seconds : Int) (nanos : Nat) : Timestamp :=
  if h : seconds % 60 = 59 ∧ nanos / 1000000000 = 1 then
    { nanos := seconds * 1000000000 + nanos
      leap := true
      ends_minute := fun _ => by rw [Int.fdiv_eq_ediv_of_nonneg _ (by decide)]; omega }
  else ofNanos (seconds * 1000000000 + nanos)

/-- The full seconds from the start of 1970, where a leap second belongs to the second before it. -/
def unixSeconds (t : Timestamp) : Int := t.nanos.fdiv 1000000000 - (if t.leap then 1 else 0)

/-- The nanoseconds after the full seconds: more than a second has, in a leap second. -/
def unixNanos (t : Timestamp) : Nat := (t.nanos.fmod 1000000000).toNat + (if t.leap then 1000000000 else 0)

def secondOfDay (t : Timestamp) : Nat := (t.unixSeconds.fmod 86400).toNat

/-- The instant a span later, or earlier if it is negative.  A leap second takes time only for those who start in it. -/
def shift (t : Timestamp) (span : Int) : Timestamp :=
  if hleap : t.leap = true then
    if h : (t.nanos + span).fdiv 1000000000 = t.nanos.fdiv 1000000000 then
      { nanos := t.nanos + span, leap := true, ends_minute := fun _ => h ▸ t.ends_minute hleap }
    else if 0 < span then ofNanos (t.nanos + span - 1000000000)
    else ofNanos (t.nanos + span)
  else ofNanos (t.nanos + span)

def later (t : Timestamp) (d : Duration) : Timestamp := t.shift d

/-- The span from one instant to a later one; 0 if it is not later.  If the one with the earlier time of day lies in a leap
second, that second counts, whatever their days are. -/
def since (t start : Timestamp) : Duration :=
  let passed : Int :=
    if start.leap ∧ start.secondOfDay < t.secondOfDay then 1000000000
    else if t.leap ∧ t.secondOfDay < start.secondOfDay then -1000000000
    else 0
  (t.nanos - start.nanos + passed).toNat

/-- The calendar day that is a number of days after the first of 1970. -/
def calendarDay (days : Int) : CalendarDay :=
  -- from here on days are counted from the first of March of the year 0
  let shifted := days + 719468
  let era := shifted.fdiv 146097
  let dayOfEra := (shifted.fmod 146097).toNat
  -- without the leap days before it, every year of the era has 365 days
  let yearOfEra := (dayOfEra - dayOfEra / 1460 + dayOfEra / 36524 - dayOfEra / 146096) / 365
  let dayOfYear := dayOfEra - (365 * yearOfEra + yearOfEra / 4 - yearOfEra / 100)
  -- five months from March on have 153 days, and so have the five months after them
  let fromMarch := (5 * dayOfYear + 2) / 153
  let month := if fromMarch < 10 then fromMarch + 3 else fromMarch - 9
  { year := era * 400 + yearOfEra + (if month ≤ 2 then 1 else 0)
    month := month
    day := dayOfYear - (153 * fromMarch + 2) / 5 + 1 }

/-- The text of a year: four digits, with a sign for years outside of 0 to 9999. -/
def yearText (year : Int) : String :=
  if year < 0 then "-" ++ paddedDecimal 4 year.natAbs
  else if year > 9999 then "+" ++ paddedDecimal 4 year.natAbs
  else paddedDecimal 4 year.natAbs

/-- **The text of an instant to the nanosecond**, as in `20240102T030405.000000000Z`. -/
def compactText (t : Timestamp) : String :=
  let date := calendarDay (t.unixSeconds.fdiv 86400)
  let time := t.secondOfDay
  yearText date.year ++ paddedDecimal 2 date.month ++ paddedDecimal 2 date.day ++ "T" ++
    paddedDecimal 2 (time / 3600) ++ paddedDecimal 2 (time / 60 % 60) ++
    paddedDecimal 2 (time % 60 + t.unixNanos / 1000000000) ++ "." ++ paddedDecimal 9 (t.unixNanos % 1000000000) ++ "Z"

end Timestamp
end Intake
