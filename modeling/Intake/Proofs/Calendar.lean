import Intake.Timestamp.Reader
/-!
# Calendar — a day of the calendar is one day, and a reading of the clock one instant

An era of 400 years has 146097 days.  It falls into centuries, these into groups of four years, and these into years, of
which only the last may have a leap day.  So the day of an era has one year and one place in it, which is what the
calendar computes, and the number of a day comes back from its date (`dayNumber_calendarDay`).
-/
namespace Intake
namespace Timestamp

/-- **Where a day of an era lies**: in a century, a group of four years, a year of the group, and on a day of that year.
Only the last year of a group has a day more than 365, and not the last of a century unless it is the last of the era. -/
structure EraDay (day century group year dayOfYear : Nat) : Prop where
  century_le : century ≤ 3
  group_le : group ≤ 24
  year_le : year ≤ 3
  dayOfYear_le : dayOfYear ≤ 365
  eq : day = 36524 * century + 1461 * group + 365 * year + dayOfYear
  leap : dayOfYear = 365 → year = 3 ∧ (group = 24 → century = 3)

theorem exists_eraDay {day : Nat} (h : day < 146097) :
    ∃ century group year dayOfYear, EraDay day century group year dayOfYear := by
  -- the last day of the era is the only one past four full centuries, and the last of a group past four full years
  let century := min (day / 36524) 3
  let rest := day - 36524 * century
  let year := min (rest % 1461 / 365) 3
  refine ⟨century, rest / 1461, year, rest % 1461 - 365 * year, ?_, ?_, ?_, ?_, ?_, ?_⟩ <;> omega

namespace EraDay

variable {day century group year dayOfYear : Nat}

/-- The full centuries of an era, the last day of which does not begin another one. -/
theorem century_eq (h : EraDay day century group year dayOfYear) : day / 36524 = century + day / 146096 := by
  obtain ⟨hc, hg, hy, hd, rfl, hleap⟩ := h
  by_cases hlast : 36524 * century + 1461 * group + 365 * year + dayOfYear = 146096
  · omega
  · rw [Nat.div_eq_of_lt (b := 146096) (by omega)]
    omega

/-- Stretches of 1460 days are a day short of four years, and so run ahead of the groups, but by one at most: always on a
leap day, and never on the first day of a year. -/
theorem group_eq (h : EraDay day century group year dayOfYear) :
    day / 1460 = 25 * century + group ∧ dayOfYear < 365 ∨ day / 1460 = 25 * century + group + 1 ∧ 0 < dayOfYear := by
  obtain ⟨hc, hg, hy, hd, rfl, hleap⟩ := h
  by_cases hlate : 1460 ≤ 24 * century + group + 365 * year + dayOfYear
  · right
    omega
  · left
    omega

/-- What is taken from the days of an era are its leap days up to then: what is left are years of 365 days. -/
theorem yearOfEra_eq (h : EraDay day century group year dayOfYear) :
    (day - day / 1460 + day / 36524 - day / 146096) / 365 = 100 * century + 4 * group + year := by
  have hcentury := h.century_eq
  have hgroup := h.group_eq
  have hday := h.eq
  have hle := h.dayOfYear_le
  generalize day / 1460 = a at *
  generalize day / 36524 = b at *
  generalize day / 146096 = c at *
  omega

theorem dayOfYear_eq (h : EraDay day century group year dayOfYear) {yearOfEra : Nat}
    (hyear : yearOfEra = 100 * century + 4 * group + year) :
    day = 365 * yearOfEra + yearOfEra / 4 - yearOfEra / 100 + dayOfYear := by
  obtain ⟨hc, hg, hy, hd, rfl, hleap⟩ := h
  omega

end EraDay

/-- The date of a day of a year of an era, counted from the first of March. -/
def eraDate (era : Int) (yearOfEra dayOfYear : Nat) : CalendarDay :=
  let fromMarch := (5 * dayOfYear + 2) / 153
  let month := if fromMarch < 10 then fromMarch + 3 else fromMarch - 9
  { year := era * 400 + yearOfEra + (if month ≤ 2 then 1 else 0)
    month := month
    day := dayOfYear - (153 * fromMarch + 2) / 5 + 1 }

/-- **The calendar finds the era, the year and the day of the year.** -/
theorem exists_eraDate (days : Int) : ∃ (era : Int) (yearOfEra dayOfYear : Nat), yearOfEra < 400 ∧ dayOfYear ≤ 365 ∧
    days = era * 146097 + (yearOfEra * 365 + yearOfEra / 4 - yearOfEra / 100 + dayOfYear : Nat) - 719468 ∧
    calendarDay days = eraDate era yearOfEra dayOfYear := by
  have hmod : (days + 719468).fmod 146097 = (days + 719468) % 146097 := Int.fmod_eq_emod_of_nonneg _ (by decide)
  have hdiv : (days + 719468).fdiv 146097 = (days + 719468) / 146097 := Int.fdiv_eq_ediv_of_nonneg _ (by decide)
  generalize hday : ((days + 719468).fmod 146097).toNat = day
  have hlt : day < 146097 := by omega
  obtain ⟨century, group, year, dayOfYear, h⟩ := exists_eraDay hlt
  have hyear := h.yearOfEra_eq
  have hsum := h.dayOfYear_eq rfl
  have hof : day - (365 * (100 * century + 4 * group + year) + (100 * century + 4 * group + year) / 4 -
      (100 * century + 4 * group + year) / 100) = dayOfYear := by omega
  refine ⟨(days + 719468).fdiv 146097, 100 * century + 4 * group + year, dayOfYear, ?_, h.dayOfYear_le, ?_, ?_⟩
  · have := h.century_le
    have := h.group_le
    have := h.year_le
    omega
  · omega
  · simp only [calendarDay, eraDate, hday, hyear, hof]

variable {era : Int} {yearOfEra dayOfYear : Nat}

theorem eraDate_lt (hday : dayOfYear ≤ 365) :
    (eraDate era yearOfEra dayOfYear).month < 100 ∧ (eraDate era yearOfEra dayOfYear).day < 100 := by
  simp only [eraDate]
  constructor
  · split <;> omega
  · omega

theorem dayNumber_eraDate (hyear : yearOfEra < 400) (hday : dayOfYear ≤ 365) :
    dayNumber (eraDate era yearOfEra dayOfYear) =
      era * 146097 + (yearOfEra * 365 + yearOfEra / 4 - yearOfEra / 100 + dayOfYear : Nat) - 719468 := by
  generalize hmarch : (5 * dayOfYear + 2) / 153 = fromMarch
  generalize hmonth : (if fromMarch < 10 then fromMarch + 3 else fromMarch - 9) = month
  have hyears : (if month ≤ 2 then era * 400 + yearOfEra + (if month ≤ 2 then 1 else 0) - 1
      else era * 400 + yearOfEra + (if month ≤ 2 then 1 else 0)) = era * 400 + yearOfEra := by
    split <;> omega
  have hback : (if month > 2 then month - 3 else month + 9) = fromMarch := by
    split at hmonth <;> split <;> omega
  have hera : (era * 400 + yearOfEra : Int).fdiv 400 = era := by
    rw [Int.fdiv_eq_ediv_of_nonneg _ (by decide)]
    omega
  have hof : ((era * 400 + yearOfEra : Int).fmod 400).toNat = yearOfEra := by
    rw [Int.fmod_eq_emod_of_nonneg _ (by decide)]
    omega
  have hdays : (153 * fromMarch + 2) / 5 + (dayOfYear - (153 * fromMarch + 2) / 5 + 1) - 1 = dayOfYear := by omega
  simp only [dayNumber, eraDate, hmarch, hmonth, hyears, hback, hera, hof, hdays]

/-- **The number of a day comes back from its date.** -/
theorem dayNumber_calendarDay (days : Int) : dayNumber (calendarDay days) = days := by
  obtain ⟨era, yearOfEra, dayOfYear, hyear, hday, hdays, hdate⟩ := exists_eraDate days
  rw [hdate, dayNumber_eraDate hyear hday, ← hdays]

theorem calendarDay_lt (days : Int) : (calendarDay days).month < 100 ∧ (calendarDay days).day < 100 := by
  obtain ⟨era, yearOfEra, dayOfYear, -, hday, -, hdate⟩ := exists_eraDate days
  rw [hdate]
  exact eraDate_lt hday

/-! ## The clock -/

variable {t t' : Timestamp}

theorem unixNanos_div (t : Timestamp) : t.unixNanos / 1000000000 = if t.leap then 1 else 0 := by
  have hmod : t.nanos.fmod 1000000000 = t.nanos % 1000000000 := Int.fmod_eq_emod_of_nonneg _ (by decide)
  unfold unixNanos
  split <;> omega

theorem unixNanos_mod (t : Timestamp) : ((t.unixNanos % 1000000000 : Nat) : Int) = t.nanos % 1000000000 := by
  have hmod : t.nanos.fmod 1000000000 = t.nanos % 1000000000 := Int.fmod_eq_emod_of_nonneg _ (by decide)
  unfold unixNanos
  split <;> omega

theorem secondOfDay_eq (t : Timestamp) : (t.secondOfDay : Int) = t.unixSeconds % 86400 := by
  have hmod : t.unixSeconds.fmod 86400 = t.unixSeconds % 86400 := Int.fmod_eq_emod_of_nonneg _ (by decide)
  unfold secondOfDay
  omega

/-- A leap second is shown as part of the last second of a minute. -/
theorem secondOfDay_of_leap (h : t.leap = true) : t.secondOfDay % 60 = 59 := by
  have hday := t.secondOfDay_eq
  have hends := t.ends_minute h
  rw [unixSeconds, if_pos h] at hday
  omega

/-- The second that a clock shows is the sixty-first of its minute in a leap second, and only then. -/
theorem second_eq_sixty_iff (t : Timestamp) :
    t.secondOfDay % 60 + t.unixNanos / 1000000000 = 60 ↔ t.leap = true := by
  rw [unixNanos_div]
  constructor
  · intro h
    split at h
    · assumption
    · exact absurd h (Nat.ne_of_lt (Nat.mod_lt _ (by decide)))
  · intro h
    rw [secondOfDay_of_leap h, if_pos h]

/-- An instant is determined by the seconds and the nanoseconds from the start of 1970. -/
theorem eq_of_unix (hleap : t.leap = t'.leap) (hseconds : t.unixSeconds = t'.unixSeconds)
    (hnanos : t.unixNanos % 1000000000 = t'.unixNanos % 1000000000) : t = t' := by
  have hmod : t.nanos % 1000000000 = t'.nanos % 1000000000 := by
    rw [← unixNanos_mod, ← unixNanos_mod, hnanos]
  have hdiv : t.nanos / 1000000000 = t'.nanos / 1000000000 := by
    rw [unixSeconds, unixSeconds, hleap, Int.fdiv_eq_ediv_of_nonneg _ (by decide),
      Int.fdiv_eq_ediv_of_nonneg _ (by decide)] at hseconds
    exact (Int.sub_left_inj _).1 hseconds
  have heq : t.nanos = t'.nanos := by
    rw [← Int.mul_ediv_add_emod t.nanos 1000000000, hdiv, hmod, Int.mul_ediv_add_emod]
  cases t
  cases t'
  cases heq
  cases hleap
  rfl

/-- **What a clock shows determines the instant.** -/
theorem eq_of_clock (hdate : calendarDay (t.unixSeconds.fdiv 86400) = calendarDay (t'.unixSeconds.fdiv 86400))
    (hhour : t.secondOfDay / 3600 = t'.secondOfDay / 3600)
    (hminute : t.secondOfDay / 60 % 60 = t'.secondOfDay / 60 % 60)
    (hsecond : t.secondOfDay % 60 + t.unixNanos / 1000000000 = t'.secondOfDay % 60 + t'.unixNanos / 1000000000)
    (hnanos : t.unixNanos % 1000000000 = t'.unixNanos % 1000000000) : t = t' := by
  have hleap : t.leap = t'.leap := by
    rw [Bool.eq_iff_iff, ← second_eq_sixty_iff, ← second_eq_sixty_iff, hsecond]
  have htime : t.secondOfDay = t'.secondOfDay := by
    rw [unixNanos_div, unixNanos_div, hleap] at hsecond
    omega
  have hday := congrArg dayNumber hdate
  rw [dayNumber_calendarDay, dayNumber_calendarDay, Int.fdiv_eq_ediv_of_nonneg _ (by decide),
    Int.fdiv_eq_ediv_of_nonneg _ (by decide)] at hday
  have hrest : t.unixSeconds % 86400 = t'.unixSeconds % 86400 := by
    rw [← secondOfDay_eq, ← secondOfDay_eq, htime]
  refine eq_of_unix hleap ?_ hnanos
  rw [← Int.mul_ediv_add_emod t.unixSeconds 86400, hday, hrest, Int.mul_ediv_add_emod]

end Timestamp
end Intake
