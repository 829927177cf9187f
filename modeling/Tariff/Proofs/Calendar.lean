import Mathlib.Data.Int.Notation
import Tariff.Instant.Basic

/-!
# The calendar

Days are counted, and dates are how people write them. The date of a day is computed from the
number of the day by a few divisions, and the day from the date by a few products. That these
are inverse to each other is not obvious from either: the year of a day is guessed from the
average length of years and corrected by what the leap days before it add up to.

The days of an era of 400 years fall into centuries, these into cycles of four years, these
into years (`Place`). Years begin in March here, so that a leap day is the last of its year, of
its cycle, and every 400 years of its century and era. **From the place of a day the divisions
can be carried out** (`Place.yearOfEra_eq`), and the two computations are compared on it
(`Date.toDays_ofDays`).
-/

namespace Tariff

namespace Instant

/-- **The place of a day in its era of 400 years**, which begin in March. An era has four
centuries, a century 25 cycles, a cycle four years and a year 365 days; what does not come out even
is a leap day, which is counted at the end of its year as a day with the number 365. So the digits
of a place are those of a number with mixed bases but for the leap days, and `leap` says where they
may stand. -/
structure Place where
  /-- The full centuries before it. -/
  century : ℤ
  /-- The full cycles of four years since. -/
  cycle : ℤ
  /-- The full years since. -/
  year : ℤ
  /-- The days since. -/
  day : ℤ
  century_le : 0 ≤ century ∧ century ≤ 3
  cycle_le : 0 ≤ cycle ∧ cycle ≤ 24
  year_le : 0 ≤ year ∧ year ≤ 3
  day_le : 0 ≤ day ∧ day ≤ 365
  /-- A leap day ends its cycle, and of the last cycles of centuries only that of the era has
  one. -/
  leap : day = 365 → year = 3 ∧ (cycle = 24 → century = 3)

namespace Place

/-- The days of the era before it. A century that is not the last of its era ends without a
leap day, and so has 36524 days; a cycle that is over within its century has had its leap day,
and so has 1461. -/
def dayOfEra (p : Place) : ℤ := 36524 * p.century + 1461 * p.cycle + 365 * p.year + p.day

/-- The full years of the era before it. -/
def yearOfEra (p : Place) : ℤ := 100 * p.century + 4 * p.cycle + p.year

/-- **Every day of an era has its place.** The digits are found from the greatest to the least, as
those of a number; where a quotient would be one too large, the day is a leap day, and the digit is
the one before. -/
theorem exists_dayOfEra_eq {n : ℤ} (h₀ : 0 ≤ n) (h : n < 146097) : ∃ p : Place, p.dayOfEra = n := by
  -- The last day of the era would begin another century, the last of a cycle another year.
  obtain ⟨c, hc⟩ : ∃ c, c = if n = 146096 then 3 else n / 36524 := ⟨_, rfl⟩
  obtain ⟨q, hq⟩ : ∃ q, q = (n - 36524 * c) / 1461 := ⟨_, rfl⟩
  obtain ⟨a, ha⟩ : ∃ a, a = if n - 36524 * c - 1461 * q = 1460 then 3
    else (n - 36524 * c - 1461 * q) / 365 := ⟨_, rfl⟩
  refine ⟨⟨c, q, a, n - 36524 * c - 1461 * q - 365 * a, ?_, ?_, ?_, ?_, ?_⟩, ?_⟩
  case refine_6 =>
    simp only [dayOfEra]
    omega
  all_goals split at hc <;> split at ha <;> omega

/-- **The year is found** by dividing by 365 what is left when the leap days are taken away. The
three quotients count the cycles, centuries and eras that have been left behind, and a leap day
itself counts as one that has. That this is right is seen for a place, where each quotient comes to
a digit or one more. -/
theorem yearOfEra_eq (p : Place) : (p.dayOfEra - p.dayOfEra / 1460 + p.dayOfEra / 36524
    - p.dayOfEra / 146096) / 365 = p.yearOfEra := by
  obtain ⟨c, q, a, d, hc, hq, ha, hd, hleap⟩ := p
  generalize hn : dayOfEra _ = n
  simp only [dayOfEra, yearOfEra] at hn ⊢
  have hcentury : n / 36524 - n / 146096 = c := by
    by_cases hlast : n = 146096
    · omega
    · have : n / 146096 = 0 := by omega
      omega
  -- A cycle is one day longer than what is divided by, so the quotient may be ahead near its end.
  have hcycle : n / 1460 = 25 * c + q + if 24 * c + q + 365 * a + d < 1460 then 0 else 1 := by
    split <;> omega
  have hsum : n - n / 1460 + n / 36524 - n / 146096 = 365 * (100 * c + 4 * q + a)
      + (d - if 24 * c + q + 365 * a + d < 1460 then 0 else 1) := by omega
  rw [hsum]
  split <;> omega

/-- **The day of the year is found** by taking away the days of the years before it, where the
number of leap days is told by the year. -/
theorem day_eq (p : Place) :
    p.dayOfEra - (365 * p.yearOfEra + p.yearOfEra / 4 - p.yearOfEra / 100) = p.day := by
  obtain ⟨c, q, a, d, hc, hq, ha, hd, hleap⟩ := p
  simp only [dayOfEra, yearOfEra]
  omega

/-- The month of the day, counted from March. -/
def month (p : Place) : ℤ := (5 * p.day + 2) / 153

/-- The date of the day in an era. January and February belong to the year before in this count of
years, which begin in March. -/
def date (p : Place) (era : ℤ) : Date where
  year := era * 400 + p.yearOfEra + if p.month < 10 then 0 else 1
  month := (if p.month < 10 then p.month + 3 else p.month - 9).toNat
  day := (p.day - (153 * p.month + 2) / 5 + 1).toNat

/-- There are twelve months, as a year has 366 days at most. -/
theorem month_le (p : Place) : 0 ≤ p.month ∧ p.month ≤ 11 := by
  have := p.day_le
  unfold month
  omega

/-- Months from January on are in the next year of the calendar. -/
theorem year_date (p : Place) (era : ℤ) : (if (p.date era).month ≤ 2 then (p.date era).year - 1
    else (p.date era).year) = era * 400 + p.yearOfEra := by
  have := p.month_le
  unfold date
  dsimp only
  split <;> split <;> omega

/-- The day of the year is found again by the month and the day of the month. -/
theorem day_date (p : Place) (era : ℤ) : (153 * (((p.date era).month + 9 : ℤ) % 12) + 2) / 5
    + (p.date era).day - 1 = p.day := by
  have hday := p.day_le
  have hmonth : p.month = (5 * p.day + 2) / 153 := rfl
  have hcounted : ((p.date era).month + 9 : ℤ) % 12 = p.month := by
    unfold date
    dsimp only
    split <;> omega
  rw [hcounted]
  unfold date
  dsimp only
  omega

/-- **A place is found again by its date.** The date has the year, from which the era and the year
in it are found again, and month and day, from which the day of the year is. -/
theorem toDays_date (p : Place) (era : ℤ) :
    (p.date era).toDays = era * 146097 + p.dayOfEra - 719468 := by
  have hyear : 0 ≤ p.yearOfEra ∧ p.yearOfEra < 400 := by
    have hcentury := p.century_le
    have hcycle := p.cycle_le
    have hyear := p.year_le
    unfold yearOfEra
    omega
  have hera : (era * 400 + p.yearOfEra) / 400 = era := by omega
  have hrest : (era * 400 + p.yearOfEra) % 400 = p.yearOfEra := by omega
  have hday := p.day_eq
  unfold Date.toDays
  dsimp only
  rw [year_date, day_date, hera, hrest]
  omega

/-- A leap day belongs to a leap year. The year is counted by the calendar here, in which February
is already in the next one. -/
theorem isLeapYear_of_day_eq {p : Place} (h : p.day = 365) (era : ℤ) :
    isLeapYear (era * 400 + p.yearOfEra + 1) = true := by
  obtain ⟨hyear, hcycle⟩ := p.leap h
  have hcentury := p.century_le
  have hlast := p.cycle_le
  unfold isLeapYear yearOfEra
  simp only [hyear, Bool.and_eq_true, Bool.or_eq_true, decide_eq_true_eq]
  omega

/-- **The day is one of its month.** Months from March on have 31 and 30 days in a pattern that the
division by 153 follows; and the last day of February is there only if the year is a leap year. -/
theorem day_le_daysInMonth (p : Place) (era : ℤ) : 1 ≤ (p.date era).month
    ∧ (p.date era).month ≤ 12 ∧ 1 ≤ (p.date era).day
    ∧ (p.date era).day ≤ daysInMonth (p.date era).year (p.date era).month := by
  have hday := p.day_le
  have hmonth : p.month = (5 * p.day + 2) / 153 := rfl
  obtain hm | hm | hm | hm | hm | hm | hm | hm | hm | hm | hm | hm : p.month = 0 ∨ p.month = 1
    ∨ p.month = 2 ∨ p.month = 3 ∨ p.month = 4 ∨ p.month = 5 ∨ p.month = 6 ∨ p.month = 7
    ∨ p.month = 8 ∨ p.month = 9 ∨ p.month = 10 ∨ p.month = 11 := by omega
  case inr.inr.inr.inr.inr.inr.inr.inr.inr.inr.inr =>
    -- February has a 29th day only where the year has a leap day.
    have hlength : p.day - 336 ≤ daysInMonth (era * 400 + p.yearOfEra + 1) 2 := by
      by_cases hleap : p.day = 365
      · simp [daysInMonth, isLeapYear_of_day_eq hleap, hleap]
      · rw [daysInMonth, if_pos rfl]
        split <;> omega
    simp only [date, hm]
    refine ⟨by decide, by decide, ?_, ?_⟩
    · omega
    · show _ ≤ daysInMonth (era * 400 + p.yearOfEra + 1) 2
      omega
  all_goals simp [date, hm, daysInMonth]
  all_goals omega

end Place

namespace Date

/-- **The date of a day** is that of its place in its era. -/
theorem exists_ofDays_eq (n : ℤ) : ∃ p : Place,
    p.dayOfEra = (n + 719468) % 146097 ∧ ofDays n = p.date ((n + 719468) / 146097) := by
  obtain ⟨p, hp⟩ := Place.exists_dayOfEra_eq (n := (n + 719468) % 146097) (by omega) (by omega)
  refine ⟨p, hp, ?_⟩
  have hyear := p.yearOfEra_eq
  have hday := p.day_eq
  rw [hp] at hyear hday
  have hmonth := p.month_le
  simp only [ofDays, hyear, hday, Place.date, ← Place.month.eq_def]
  by_cases h : p.month < 10
  · rw [if_pos h, if_pos h, if_neg (by omega)]
  · rw [if_neg h, if_neg h, if_pos (by omega)]

/-- **A day is found again by its date.** Both computations are compared on the place of the day, so
that neither is taken as the inverse of the other. -/
theorem toDays_ofDays (n : ℤ) : (ofDays n).toDays = n := by
  obtain ⟨p, hp, hdate⟩ := exists_ofDays_eq n
  rw [hdate, p.toDays_date, hp]
  omega

/-- **The date of a day exists**, unless its year is out of range. Instants are counted in a range
of years, and a date is valid if its year is in that range and its month has such a day. -/
theorem isValid_ofDays {n : ℤ} (hfirst : -262143 ≤ (ofDays n).year)
    (hlast : (ofDays n).year ≤ 262142) : (ofDays n).isValid = true := by
  obtain ⟨p, -, hdate⟩ := exists_ofDays_eq n
  rw [hdate] at hfirst hlast ⊢
  obtain ⟨hjanuary, hdecember, hone, hlength⟩ :=
    p.day_le_daysInMonth ((n + 719468) / 146097)
  simp only [isValid, Bool.and_eq_true, decide_eq_true_eq]
  exact ⟨⟨⟨⟨⟨hfirst, hlast⟩, hjanuary⟩, hdecember⟩, hone⟩, hlength⟩

end Date

end Instant

end Tariff
