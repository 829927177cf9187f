/-!
# Instants

An instant is a point of universal time to the nanosecond. It is held as one
integer, so that the order of instants is the order of integers: each second
since the beginning of 1970 takes two billion **ticks**, of which the first
billion are its nanoseconds. The second billion are those of a leap second that
may follow it; they come after the second and before the next one, as they
should, and the seconds themselves stay evenly spaced.
-/

namespace Tariff

/-- **A point in time.** -/
structure Instant where
  /-- Two billion to the second, from the beginning of 1970. -/
  ticks : Int
deriving DecidableEq, Inhabited

namespace Instant

instance : LT Instant := ⟨fun a b => a.ticks < b.ticks⟩

instance : LE Instant := ⟨fun a b => a.ticks ≤ b.ticks⟩

instance (a b : Instant) : Decidable (a < b) := inferInstanceAs (Decidable (a.ticks < b.ticks))

instance (a b : Instant) : Decidable (a ≤ b) := inferInstanceAs (Decidable (a.ticks ≤ b.ticks))

instance : Ord Instant := ⟨fun a b => compare a.ticks b.ticks⟩

/-- The instant `nanos` nanoseconds after a second; from one billion on they are
those of a leap second. -/
def ofSeconds (seconds : Int) (nanos : Nat) : Instant := ⟨seconds * 2000000000 + nanos⟩

/-- The whole seconds since the beginning of 1970. -/
def seconds (t : Instant) : Int := t.ticks / 2000000000

/-- The nanoseconds after the whole second. -/
def nanos (t : Instant) : Nat := (t.ticks % 2000000000).toNat

/-- The nanoseconds from `earlier` to `t`. -/
def nanosSince (t earlier : Instant) : Int :=
  (t.seconds - earlier.seconds) * 1000000000 + ((t.nanos : Int) - earlier.nanos)

/-! ## The calendar -/

/-- A day of the Gregorian calendar, extended to all years. -/
structure Date where
  year : Int
  month : Nat
  day : Nat
deriving DecidableEq

/-- Whether a year has 366 days. -/
def isLeapYear (year : Int) : Bool := year % 4 = 0 && (year % 100 ≠ 0 || year % 400 = 0)

/-- The number of days of a month. -/
def daysInMonth (year : Int) (month : Nat) : Nat :=
  if month = 2 then if isLeapYear year then 29 else 28
  else if month = 4 ∨ month = 6 ∨ month = 9 ∨ month = 11 then 30 else 31

/-- Whether the day exists. The years are those a date of 32 bits can hold. -/
def Date.isValid (d : Date) : Bool :=
  -262143 ≤ d.year && d.year ≤ 262142 && 1 ≤ d.month && d.month ≤ 12 && 1 ≤ d.day
    && d.day ≤ daysInMonth d.year d.month

/-- **The days from 1970-01-01 to a date.** Years are counted from March, so that
the leap day comes last, in eras of 400 years. -/
def Date.toDays (d : Date) : Int :=
  let year := if d.month ≤ 2 then d.year - 1 else d.year
  let era := year / 400
  let yearOfEra := year % 400
  let dayOfYear : Int := (153 * ((d.month + 9) % 12) + 2) / 5 + d.day - 1
  era * 146097 + yearOfEra * 365 + yearOfEra / 4 - yearOfEra / 100 + dayOfYear - 719468

/-- **The date so many days after 1970-01-01.** -/
def Date.ofDays (days : Int) : Date :=
  let shifted := days + 719468
  let era := shifted / 146097
  let dayOfEra := shifted % 146097
  let yearOfEra := (dayOfEra - dayOfEra / 1460 + dayOfEra / 36524 - dayOfEra / 146096) / 365
  let dayOfYear := dayOfEra - (365 * yearOfEra + yearOfEra / 4 - yearOfEra / 100)
  let monthFromMarch := (5 * dayOfYear + 2) / 153
  let day := dayOfYear - (153 * monthFromMarch + 2) / 5 + 1
  let month := if monthFromMarch < 10 then monthFromMarch + 3 else monthFromMarch - 9
  let year := era * 400 + yearOfEra + (if month ≤ 2 then 1 else 0)
  ⟨year, month.toNat, day.toNat⟩

end Instant

end Tariff
