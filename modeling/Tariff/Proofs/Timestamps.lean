import Tariff.Proofs.Calendar
import Tariff.Proofs.Numerals

/-!
# Timestamps

An instant is written as its date and its time of day, and read from much else: one digit for
two, blanks, offsets. **What was written is read as the same instant**
(`Instant.parse?_toText`), as far as the notation goes. It has four digits for a year, and it
has the second 60 for a leap second, which then has to be the last of its minute
(`Instant.IsWritable`). Elsewhere it would be mistaken for the second after it.

Every field is read by a reader of its own, and each of them takes what was written for it and
leaves the rest to the next one, whatever the rest is.
-/

namespace Tariff

namespace Instant

variable {n : ℕ} {rest : List Char}

/-! ## Fields

Each field is written with a fixed number of digits. The lemma about its reader says that it takes
these and gives the number, with anything behind them. -/

/-- A number begins with a digit. -/
theorem exists_padded_eq_cons {width : ℕ} (hwidth : 0 < width) (n : ℕ) :
    ∃ c digits, padded width n = c :: digits ∧ c.isDigit = true := by
  have hlength := le_length_padded width n
  obtain ⟨c, digits, hpadded⟩ :=
    List.exists_cons_of_length_pos (by omega : 0 < (padded width n).length)
  exact ⟨c, digits, hpadded, isDigit_of_mem_padded (hpadded ▸ List.mem_cons_self)⟩

theorem isEmpty_padded {width : ℕ} (hwidth : 0 < width) (n : ℕ) :
    (padded width n).isEmpty = false := by
  obtain ⟨c, digits, hpadded, -⟩ := exists_padded_eq_cons hwidth n
  rw [hpadded]
  rfl

/-- Before a digit there is nothing to skip. -/
theorem skipBlanks_padded {width : ℕ} (hwidth : 0 < width) (n : ℕ) (rest : List Char) :
    skipBlanks (padded width n ++ rest) = padded width n ++ rest := by
  obtain ⟨c, digits, hpadded, hc⟩ := exists_padded_eq_cons hwidth n
  rw [hpadded, List.cons_append]
  exact List.dropWhile_cons_of_neg (by simp [Text.isBlankChar_of_isDigit hc])

/-- **A reader of as many digits takes them**, and no more. -/
theorem takeDigits_append {digits : List Char} (hdigits : ∀ c ∈ digits, c.isDigit = true)
    (rest : List Char) : takeDigits (some digits.length) (digits ++ rest) = (digits, rest) := by
  unfold takeDigits
  simp only [List.takeWhile_append_of_pos hdigits, List.take_left, List.drop_left]

/-- **A number is read from its digits**, if it was written in as many as the reader takes. -/
theorem readNumber_padded {width : ℕ} (hwidth : 0 < width) (hn : n < 10 ^ width)
    (rest : List Char) : readNumber (some width) (padded width n ++ rest) = some (n, rest) := by
  have hlength := length_padded hwidth hn
  have hdigits : ∀ c ∈ padded width n, c.isDigit = true := fun _ => isDigit_of_mem_padded
  have htake := takeDigits_append hdigits rest
  rw [hlength] at htake
  unfold readNumber
  rw [htake]
  simp only [isEmpty_padded hwidth, Text.digitsValue_eq, ofDigitChars_padded, Bool.false_eq_true,
    ↓reduceIte]

theorem readTwo_padded (hn : n < 100) (rest : List Char) :
    readTwo (padded 2 n ++ rest) = some (n, rest) := by
  unfold readTwo
  rw [skipBlanks_padded (by decide), readNumber_padded (by decide) hn]

/-- A year of four digits has no sign. -/
theorem readYear_padded (hn : n < 10000) (rest : List Char) :
    readYear (padded 4 n ++ rest) = some ((n : ℤ), rest) := by
  have hread := readNumber_padded (by decide : 0 < 4) hn rest
  obtain ⟨c, digits, hpadded, hc⟩ := exists_padded_eq_cons (by decide : 0 < 4) n
  unfold readYear
  rw [skipBlanks_padded (by decide)]
  rw [hpadded, List.cons_append] at hread ⊢
  split
  · next heq =>
    obtain ⟨rfl, -⟩ := List.cons.inj heq
    exact absurd hc (by decide)
  · next heq =>
    obtain ⟨rfl, -⟩ := List.cons.inj heq
    exact absurd hc (by decide)
  · rw [hread]
    rfl

/-- The marks between fields are read as themselves. -/
theorem readMark_cons {mark : Char} (h : Text.isBlankChar mark = false) (rest : List Char) :
    readMark mark (mark :: rest) = some rest := by
  unfold readMark skipBlanks
  rw [List.dropWhile_cons_of_neg (by simp [h])]
  exact if_pos rfl

/-- **A fraction is read to the nanosecond**, of whatever length it was written. -/
theorem readFraction_point {width : ℕ} (hwidth : 0 < width) (hle : width ≤ 9) (hn : n < 10 ^ width)
    {c : Char} (hc : c.isDigit = false) (rest : List Char) :
    readFraction ('.' :: padded width n ++ c :: rest)
      = some (n * 10 ^ (9 - width), c :: rest) := by
  have hlength := length_padded hwidth hn
  have hdigits : ∀ c ∈ padded width n, c.isDigit = true := fun _ => isDigit_of_mem_padded
  have hwhile : (padded width n ++ c :: rest).takeWhile Char.isDigit = padded width n := by
    rw [List.takeWhile_append_of_pos hdigits, List.takeWhile_cons_of_neg (by simp [hc]),
      List.append_nil]
  have hdrop : (padded width n ++ c :: rest).dropWhile Char.isDigit = c :: rest := by
    rw [List.dropWhile_append_of_pos hdigits, List.dropWhile_cons_of_neg (by simp [hc])]
  have htake : (padded width n).take 9 = padded width n := List.take_of_length_le (by omega)
  rw [List.cons_append]
  simp only [readFraction, takeDigits, hwhile, htake, isEmpty_padded hwidth, hdrop, hlength,
    Text.digitsValue_eq, ofDigitChars_padded, Bool.false_eq_true, ↓reduceIte]

/-- **What is written of the nanoseconds is read.** They are written with three, six or nine digits,
whichever is enough, and not at all if there are none. -/
theorem readFraction_fractionText (hn : n < 1000000000) :
    readFraction (fractionText n ++ ['Z']) = some (n, ['Z']) := by
  have hz : 'Z'.isDigit = false := rfl
  unfold fractionText
  split
  · next h =>
    rw [h]
    rfl
  · split
    · rw [readFraction_point (by decide) (by decide) (by omega) hz]
      congr 2
      omega
    · split
      · rw [readFraction_point (by decide) (by decide) (by omega) hz]
        congr 2
        omega
      · rw [readFraction_point (by decide) (by decide) (by omega) hz]
        congr 2
        omega

/-! ## Instants -/

/-- **The notation has the instant**: its year has four digits, and if it is in a leap second, this
is the last of a minute. A leap second has nanoseconds from a thousand million on. -/
structure IsWritable (t : Instant) : Prop where
  year : 0 ≤ (Date.ofDays (t.seconds / 86400)).year
    ∧ (Date.ofDays (t.seconds / 86400)).year ≤ 9999
  leap : 1000000000 ≤ t.nanos → t.seconds % 60 = 59

/-- An instant is its second and the nanoseconds after it. -/
theorem ofSeconds_seconds (t : Instant) : ofSeconds t.seconds t.nanos = t := by
  obtain ⟨ticks⟩ := t
  simp only [ofSeconds, seconds, nanos, Instant.mk.injEq]
  omega

/-- An instant has less than two seconds of nanoseconds. -/
theorem nanos_lt (t : Instant) : t.nanos < 2000000000 := by
  unfold nanos
  omega

/-- Months and days have two digits at most. -/
theorem lt_hundred_of_isValid {d : Date} (h : d.isValid = true) : d.month < 100 ∧ d.day < 100 := by
  have hlength : daysInMonth d.year d.month ≤ 31 := by
    unfold daysInMonth
    split <;> split <;> omega
  simp only [Date.isValid, Bool.and_eq_true, decide_eq_true_eq] at h
  omega

/-- **What was written of each field is read**, one after the other. The text is given by its fields
here, so that the readers can be applied in their order; that an instant is written in this way
comes after it. -/
theorem parse?_ofList {days : ℤ} {year month day hour minute second nanos : ℕ}
    (hdate : Date.ofDays days = ⟨year, month, day⟩) (hyear : year < 10000) (hhour : hour < 24)
    (hminute : minute < 60) (hsecond : second ≤ 60) (hnanos : nanos < 1000000000) :
    parse? (String.ofList (padded 4 year ++ '-' :: padded 2 month ++ '-' :: padded 2 day
        ++ 'T' :: padded 2 hour ++ ':' :: padded 2 minute ++ ':' :: padded 2 second
        ++ fractionText nanos ++ ['Z']))
      = some (ofSeconds (days * 86400
          + ((hour * 3600 + minute * 60 + if second = 60 then 59 else second : ℕ) : ℤ))
        (if second = 60 then nanos + 1000000000 else nanos)) := by
  have hvalid : (Date.mk year month day).isValid = true :=
    hdate ▸ Date.isValid_ofDays (n := days) (by simp only [hdate]; omega)
      (by simp only [hdate]; omega)
  have htwo : month < 100 ∧ day < 100 := lt_hundred_of_isValid hvalid
  have htoDays : (Date.mk year month day).toDays = days := hdate ▸ Date.toDays_ofDays days
  have hdash : Text.isBlankChar '-' = false := rfl
  have hcolon : Text.isBlankChar ':' = false := rfl
  generalize htime : (hour * 3600 + minute * 60 + if second = 60 then 59 else second) = time
  have hdays : (days * 86400 + time - 0) / 86400 = days := by
    split at htime <;> omega
  unfold parse?
  simp only [String.toList_ofList, List.append_assoc, List.cons_append]
  refine Option.bind_eq_some_iff.2 ⟨_, readYear_padded hyear _, ?_⟩
  refine Option.bind_eq_some_iff.2 ⟨_, readMark_cons hdash _, ?_⟩
  refine Option.bind_eq_some_iff.2 ⟨_, readTwo_padded htwo.1 _, ?_⟩
  refine Option.bind_eq_some_iff.2 ⟨_, readMark_cons hdash _, ?_⟩
  refine Option.bind_eq_some_iff.2 ⟨_, readTwo_padded htwo.2 _, ?_⟩
  dsimp only
  rw [if_pos (.inl rfl), Option.bind_eq_bind, Option.bind_some]
  refine Option.bind_eq_some_iff.2 ⟨_, readTwo_padded (by omega) _, ?_⟩
  refine Option.bind_eq_some_iff.2 ⟨_, readMark_cons hcolon _, ?_⟩
  refine Option.bind_eq_some_iff.2 ⟨_, readTwo_padded (by omega) _, ?_⟩
  refine Option.bind_eq_some_iff.2 ⟨_, readMark_cons hcolon _, ?_⟩
  refine Option.bind_eq_some_iff.2 ⟨_, readTwo_padded (by omega) _, ?_⟩
  refine Option.bind_eq_some_iff.2 ⟨_, readFraction_fractionText hnanos, ?_⟩
  refine Option.bind_eq_some_iff.2 ⟨(0, []), rfl, ?_⟩
  dsimp only
  rw [if_pos ⟨hvalid, hhour, hminute, hsecond, rfl⟩, htime, htoDays, hdays, hdate, if_pos hvalid,
    Int.sub_zero]

/-- **An instant comes back from its text**, if the notation has it. The date comes back since
counting days and naming them are inverse, and the time of day since it is hours, minutes and
seconds of less than a day. -/
theorem parse?_toText {t : Instant} (h : t.IsWritable) : parse? t.toText = some t := by
  obtain ⟨⟨hfirst, hlast⟩, hleap⟩ := h
  have hnanos := t.nanos_lt
  generalize hdays : t.seconds / 86400 = days at hfirst hlast
  have hdate : Date.ofDays days = ⟨((Date.ofDays days).year.toNat : ℤ), (Date.ofDays days).month,
      (Date.ofDays days).day⟩ := by
    rw [Int.toNat_of_nonneg hfirst]
  have hread {second nanos : ℕ} (hsecond : second ≤ 60) (hnanos : nanos < 1000000000) :=
    parse?_ofList hdate (by omega)
      (by omega : (t.seconds % 86400).toNat / 3600 < 24)
      (by omega : (t.seconds % 86400).toNat / 60 % 60 < 60) hsecond hnanos
  unfold toText render yearText
  rw [hdays]
  dsimp only
  rw [if_pos ⟨hfirst, hlast⟩]
  by_cases h : 1000000000 ≤ t.nanos
  · have hsecond := hleap h
    rw [if_pos h, if_pos h, hread (by omega) (by omega), if_pos (by omega), if_pos (by omega)]
    refine congrArg some (Eq.trans ?_ t.ofSeconds_seconds)
    congr 1 <;> omega
  · rw [if_neg h, if_neg h, hread (by omega) (by omega), if_neg (by omega), if_neg (by omega)]
    refine congrArg some (Eq.trans ?_ t.ofSeconds_seconds)
    congr 1
    omega

end Instant

end Tariff
