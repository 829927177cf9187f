import Mathlib.Data.Nat.Notation
import Tariff.Decimal.Text
import Tariff.Instant.Text

/-!
# Numerals

A decimal is written to documents as a text, and so is an instant, and both are read back
later. What is written is simple: digits, a point, a sign. What is read is more than that, and
the reader of decimals has a rule for everything a numeral may contain: it rounds digits away,
skips underscores and tries a second notation when the first one fails. **A decimal comes back
from its text** (`Decimal.parse?_toText`) because none of these rules ever gets its turn there:
the digits of a decimal fit a decimal while they are read (`Decimal.readDigits_append`).

It comes back but for one thing. The reader gives a zero no sign, and `-0` is read as `0`. This
is the same number, as is a decimal whose trailing zeros have been taken off before it was
written (`Decimal.normalize_sameNumber`).
-/

namespace Tariff

/-! ## Digits

A digit is tested by the library and read by the reader of numerals. Both are brought to the code of
the character, where they are arithmetic. -/

namespace Text

/-- The digits are the characters from 48 to 57. -/
theorem isDigit_iff {c : Char} : c.isDigit = true ↔ 48 ≤ c.toNat ∧ c.toNat ≤ 57 :=
  Char.isDigit_iff_toNat

/-- A digit is read as how far it is from the first one. -/
theorem digit?_of_isDigit {c : Char} (h : c.isDigit = true) :
    digit? c = some (c.toNat - '0'.toNat) := by
  unfold digit?
  rw [if_pos h]

/-- No digit is dropped as a blank. -/
theorem isBlankChar_of_isDigit {c : Char} (h : c.isDigit = true) : isBlankChar c = false := by
  rw [isDigit_iff] at h
  simp only [isBlankChar, inRanges, blankRanges, List.any_cons, List.any_nil, Bool.or_false,
    Bool.or_eq_false_iff, Bool.and_eq_false_iff, decide_eq_false_iff_not]
  omega

/-- The value of digits is what the library takes it to be. -/
theorem digitsValue_eq (cs : List Char) : digitsValue cs = Nat.ofDigitChars 10 cs 0 := by
  unfold digitsValue Nat.ofDigitChars
  congr 1
  funext n c
  rw [Nat.mul_comm]

/-- **Blanks in front are dropped**, and nothing else where there are no others. Documents put their
values behind blanks, and only there. -/
theorem trimBlanks_ofList_append {blanks cs : List Char}
    (hblanks : ∀ c ∈ blanks, isBlankChar c = true) (hcs : ∀ c ∈ cs, isBlankChar c = false) :
    trimBlanks (String.ofList (blanks ++ cs)) = String.ofList cs := by
  have hdrop : ∀ cs : List Char, (∀ c ∈ cs, isBlankChar c = false) →
      cs.dropWhile isBlankChar = cs := by
    intro cs hcs
    cases cs with
    | nil => rfl
    | cons c rest => exact List.dropWhile_cons_of_neg (by simp [hcs c])
  unfold trimBlanks
  rw [String.toList_ofList, List.dropWhile_append_of_pos hblanks, hdrop _ hcs,
    hdrop _ fun c hc => hcs c (List.mem_reverse.1 hc), List.reverse_reverse]

end Text

/-! ## Digits up to a width

The parts of an instant are written with zeros in front, up to a width, and so are the digits of a
decimal, up to one more than its scale. -/

namespace Instant

variable {width n : ℕ}

theorem isDigit_of_mem_padded {c : Char} (h : c ∈ padded width n) : c.isDigit = true := by
  rcases List.mem_append.1 h with hzero | hdigit
  · rw [List.eq_of_mem_replicate hzero]
    rfl
  · exact Nat.isDigit_of_mem_toDigits (by decide) (by decide) hdigit

/-- **Zeros in front do not count.** The number comes back whatever the width is, also if
it is wider. -/
theorem ofDigitChars_padded (width n : ℕ) : Nat.ofDigitChars 10 (padded width n) 0 = n := by
  unfold padded
  rw [Nat.ofDigitChars_append, Nat.ofDigitChars_replicate_zero, Nat.mul_zero,
    Nat.ofDigitChars_ten_toDigits]

/-- There are as many digits as asked for, or more. -/
theorem le_length_padded (width n : ℕ) : width ≤ (padded width n).length := by
  simp only [padded, List.length_append, List.length_replicate]
  omega

/-- **A number below the power has the width** it is written in, so that a reader who takes so many
characters takes all of it and no more. -/
theorem length_padded (hwidth : 0 < width) (hn : n < 10 ^ width) :
    (padded width n).length = width := by
  have hlength := (Nat.length_toDigits_le_iff (b := 10) (by decide) hwidth).2 hn
  simp only [padded, List.length_append, List.length_replicate]
  omega

end Instant

/-! ## Decimals -/

namespace Decimal

/-- **Digits are read as their value**, as long as there is room for it. There are two limits: the
mantissa must stay below the capacity, and after the point the scale must not pass the largest one.
The induction is on the digits that are still to come, and both limits are stated of what they will
have led to at the end. Since a numeral only grows as it is read, that bounds every step before. -/
theorem readDigits_append {digits : List Char} (hdigits : ∀ c ∈ digits, c.isDigit = true)
    {m s : ℕ} (point : Bool) (hvalue : Nat.ofDigitChars 10 digits m < capacity)
    (hscale : if point then s + digits.length ≤ maxScale else s < maxScale) (seen : Bool)
    (rest : List Char) :
    readDigits m s point seen (digits ++ rest)
      = readDigits (Nat.ofDigitChars 10 digits m) (if point then s + digits.length else s) point
          (seen || !digits.isEmpty) rest := by
  induction digits generalizing m s seen with
  | nil => cases point <;> simp [Nat.ofDigitChars]
  | cons c digits ih =>
    obtain ⟨hc, hdigits⟩ := List.forall_mem_cons.1 hdigits
    rw [Nat.ofDigitChars_cons, Nat.mul_comm 10 m] at hvalue ⊢
    have hroom : m * 10 + (c.toNat - '0'.toNat) < capacity := by
      rw [Nat.ofDigitChars_eq_ofDigitChars_zero] at hvalue
      have := Nat.le_mul_of_pos_left (m * 10 + (c.toNat - '0'.toNat))
        (Nat.pow_pos (by decide) : 0 < 10 ^ digits.length)
      omega
    have hs : s < maxScale := by
      cases point with
      | false => exact hscale
      | true =>
        simp only [↓reduceIte, List.length_cons] at hscale
        omega
    rw [List.cons_append, readDigits, Text.digit?_of_isDigit hc]
    dsimp only
    rw [if_pos ⟨hs, hroom⟩, ih hdigits hvalue (by
      cases point with
      | false => exact hscale
      | true =>
        simp only [↓reduceIte, List.length_cons] at hscale ⊢
        omega)]
    cases point <;> simp [Nat.add_comm, Nat.add_left_comm]

/-- The digits of a decimal before the point. There is at least one, which may be a zero. -/
def wholeDigits (d : Decimal) : List Char :=
  d.paddedDigits.take (d.paddedDigits.length - d.scale)

/-- The digits of a decimal after the point, as many as its scale. -/
def fractionDigits (d : Decimal) : List Char :=
  d.paddedDigits.drop (d.paddedDigits.length - d.scale)

variable (d : Decimal)

/-- A decimal is written as its sign, its whole digits, and a point with the other ones if
there are any. -/
theorem toList_toText : d.toText.toList = (if d.negative then ['-'] else []) ++ d.wholeDigits
    ++ (if d.scale = 0 then [] else '.' :: d.fractionDigits) :=
  String.toList_ofList

theorem wholeDigits_append : d.wholeDigits ++ d.fractionDigits = d.paddedDigits :=
  List.take_append_drop _ _

/-- What is written between sign and point are digits. -/
theorem isDigit_of_mem_paddedDigits {c : Char} (h : c ∈ d.paddedDigits) : c.isDigit = true :=
  Instant.isDigit_of_mem_padded h

theorem isDigit_of_mem_wholeDigits {c : Char} (h : c ∈ d.wholeDigits) : c.isDigit = true :=
  d.isDigit_of_mem_paddedDigits (List.mem_of_mem_take h)

theorem isDigit_of_mem_fractionDigits {c : Char} (h : c ∈ d.fractionDigits) : c.isDigit = true :=
  d.isDigit_of_mem_paddedDigits (List.mem_of_mem_drop h)

/-- There are more digits than those after the point. -/
theorem scale_lt_length_paddedDigits : d.scale < d.paddedDigits.length :=
  Instant.le_length_padded (d.scale + 1) d.mantissa

/-- So there is one before it. A numeral that began with the point would be read as well, but the
reader wants a digit somewhere, and a decimal of scale zero has none elsewhere. -/
theorem wholeDigits_ne_nil : d.wholeDigits ≠ [] := by
  have := d.scale_lt_length_paddedDigits
  rw [wholeDigits, Ne, List.take_eq_nil_iff, ← List.length_eq_zero_iff]
  omega

/-- After the point there are as many digits as the scale says, so none of them is read away. -/
theorem length_fractionDigits : d.fractionDigits.length = d.scale := by
  have := d.scale_lt_length_paddedDigits
  rw [fractionDigits, List.length_drop]
  omega

/-- **The digits of a decimal are those of its mantissa.** They are read in two parts, the second
one from where the first one has got to. -/
theorem ofDigitChars_fractionDigits :
    Nat.ofDigitChars 10 d.fractionDigits (Nat.ofDigitChars 10 d.wholeDigits 0) = d.mantissa := by
  rw [← Nat.ofDigitChars_append, wholeDigits_append]
  exact Instant.ofDigitChars_padded (d.scale + 1) d.mantissa

/-- Up to the point, what has been read is not more than the mantissa, so it fits. -/
theorem ofDigitChars_wholeDigits_le : Nat.ofDigitChars 10 d.wholeDigits 0 ≤ d.mantissa := by
  have hvalue := d.ofDigitChars_fractionDigits
  rw [Nat.ofDigitChars_eq_ofDigitChars_zero] at hvalue
  have := Nat.le_mul_of_pos_left (Nat.ofDigitChars 10 d.wholeDigits 0)
    (Nat.pow_pos (by decide) : 0 < 10 ^ d.fractionDigits.length)
  omega

/-- **The digits of a decimal are read to the end** as its mantissa and scale: first those before
the point, and if there is one, those after it. -/
theorem readDigits_digits :
    readDigits 0 0 false false
        (d.wholeDigits ++ if d.scale = 0 then [] else '.' :: d.fractionDigits)
      = some (d.mantissa, d.scale) := by
  have hwhole := d.ofDigitChars_wholeDigits_le
  have hvalue := d.ofDigitChars_fractionDigits
  have hmantissa : d.mantissa < capacity := d.mantissa_lt
  have hlength := d.length_fractionDigits
  have hnonempty : d.wholeDigits.isEmpty = false := List.isEmpty_eq_false_iff.2 d.wholeDigits_ne_nil
  have hread := readDigits_append (fun _ => d.isDigit_of_mem_wholeDigits) (s := 0) false
    (by omega : Nat.ofDigitChars 10 d.wholeDigits 0 < capacity) (by simp) false
    (if d.scale = 0 then [] else '.' :: d.fractionDigits)
  rw [hread, hnonempty]
  by_cases hscale : d.scale = 0
  · rw [hscale, List.length_eq_zero_iff] at hlength
    rw [hlength] at hvalue
    rw [if_pos hscale, hscale, ← hvalue]
    rfl
  · have hread := readDigits_append (fun _ => d.isDigit_of_mem_fractionDigits) (s := 0) true
      (by rw [hvalue]; exact hmantissa)
      (by rw [if_pos rfl, hlength, Nat.zero_add]; exact d.scale_le) true []
    rw [List.append_nil, hvalue, hlength, if_pos rfl, Nat.zero_add] at hread
    rw [if_neg hscale]
    exact hread

/-- The decimal with no sign if it is zero. This is what is left of a decimal that is written and
read again. -/
def unsignedZero : Decimal := { d with negative := d.negative && d.mantissa != 0 }

/-- A decimal that is not zero keeps its sign. -/
theorem unsignedZero_of_ne (h : d.isZero = false) : d.unsignedZero = d := by
  have hne : (d.mantissa != 0) = true := by rw [bne, ← isZero, h]; rfl
  unfold unsignedZero
  rw [hne, Bool.and_true]

/-- Zero is the same number with a sign and without. -/
theorem unsignedZero_sameNumber : d.unsignedZero.SameNumber d := by
  by_cases hzero : d.isZero = true
  · have hm : d.mantissa = 0 := beq_iff_eq.1 hzero
    unfold SameNumber units signed unsignedZero
    simp [hm]
  · rw [d.unsignedZero_of_ne (by simpa using hzero)]
    rfl

/-- **A decimal comes back from its text**, without the sign if it is zero. Its scale comes back
too, so zeros at the end are kept. The reader's second notation is never tried. -/
theorem parse?_toText : parse? d.toText = some d.unsignedZero := by
  have hsign : readSign d.toText.toList = (d.negative,
      d.wholeDigits ++ if d.scale = 0 then [] else '.' :: d.fractionDigits) := by
    rw [toList_toText]
    cases d.negative with
    | true => rfl
    | false =>
      -- What comes first is a digit, and no sign.
      obtain ⟨c, rest, hwhole⟩ := List.exists_cons_of_ne_nil d.wholeDigits_ne_nil
      have hc : c.isDigit = true :=
        d.isDigit_of_mem_wholeDigits (hwhole ▸ List.mem_cons_self)
      simp only [Bool.false_eq_true, ↓reduceIte, List.nil_append, hwhole, List.cons_append]
      unfold readSign
      split
      · next heq =>
        obtain ⟨rfl, -⟩ := List.cons.inj heq
        exact absurd hc (by decide)
      · next heq =>
        obtain ⟨rfl, -⟩ := List.cons.inj heq
        exact absurd hc (by decide)
      · rfl
  have hplain : readPlain d.toText.toList = some d.unsignedZero := by
    unfold readPlain
    rw [hsign]
    dsimp only
    rw [readDigits_digits]
    exact dif_pos ⟨d.mantissa_lt, d.scale_le⟩
  unfold parse?
  dsimp only
  rw [hplain]

/-- There are no blanks in the text of a decimal, so whoever drops blanks around it drops
none of it. -/
theorem isBlankChar_of_mem_toText {c : Char} (hc : c ∈ d.toText.toList) :
    Text.isBlankChar c = false := by
  rw [toList_toText] at hc
  have hdigit (h : c ∈ d.wholeDigits ∨ c ∈ d.fractionDigits) : Text.isBlankChar c = false :=
    Text.isBlankChar_of_isDigit
      (h.elim d.isDigit_of_mem_wholeDigits d.isDigit_of_mem_fractionDigits)
  rcases List.mem_append.1 hc with hc | hc
  · rcases List.mem_append.1 hc with hsign | hwhole
    · split at hsign
      · rw [List.mem_singleton.1 hsign]
        rfl
      · cases hsign
    · exact hdigit (.inl hwhole)
  · split at hc
    · cases hc
    · rcases List.mem_cons.1 hc with rfl | hfraction
      · rfl
      · exact hdigit (.inr hfraction)

/-- Blanks before the text of a decimal are dropped, if there are any. -/
theorem trimBlanks_append_toText (n : ℕ) :
    Text.trimBlanks (String.ofList (List.replicate n ' ' ++ d.toText.toList)) = d.toText := by
  rw [Text.trimBlanks_ofList_append (fun c hc => by rw [List.eq_of_mem_replicate hc]; rfl)
    fun c => d.isBlankChar_of_mem_toText, String.ofList_toList]

theorem trimBlanks_toText : Text.trimBlanks d.toText = d.toText := by
  have htrim := d.trimBlanks_append_toText 0
  rwa [List.replicate_zero, List.nil_append, String.ofList_toList] at htrim

/-! ## Trailing zeros -/

/-- **Taking zeros off the end moves the point** and nothing else. The induction follows
`stripZeros`, one zero at a time, until there is none or the scale is used up. -/
theorem stripZeros_mul (m s : ℕ) :
    (stripZeros m s).1 * 10 ^ (s - (stripZeros m s).2) = m := by
  induction s generalizing m with
  | zero => exact Nat.mul_one m
  | succ s ih =>
    rw [stripZeros]
    split
    · next hdvd =>
      have hle := stripZeros_snd_le (m / 10) s
      rw [show s + 1 - (stripZeros (m / 10) s).2 = s - (stripZeros (m / 10) s).2 + 1 by omega,
        Nat.pow_succ, ← Nat.mul_assoc, ih]
      omega
    · simp

/-- **A normalized decimal is the same number.** Both are compared at the finest scale there is. -/
theorem normalize_sameNumber : d.normalize.SameNumber d := by
  unfold normalize
  split
  · next hzero =>
    have hm : d.mantissa = 0 := beq_iff_eq.1 hzero
    unfold SameNumber units signed
    simp [hm, zero]
  · have hmul := stripZeros_mul d.mantissa d.scale
    have hle := stripZeros_snd_le d.mantissa d.scale
    have hscale := d.scale_le
    have hunits : ((stripZeros d.mantissa d.scale).1 : Int)
        * 10 ^ (28 - (stripZeros d.mantissa d.scale).2) = d.mantissa * 10 ^ (28 - d.scale) := by
      rw [show 28 - (stripZeros d.mantissa d.scale).2
          = d.scale - (stripZeros d.mantissa d.scale).2 + (28 - d.scale) by omega,
        Int.pow_add, ← Int.mul_assoc]
      congr 1
      exact_mod_cast hmul
    unfold SameNumber units signed
    dsimp only
    cases d.negative with
    | false => exact hunits
    | true =>
      simp only [↓reduceIte, Int.neg_mul]
      rw [hunits]

end Decimal

end Tariff
