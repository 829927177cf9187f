import Mathlib.Algebra.Order.Field.Basic
import Mathlib.Algebra.Order.Field.Power
import Mathlib.Data.Rat.Cast.Order
import Mathlib.Tactic.FieldSimp
import Mathlib.Tactic.Linarith
import Mathlib.Tactic.NormNum
import Mathlib.Tactic.Positivity
import Mathlib.Tactic.Ring
import Tariff.Decimal.Arithmetic

/-!
# Decimals that round numbers

A decimal is a fraction: `value` is the number it stands for, and the comparisons
of decimals are those of these numbers (`le_iff`). An operation on decimals has an
exact result, which is a number but in general no decimal, and answers a decimal
nearby. What is proved of the answer is `Rounds`: **no decimal lies between the
number and the decimal that rounds it**. So a bound that is itself a decimal holds
of the rounded number if it holds of the exact one. That is all that the invariants
of prices need: zero is a decimal, and so is every amount.

The operations know a number by its digits at some scale, off by at most half a
step. Such digits need not round: where a digit more would have fit, a decimal with
that digit may be nearer. `Nearest` says in addition that the digits are exact, or
that there is no room for one more, and that a half went to the even digits. The
largest mantissa ends in 5, so that digits with no room for one more stand above every
decimal with more fraction digits, even when they were rounded up or down by half a
step (`Nearest.rounds`).

With all of that there is no choice left. **Nearest digits keep the order** of the
numbers, also where one of the two has more fraction digits than the other
(`Nearest.magnitude_le`), and so numbers that are the same have nearest digits that are.
`IsRounding` puts the sign to them, and `Answers` says what an operation makes of its
exact result: the rounding of it, or nothing if it is too large. Whatever scales the
operands have, it is their numbers that decide.
-/

namespace Tariff

/-- **A power of ten**, as a fraction. Scales are natural numbers, and they are subtracted all the
time, so the exponent may be negative. -/
def pow10 (s : ℤ) : ℚ := 10 ^ s

/-- The lemmas that follow are those of the library for this base, under short names. -/
theorem pow10_pos (s : ℤ) : 0 < pow10 s := zpow_pos (by norm_num) s

theorem pow10_add (s t : ℤ) : pow10 (s + t) = pow10 s * pow10 t := zpow_add₀ (by norm_num) s t

theorem pow10_natCast (s : ℕ) : pow10 s = (10 ^ s : ℕ) := by
  unfold pow10
  rw [zpow_natCast]
  push_cast
  rfl

theorem pow10_zero : pow10 0 = 1 := zpow_zero _

theorem pow10_one : pow10 1 = 10 := zpow_one _

theorem pow10_le {s t : ℤ} (h : s ≤ t) : pow10 s ≤ pow10 t := zpow_le_zpow_right₀ (by norm_num) h

theorem one_le_pow10 (s : ℕ) : 1 ≤ pow10 s := by
  rw [← pow10_zero]
  exact pow10_le (by omega)

theorem pow10_succ (s : ℤ) : pow10 (s + 1) = pow10 s * 10 := by rw [pow10_add, pow10_one]

namespace Decimal

/-- **The number that a decimal stands for.** Different decimals may stand for one number, as 1.0
and 1.00 do. -/
def value (d : Decimal) : ℚ := d.signed / pow10 d.scale

/-- The number without its sign. -/
def magnitude (d : Decimal) : ℚ := d.mantissa / pow10 d.scale

/-- The sign is put to the magnitude. A zero may have one, and is zero all the same. -/
theorem value_eq (d : Decimal) : d.value = if d.negative then -d.magnitude else d.magnitude := by
  unfold value magnitude signed
  split
  · push_cast
    ring
  · push_cast
    rfl

/-- Decimals are compared by counting units of the finest scale there is. -/
theorem units_eq (d : Decimal) : (d.units : ℚ) = d.value * pow10 28 := by
  have hscale : pow10 28 = pow10 (28 - d.scale : ℕ) * pow10 d.scale := by
    rw [← pow10_add]
    congr 1
    have := d.scale_le
    omega
  have hpos := pow10_pos d.scale
  unfold units value
  rw [hscale]
  push_cast
  rw [pow10_natCast (28 - d.scale)]
  push_cast
  field_simp

/-- **Decimals are ordered as their numbers are.** This and the two lemmas after it are what takes a
comparison in the code to one between fractions. -/
theorem le_iff {a b : Decimal} : a ≤ b ↔ a.value ≤ b.value := by
  show a.units ≤ b.units ↔ _
  rw [← Int.cast_le (R := ℚ), units_eq, units_eq, mul_le_mul_iff_left₀ (pow10_pos 28)]

theorem lt_iff {a b : Decimal} : a < b ↔ a.value < b.value := by
  show a.units < b.units ↔ _
  rw [← Int.cast_lt (R := ℚ), units_eq, units_eq, mul_lt_mul_iff_left₀ (pow10_pos 28)]

/-- Two decimals are the same number if they stand for one. -/
theorem sameNumber_iff {a b : Decimal} : a.SameNumber b ↔ a.value = b.value := by
  show a.units = b.units ↔ _
  rw [← Int.cast_inj (α := ℚ), units_eq, units_eq, mul_left_inj' (pow10_pos 28).ne']

theorem magnitude_nonneg (d : Decimal) : 0 ≤ d.magnitude :=
  div_nonneg (Nat.cast_nonneg _) (pow10_pos _).le

theorem abs_value (d : Decimal) : |d.value| = d.magnitude := by
  rw [value_eq]
  split <;> simp [d.magnitude_nonneg]

/-- The sign of a decimal is turned, and so is that of its number. -/
theorem value_neg (d : Decimal) : d.neg.value = -d.value := by
  rw [value_eq, value_eq]
  show (if (!d.negative) = true then -d.magnitude else d.magnitude) = _
  cases d.negative <;> simp

theorem value_zero : Decimal.zero.value = 0 := by
  rw [value_eq]
  norm_num [magnitude, zero]

/-- A decimal is zero if its number is, with whatever sign. -/
theorem isZero_iff (d : Decimal) : d.isZero = true ↔ d.value = 0 := by
  have hmagnitude : d.value = 0 ↔ d.magnitude = 0 := by
    rw [value_eq]
    split <;> simp
  rw [hmagnitude, magnitude, div_eq_zero_iff, or_iff_left (pow10_pos _).ne', Nat.cast_eq_zero]
  exact beq_iff_eq

/-- It is negative if its number is. The sign alone is not enough for that. -/
theorem isNegative_iff (d : Decimal) : d.isNegative = true ↔ d.value < 0 := by
  have hzero : d.isZero = true ↔ d.value = 0 := d.isZero_iff
  have hnonneg := d.magnitude_nonneg
  have hneg : d.isNegative = (d.negative && !d.isZero) := rfl
  rw [hneg, Bool.and_eq_true, Bool.not_eq_true', ← Bool.not_eq_true, hzero]
  rw [value_eq]
  cases d.negative with
  | false => simpa using hnonneg
  | true =>
    simp only [if_true, true_and]
    exact ⟨fun h => lt_of_le_of_ne (by linarith) h, fun h => h.ne⟩

theorem isNegative_eq_false_iff {d : Decimal} : d.isNegative = false ↔ 0 ≤ d.value := by
  rw [← Bool.not_eq_true, isNegative_iff, not_lt]

theorem zero_le_iff {d : Decimal} : zero ≤ d ↔ 0 ≤ d.value := by rw [le_iff, value_zero]

/-- Then its number is its magnitude. -/
theorem value_eq_magnitude {d : Decimal} (h : 0 ≤ d.value) : d.value = d.magnitude := by
  rw [value_eq] at h ⊢
  split
  · next hneg =>
    rw [if_pos hneg] at h
    linarith [d.magnitude_nonneg]
  · rfl

/-- One more than the largest number, which is the capacity of a mantissa: there are 96
bits for it. -/
def bound : ℚ := (capacity : ℕ)

theorem one_lt_bound : 1 < bound := by
  unfold bound
  exact_mod_cast (by decide : 1 < capacity)

/-- As a fraction, a mantissa is below the bound by one at least. -/
theorem mantissa_le (d : Decimal) : (d.mantissa : ℚ) ≤ bound - 1 := by
  have hlt : d.mantissa + 1 ≤ capacity := d.mantissa_lt
  unfold bound
  rw [le_sub_iff_add_le]
  exact_mod_cast hlt

/-! ## Rounding

There are two notions. What rounds a number may lie on either side of it, and this suffices for
bounds; what is nearest is determined, and this is what operations answer. -/

/-- **A decimal rounds a number** if no decimal lies between the two. There may be two such
decimals, one on either side, so this does not determine the answer of an operation. It is what the
bounds on prices are derived from. -/
structure Rounds (d : Decimal) (x : ℚ) : Prop where
  le_of_le : ∀ b : Decimal, b.value ≤ x → b.value ≤ d.value
  ge_of_ge : ∀ b : Decimal, x ≤ b.value → d.value ≤ b.value

/-- A decimal rounds its own number. -/
theorem Rounds.self (d : Decimal) : d.Rounds d.value := ⟨fun _ h => h, fun _ h => h⟩

/-- Only the number matters that a decimal stands for. -/
theorem Rounds.of_value_eq {d d' : Decimal} {x : ℚ} (h : d.Rounds x) (heq : d'.value = d.value) :
    d'.Rounds x := by
  constructor
  · rw [heq]
    exact h.le_of_le
  · rw [heq]
    exact h.ge_of_ge

/-- The opposite decimal rounds the opposite number. -/
theorem Rounds.neg {d : Decimal} {x : ℚ} (h : d.Rounds x) : d.neg.Rounds (-x) where
  le_of_le b hb := by
    have := h.ge_of_ge b.neg (by rw [value_neg]; linarith)
    rw [value_neg] at this ⊢
    linarith
  ge_of_ge b hb := by
    have := h.le_of_le b.neg (by rw [value_neg]; linarith)
    rw [value_neg] at this ⊢
    linarith

/-- What rounds a number that is not negative is not negative, since zero is a decimal. -/
theorem Rounds.nonneg {d : Decimal} {x : ℚ} (h : d.Rounds x) (hx : 0 ≤ x) : 0 ≤ d.value := by
  have hzero := h.le_of_le zero (by rwa [value_zero])
  rwa [value_zero] at hzero

/-- **The digits `n` at scale `s` are nearest to a number**, even where it is half way between two,
and are so exactly, or with all the fraction digits that there can be. There are three ways to have
all of them: no digit is missing, the scale is the largest one, or one digit more would not fit. -/
structure Nearest (x : ℚ) (n s : ℕ) : Prop where
  near : |n - x * pow10 s| ≤ 1 / 2
  even : |n - x * pow10 s| = 1 / 2 → n % 2 = 0
  full : x * pow10 s = n ∨ s = 28 ∨ bound - 1 / 2 ≤ x * pow10 (s + 1)

/-- Exact digits are nearest. -/
theorem Nearest.of_exact {x : ℚ} {n s : ℕ} (h : x * pow10 s = n) : Nearest x n s := by
  have hzero : |(n : ℚ) - x * pow10 s| = 0 := by rw [h, sub_self, abs_zero]
  refine ⟨?_, fun htie => ?_, .inl h⟩
  · rw [hzero]
    norm_num
  · rw [hzero] at htie
    norm_num at htie

/-- A decimal of a smaller scale is a whole number of steps of a larger one. So it can be compared
with digits at that scale as whole numbers are. -/
theorem magnitude_mul_pow10 (b : Decimal) {s : ℕ} (h : b.scale ≤ s) :
    b.magnitude * pow10 s = (b.mantissa * 10 ^ (s - b.scale) : ℕ) := by
  have hsplit : pow10 s = pow10 b.scale * pow10 (s - b.scale : ℕ) := by
    rw [← pow10_add]
    congr 1
    omega
  have hpos := pow10_pos b.scale
  unfold magnitude
  rw [hsplit, pow10_natCast (s - b.scale)]
  push_cast
  field_simp

/-- A mantissa is the magnitude in steps of the scale. -/
theorem mantissa_eq (d : Decimal) : (d.mantissa : ℚ) = d.magnitude * pow10 d.scale := by
  rw [d.magnitude_mul_pow10 (Nat.le_refl _), Nat.sub_self, Nat.pow_zero, Nat.mul_one]

/-- **A decimal with more fraction digits than fit is small.** At a scale that is finer by one its
digits are too many already, unless it is below what the largest mantissa makes there. -/
theorem magnitude_mul_pow10_lt (b : Decimal) {s : ℕ} (h : s < b.scale) :
    b.magnitude * pow10 (s + 1) ≤ bound - 1 := by
  have hle : pow10 (s + 1) ≤ pow10 b.scale := pow10_le (by omega)
  calc b.magnitude * pow10 (s + 1) ≤ b.magnitude * pow10 b.scale :=
        mul_le_mul_of_nonneg_left hle b.magnitude_nonneg
    _ = b.mantissa := b.mantissa_eq.symm
    _ ≤ bound - 1 := b.mantissa_le

/-- Digits that are full count to a tenth of the capacity and beyond. -/
theorem capacity_le_of_full {x : ℚ} {n s : ℕ} (hnear : |n - x * pow10 s| ≤ 1 / 2)
    (hfull : bound - 1 / 2 ≤ x * pow10 (s + 1)) : bound ≤ 10 * n := by
  obtain ⟨hlow, -⟩ := abs_le.1 hnear
  rw [pow10_succ] at hfull
  -- The capacity ends in 6: ten times the digits can be no less, if it is not less by more than 5.
  have hten : 2 * bound ≤ 20 * n + 11 := by linarith
  unfold bound at hten ⊢
  have hten : 2 * 2 ^ 96 ≤ 20 * n + 11 := by exact_mod_cast hten
  have hle : capacity ≤ 10 * n := by
    unfold capacity
    omega
  exact_mod_cast hle

/-- **What is at most a number is at most its nearest digits.** If the decimal has no finer scale,
both are whole numbers of steps, and half a step between them is none. If it has a finer one, then
either the digits are exact, or they are full, and the decimal is too small to reach them. -/
theorem Nearest.le_of_le {d : Decimal} {x : ℚ} (h : Nearest x d.mantissa d.scale) (b : Decimal)
    (hb : b.magnitude ≤ x) : b.magnitude ≤ d.magnitude := by
  have hpos := pow10_pos d.scale
  have hx : b.magnitude * pow10 d.scale ≤ x * pow10 d.scale := mul_le_mul_of_nonneg_right hb hpos.le
  refine le_of_mul_le_mul_right ?_ hpos
  rw [← d.mantissa_eq]
  rcases Nat.lt_or_ge d.scale b.scale with hlt | hge
  · rcases h.full with hexact | hscale | hfull
    · exact hx.trans hexact.le
    · exact absurd b.scale_le (by omega)
    · have hsmall := b.magnitude_mul_pow10_lt hlt
      have hlarge := capacity_le_of_full h.near hfull
      rw [pow10_succ] at hsmall
      linarith
  · -- Both are whole numbers of the same steps, so half a step does not matter.
    obtain ⟨hlow, -⟩ := abs_le.1 h.near
    rw [b.magnitude_mul_pow10 hge] at hx ⊢
    have hlt : ((b.mantissa * 10 ^ (d.scale - b.scale) : ℕ) : ℚ) < (d.mantissa + 1 : ℕ) := by
      push_cast at hx ⊢
      linarith
    exact_mod_cast Nat.le_of_lt_succ (by exact_mod_cast hlt)

/-- **What is at least a number is at least its nearest digits.** The same two cases. In the second
one there is no decimal of a finer scale above full digits. -/
theorem Nearest.ge_of_ge {d : Decimal} {x : ℚ} (h : Nearest x d.mantissa d.scale) (b : Decimal)
    (hb : x ≤ b.magnitude) : d.magnitude ≤ b.magnitude := by
  have hpos := pow10_pos d.scale
  have hx : x * pow10 d.scale ≤ b.magnitude * pow10 d.scale := mul_le_mul_of_nonneg_right hb hpos.le
  refine le_of_mul_le_mul_right ?_ hpos
  rw [← d.mantissa_eq]
  rcases Nat.lt_or_ge d.scale b.scale with hlt | hge
  · rcases h.full with hexact | hscale | hfull
    · exact hexact.symm.le.trans hx
    · exact absurd b.scale_le (by omega)
    · -- A number with so many digits is above every decimal of a larger scale.
      have hsmall := b.magnitude_mul_pow10_lt hlt
      have hten := mul_le_mul_of_nonneg_right hb (pow10_pos (d.scale + 1)).le
      linarith
  · obtain ⟨-, hhigh⟩ := abs_le.1 h.near
    rw [b.magnitude_mul_pow10 hge] at hx ⊢
    have hlt : (d.mantissa : ℚ) < ((b.mantissa * 10 ^ (d.scale - b.scale) + 1 : ℕ) : ℚ) := by
      push_cast at hx ⊢
      linarith
    exact_mod_cast Nat.le_of_lt_succ (by exact_mod_cast hlt)

/-- **Nearest digits with a sign round the number with the sign.** A decimal of the other sign is on
the other side of zero, and so does not lie between. -/
theorem Nearest.rounds {d : Decimal} {x : ℚ} (hx : 0 ≤ x) (h : Nearest x d.mantissa d.scale) :
    d.Rounds (if d.negative then -x else x) := by
  -- Up to the sign the decimal is a positive one, and decimals of the other sign are below.
  have hpositive : ∀ d : Decimal, d.negative = false → Nearest x d.mantissa d.scale →
      d.Rounds x := by
    intro d hd h
    have hvalue : d.value = d.magnitude := by rw [value_eq, if_neg (by simp [hd])]
    constructor
    · intro b hb
      rw [hvalue]
      rw [value_eq] at hb ⊢
      split at hb
      · next hneg =>
        rw [if_pos hneg]
        linarith [b.magnitude_nonneg, d.magnitude_nonneg]
      · next hneg =>
        rw [if_neg hneg]
        exact h.le_of_le b hb
    · intro b hb
      rw [hvalue]
      rw [value_eq] at hb ⊢
      split at hb
      · next hneg =>
        rw [if_pos hneg]
        have := h.ge_of_ge b (by linarith [b.magnitude_nonneg])
        linarith [b.magnitude_nonneg]
      · next hneg =>
        rw [if_neg hneg]
        exact h.ge_of_ge b hb
  cases hd : d.negative with
  | false => simpa using hpositive d hd h
  | true =>
    have hneg := (hpositive d.neg (by simp [neg, hd]) h).neg
    have htwice : d.neg.neg = d := by simp [neg]
    rw [htwice] at hneg
    simpa using hneg

/-! ## Rounding keeps the order

This is more than one might think, since two numbers may be rounded at different scales. It is shown
of nearest digits first, and then of decimals with their signs. -/

/-- The largest mantissa is odd, so it is no result of a half that went to the even side. -/
theorem cast_ne_bound_sub_one {n : ℕ} (h : n % 2 = 0) : (n : ℚ) ≠ bound - 1 := by
  intro heq
  have hcast : (n + 1 : ℚ) = capacity := by
    rw [heq]
    exact sub_add_cancel _ _
  have hcapacity : n + 1 = capacity := by exact_mod_cast hcast
  unfold capacity at hcapacity
  omega

/-- **A number with nearest digits is within the limits**: half a step above the largest mantissa
the even digits are too many. -/
theorem Nearest.mul_pow10_lt {d : Decimal} {x : ℚ} (h : Nearest x d.mantissa d.scale) :
    x * pow10 d.scale < bound - 1 / 2 := by
  by_contra! hlarge
  have hmantissa := d.mantissa_le
  obtain ⟨hlow, -⟩ := abs_le.1 h.near
  have hlargest : (d.mantissa : ℚ) = bound - 1 := by linarith
  refine cast_ne_bound_sub_one (h.even ?_) hlargest
  rw [abs_of_nonpos (by linarith)]
  linarith

/-- Nearest digits of one scale are in the order of the numbers. -/
theorem Nearest.mantissa_le_of_scale_eq {d e : Decimal} {x y : ℚ}
    (hd : Nearest x d.mantissa d.scale) (he : Nearest y e.mantissa e.scale) (h : x ≤ y)
    (hscale : d.scale = e.scale) : d.mantissa ≤ e.mantissa := by
  by_contra! hlt
  have hx : x * pow10 d.scale ≤ y * pow10 e.scale := by
    rw [hscale]
    exact mul_le_mul_of_nonneg_right h (pow10_pos _).le
  have hstep : (e.mantissa + 1 : ℚ) ≤ d.mantissa := by exact_mod_cast hlt
  obtain ⟨-, hhigh⟩ := abs_le.1 hd.near
  obtain ⟨hlow, -⟩ := abs_le.1 he.near
  -- The digits are one apart, so both are off by half a step and even.
  have hd' := hd.even (by rw [abs_of_nonneg (by linarith)]; linarith)
  have he' := he.even (by rw [abs_of_nonpos (by linarith)]; linarith)
  have hone : (d.mantissa : ℚ) = (e.mantissa + 1 : ℕ) := by
    push_cast
    linarith
  have hone : d.mantissa = e.mantissa + 1 := by exact_mod_cast hone
  omega

/-- **Nearest digits keep the order**, whatever their scales. If they have one scale, the difference
of the numbers is seen in whole steps. If one of them has fewer digits after the point, it has all
that fit, and the number of the other one is below anything that full digits stand for. -/
theorem Nearest.magnitude_le {d e : Decimal} {x y : ℚ} (hd : Nearest x d.mantissa d.scale)
    (he : Nearest y e.mantissa e.scale) (h : x ≤ y) : d.magnitude ≤ e.magnitude := by
  rcases lt_trichotomy d.scale e.scale with hlt | hscale | hlt
  · rcases hd.full with hexact | hlast | hfull
    · have hx : d.magnitude = x := by
        rw [magnitude, ← hexact, mul_div_cancel_right₀ _ (pow10_pos _).ne']
      exact he.le_of_le d (hx.trans_le h)
    · exact absurd e.scale_le (by omega)
    · -- The larger number would be beyond the limits at its scale.
      have hx : 0 ≤ x := by
        by_contra! hneg
        have hone := one_lt_bound
        linarith [mul_neg_of_neg_of_pos hneg (pow10_pos (d.scale + 1))]
      have hstep : pow10 (d.scale + 1) ≤ pow10 e.scale := pow10_le (by omega)
      have hup := mul_le_mul h hstep (pow10_pos _).le (hx.trans h)
      linarith [he.mul_pow10_lt]
  · rw [magnitude, magnitude, hscale]
    exact div_le_div_of_nonneg_right
      (Nat.cast_le.2 (hd.mantissa_le_of_scale_eq he h hscale)) (pow10_pos _).le
  · rcases he.full with hexact | hlast | hfull
    · have hy : e.magnitude = y := by
        rw [magnitude, ← hexact, mul_div_cancel_right₀ _ (pow10_pos _).ne']
      exact hd.ge_of_ge e (h.trans_eq hy.symm)
    · exact absurd d.scale_le (by omega)
    · -- Full digits are above every decimal of a larger scale.
      have hsmall := d.magnitude_mul_pow10_lt hlt
      have hlarge := capacity_le_of_full he.near hfull
      rw [e.mantissa_eq] at hlarge
      rw [pow10_succ] at hsmall
      refine le_of_mul_le_mul_right ?_ (pow10_pos e.scale)
      linarith

/-- **A decimal is the rounding of a number**: it stands for the nearest digits, with the sign of
the number. It need not have these digits itself, as 1.0 stands for the digits of 1. -/
def IsRounding (d : Decimal) (x : ℚ) : Prop :=
  ∃ e : Decimal, Nearest |x| e.mantissa e.scale
    ∧ d.value = if x < 0 then -e.magnitude else e.magnitude

/-- An operation that has found nearest digits, and puts a sign to them, has found the rounding. -/
theorem Nearest.isRounding {d : Decimal} {x : ℚ} (hx : 0 ≤ x)
    (h : Nearest x d.mantissa d.scale) : d.IsRounding (if d.negative then -x else x) := by
  refine ⟨d, ?_, ?_⟩
  · have habs : |if d.negative then -x else x| = x := by
      split
      · rw [abs_neg, abs_of_nonneg hx]
      · exact abs_of_nonneg hx
    rwa [habs]
  · rw [value_eq]
    cases d.negative with
    | false => rw [if_neg Bool.false_ne_true, if_neg Bool.false_ne_true, if_neg hx.not_gt]
    | true =>
      rw [if_pos rfl, if_pos rfl]
      rcases hx.eq_or_lt with rfl | hpos
      · -- Nothing but zero is nearest to zero.
        have hzero : d.magnitude ≤ 0 := by
          have hle := h.ge_of_ge zero zero.magnitude_nonneg
          norm_num [magnitude, zero] at hle ⊢
          exact hle
        rw [hzero.antisymm d.magnitude_nonneg]
        simp
      · rw [if_pos (neg_lt_zero.2 hpos)]

namespace IsRounding

variable {d e : Decimal} {x y : ℚ}

/-- A decimal is the rounding of its own number. -/
theorem self (d : Decimal) : d.IsRounding d.value := by
  refine ⟨d, .of_exact (by rw [d.abs_value, d.mantissa_eq]), ?_⟩
  split
  · next hneg => rw [← d.abs_value, abs_of_neg hneg, neg_neg]
  · next hnonneg => rw [← d.abs_value, abs_of_nonneg (not_lt.1 hnonneg)]

/-- Only the number matters that a decimal stands for. -/
theorem of_value_eq (h : d.IsRounding x) (heq : e.value = d.value) : e.IsRounding x := by
  obtain ⟨digits, hnearest, hvalue⟩ := h
  exact ⟨digits, hnearest, heq.trans hvalue⟩

/-- What is the rounding of a number rounds it. -/
theorem rounds (h : d.IsRounding x) : d.Rounds x := by
  obtain ⟨digits, hnearest, hvalue⟩ := h
  have hrounds := Nearest.rounds (d := { digits with negative := decide (x < 0) })
    (abs_nonneg x) hnearest
  rcases lt_or_ge x 0 with hneg | hnonneg
  · rw [decide_eq_true hneg, if_pos rfl, abs_of_neg hneg, neg_neg] at hrounds
    rw [if_pos hneg] at hvalue
    exact hrounds.of_value_eq (by rw [hvalue, value_eq]; rfl)
  · rw [decide_eq_false hnonneg.not_gt, if_neg Bool.false_ne_true,
      abs_of_nonneg hnonneg] at hrounds
    rw [if_neg hnonneg.not_gt] at hvalue
    exact hrounds.of_value_eq (by rw [hvalue, value_eq]; rfl)

/-- A number that has a rounding is within the limits. -/
theorem abs_lt (h : d.IsRounding x) : |x| < bound - 1 / 2 := by
  obtain ⟨digits, hnearest, -⟩ := h
  refine lt_of_le_of_lt ?_ hnearest.mul_pow10_lt
  exact le_mul_of_one_le_right (abs_nonneg x) (one_le_pow10 _)

/-- **Rounding keeps the order.** Of the signs there are four cases, two of which have the order the
other way round for the magnitudes. -/
theorem value_le (hd : d.IsRounding x) (he : e.IsRounding y) (h : x ≤ y) :
    d.value ≤ e.value := by
  obtain ⟨digits, hnearest, hvalue⟩ := hd
  obtain ⟨digits', hnearest', hvalue'⟩ := he
  rw [hvalue, hvalue']
  have hnonneg := digits.magnitude_nonneg
  have hnonneg' := digits'.magnitude_nonneg
  rcases lt_or_ge x 0 with hx | hx
  · rw [if_pos hx]
    rcases lt_or_ge y 0 with hy | hy
    · rw [if_pos hy, neg_le_neg_iff]
      rw [abs_of_neg hx] at hnearest
      rw [abs_of_neg hy] at hnearest'
      exact hnearest'.magnitude_le hnearest (neg_le_neg h)
    · rw [if_neg hy.not_gt]
      linarith
  · have hy := hx.trans h
    rw [if_neg hx.not_gt, if_neg hy.not_gt]
    rw [abs_of_nonneg hx] at hnearest
    rw [abs_of_nonneg hy] at hnearest'
    exact hnearest.magnitude_le hnearest' h

/-- **A number has one rounding**, since the order of a number with itself is kept both ways. -/
theorem value_eq (hd : d.IsRounding x) (he : e.IsRounding x) : d.value = e.value :=
  le_antisymm (hd.value_le he le_rfl) (he.value_le hd le_rfl)

end IsRounding

/-- **What an operation makes of its exact result**: the rounding of it, or nothing if it is too
large. The limit is half a step above the largest mantissa. What is below that is rounded down to
it, and what is half way would have to go up to an even number that does not fit. -/
def Answers (x : ℚ) : Option Decimal → Prop
  | none => bound - 1 / 2 ≤ |x|
  | some d => d.IsRounding x

namespace Answers

variable {x y : ℚ} {o o' : Option Decimal}

/-- A number that is too large has no answer, whatever its sign is. -/
theorem none_of_le {negative : Bool} (h : bound - 1 / 2 ≤ x) :
    Answers (if negative then -x else x) none := by
  have habs : |if negative then -x else x| = |x| := by
    split
    · exact abs_neg x
    · rfl
  exact (h.trans (le_abs_self x)).trans_eq habs.symm

/-- What is answered rounds the exact result. -/
theorem rounds {d : Decimal} (h : Answers x o) (ho : o = some d) : d.Rounds x := by
  rw [ho] at h
  exact IsRounding.rounds h

/-- So whether there is an answer is decided by the exact result. -/
theorem eq_none_iff (h : Answers x o) : o = none ↔ bound - 1 / 2 ≤ |x| := by
  cases o with
  | none => exact iff_of_true rfl h
  | some d => exact iff_of_false nofun (not_le.2 h.abs_lt)

/-- **Equal exact results have equal answers**, as numbers. Both fail or neither does. -/
theorem rel (h : Answers x o) (h' : Answers x o') :
    Option.Rel (fun d e => d.value = e.value) o o' := by
  cases o with
  | none =>
    rw [h'.eq_none_iff.2 h]
    exact .none
  | some d =>
    cases o' with
    | none => exact absurd h' (not_le.2 h.abs_lt)
    | some e => exact .some (h.value_eq h')

end Answers

end Decimal

/-! ## Halves go to the even side

Digits that do not fit are dropped by a division that rounds, and these are the facts about it. -/

/-- **A quotient that is rounded is off by half the divisor at most.** -/
theorem two_mul_le_divHalfEven (n : ℕ) {d : ℕ} (hd : 0 < d) :
    2 * n ≤ 2 * (divHalfEven n d * d) + d ∧ 2 * (divHalfEven n d * d) ≤ 2 * n + d := by
  have hdiv : n / d * d + n % d = n := by rw [Nat.mul_comm]; exact Nat.div_add_mod n d
  have hmod := Nat.mod_lt n hd
  unfold divHalfEven
  split
  · rw [Nat.add_mul]
    omega
  · omega

/-- As fractions, the rounded quotient is off by half at most. -/
theorem abs_divHalfEven_sub_le (n : ℕ) {d : ℕ} (hd : 0 < d) :
    |(divHalfEven n d : ℚ) - n / d| ≤ 1 / 2 := by
  obtain ⟨hlow, hhigh⟩ := two_mul_le_divHalfEven n hd
  have hpos : (0 : ℚ) < d := Nat.cast_pos.2 hd
  have hlow : (2 * n : ℚ) ≤ 2 * (divHalfEven n d * d) + d := by exact_mod_cast hlow
  have hhigh : (2 * (divHalfEven n d * d) : ℚ) ≤ 2 * n + d := by exact_mod_cast hhigh
  have hcancel : (n : ℚ) / d * d = n := div_mul_cancel₀ _ hpos.ne'
  rw [abs_le]
  constructor
  · refine le_of_mul_le_mul_right ?_ hpos
    rw [sub_mul, hcancel]
    linarith
  · refine le_of_mul_le_mul_right ?_ hpos
    rw [sub_mul, hcancel]
    linarith

/-- **A quotient at a tie is even.** The remainder is then half the divisor, and the code looks at
the last digit. -/
theorem divHalfEven_mod_two {n d : ℕ} (hd : 0 < d)
    (h : |(divHalfEven n d : ℚ) - n / d| = 1 / 2) : divHalfEven n d % 2 = 0 := by
  have hpos : (0 : ℚ) < d := Nat.cast_pos.2 hd
  have hcancel : (n : ℚ) / d * d = n := div_mul_cancel₀ _ hpos.ne'
  have htwice : 2 * (divHalfEven n d * d) = 2 * n + d ∨ 2 * (divHalfEven n d * d) + d = 2 * n := by
    rcases eq_or_eq_neg_of_abs_eq h with h | h
    · left
      have : (2 * (divHalfEven n d * d) : ℚ) = 2 * n + d := by
        rw [← hcancel, eq_add_of_sub_eq h]
        ring
      exact_mod_cast this
    · right
      have : (2 * (divHalfEven n d * d) + d : ℚ) = 2 * n := by
        rw [← hcancel, eq_add_of_sub_eq h]
        ring
      exact_mod_cast this
  have hdiv : n / d * d + n % d = n := by rw [Nat.mul_comm]; exact Nat.div_add_mod n d
  have hmod := Nat.mod_lt n hd
  unfold divHalfEven at htwice ⊢
  split
  · next hup =>
    rw [if_pos hup, Nat.add_mul] at htwice
    omega
  · next hdown =>
    rw [if_neg hdown] at htwice
    omega

/-- It is the quotient, or one more. -/
theorem divHalfEven_le_succ (n d : ℕ) : divHalfEven n d ≤ n / d + 1 := by
  unfold divHalfEven
  split <;> omega

/-- **Half a step above an odd number goes up.** This settles what happens above the largest
mantissa, which is odd. -/
theorem lt_divHalfEven_of_odd {n d c : ℕ} (hd : 0 < d) (hc : c % 2 = 1)
    (h : (2 * c + 1) * d ≤ 2 * n) : c < divHalfEven n d := by
  have hdiv : n / d * d + n % d = n := by rw [Nat.mul_comm]; exact Nat.div_add_mod n d
  have hmod := Nat.mod_lt n hd
  have hle : c ≤ n / d := by
    rw [Nat.le_div_iff_mul_le hd]
    rw [Nat.add_mul, Nat.mul_assoc] at h
    omega
  rcases Nat.lt_or_ge c (n / d) with hlt | hge
  · unfold divHalfEven
    split <;> omega
  · have heq : n / d = c := Nat.le_antisymm hge hle
    unfold divHalfEven
    rw [heq] at hdiv ⊢
    rw [Nat.add_mul, Nat.mul_assoc] at h
    rw [if_pos (by omega)]
    omega

end Tariff
