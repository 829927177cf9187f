import Mathlib.Algebra.Order.Floor.Semifield
import Mathlib.Data.Rat.Floor
import Tariff.Proofs.Division
import Tariff.Tax

/-!
# Tax without a sign and without a fault

The parts of a taxed amount are rounded and subtracted, and most of the sums and
differences are not checked. This module proves that of all of them **one can
fail**, and that none of the parts is ever below zero.

Both rest on the same few bounds. A tax that the amount contains is no more than the
amount, since the divisor is at least one, and stays no more when both are rounded
to money, because that keeps the order (`value_roundMoney_le`). A tax that is added
is no more than the sum, since it is a decimal itself and the sum rounds to no less.
So what is left is not below zero, and every difference is a difference of two
amounts of one sign. The fraction of a rate is at most a hundredth of the largest
decimal, so one can be added to it. There remains the sum of an amount and its tax,
which is at fault just where it is above the largest decimal
(`compute_eq_fault_iff`).
-/

namespace Tariff

namespace Decimal

/-! ## Money

An amount is rounded to money by going to two fraction digits, a half going up. Below this is the
same as taking the nearest number of cents. -/

/-- **The cents nearest to an amount**, a half going up. It is stated of fractions, so that it can
be compared for two amounts of different scales. -/
def cents (x : ℚ) : ℕ := ⌊x * 100 + 1 / 2⌋₊

theorem cents_mono {x y : ℚ} (h : x ≤ y) : cents x ≤ cents y := Nat.floor_mono (by linarith)

theorem pow10_two : pow10 2 = 100 := by
  rw [show (2 : ℤ) = (2 : ℕ) from rfl, pow10_natCast]
  norm_num

/-- What has two fraction digits or fewer is a number of cents already, and is left as it is. -/
theorem cents_magnitude_of_le {d : Decimal} (h : d.scale ≤ 2) :
    (cents d.magnitude : ℚ) = d.magnitude * 100 := by
  have hwhole := d.magnitude_mul_pow10 h
  rw [Nat.cast_ofNat, pow10_two] at hwhole
  unfold cents
  rw [hwhole, Nat.cast_inj, Nat.floor_eq_iff (by positivity)]
  constructor <;> linarith

/-- Where there are more, the code computes with whole numbers: half a step is added, and the digits
that are too many are cut off. This is the nearest number of cents. -/
theorem cents_magnitude_of_lt {d : Decimal} (h : 2 < d.scale) :
    cents d.magnitude
      = (d.mantissa + 10 ^ (d.scale - 2) / 2) / 10 ^ (d.scale - 2) := by
  have hsplit : pow10 d.scale = (10 ^ (d.scale - 2) : ℕ) * pow10 2 := by
    rw [← pow10_natCast, ← pow10_add]
    congr 1
    omega
  have hpos : (0 : ℚ) < (10 ^ (d.scale - 2) : ℕ) := Nat.cast_pos.2 (Nat.pow_pos (by decide))
  have heven : 10 ^ (d.scale - 2) / 2 * 2 = 10 ^ (d.scale - 2) :=
    Nat.div_mul_cancel (dvd_pow (by decide) (by omega))
  have hhalf : ((10 ^ (d.scale - 2) / 2 : ℕ) : ℚ) = (10 ^ (d.scale - 2) : ℕ) / 2 := by
    rw [eq_div_iff two_ne_zero]
    exact_mod_cast heven
  rw [← Nat.floor_div_eq_div (K := ℚ)]
  unfold cents magnitude
  rw [hsplit, pow10_two, Nat.cast_add, hhalf]
  congr 1
  field_simp

/-- A number of cents with fewer digits than the amount fits a decimal. -/
theorem cents_lt {d : Decimal} (h : 2 < d.scale) : cents d.magnitude < 2 ^ 96 := by
  have hten : 10 ≤ 10 ^ (d.scale - 2) := Nat.le_self_pow (by omega) 10
  have hmantissa := d.mantissa_lt
  rw [cents_magnitude_of_lt h]
  refine Nat.div_lt_of_lt_mul ?_
  omega

/-- What the code makes of an amount with more than two fraction digits. If it is not zero, but
rounds to no cents, it loses its sign. -/
theorem roundMoney_of_lt {d : Decimal} (h : 2 < d.scale) :
    d.roundMoney = ⟨d.negative && (d.isZero || cents d.magnitude != 0), cents d.magnitude, 2,
      cents_lt h, by decide⟩ := by
  rw [roundMoney, if_neg (by omega)]
  dsimp only
  rw [← cents_magnitude_of_lt h, ofParts?_of_lt (cents_lt h) (by decide), Option.getD_some]

/-- **Money is a whole number of cents**, of those nearest to the amount. -/
theorem magnitude_roundMoney (d : Decimal) : d.roundMoney.magnitude = cents d.magnitude / 100 := by
  rcases Nat.lt_or_ge 2 d.scale with hlt | hge
  · rw [roundMoney_of_lt hlt]
    unfold magnitude
    dsimp only
    rw [Nat.cast_ofNat, pow10_two]
  · rw [cents_magnitude_of_le hge, roundMoney, if_pos hge]
    simp

/-- Rounding gives no amount a sign. -/
theorem negative_of_roundMoney {d : Decimal} (h : d.roundMoney.negative = true) :
    d.negative = true := by
  rcases Nat.lt_or_ge 2 d.scale with hlt | hge
  · rw [roundMoney_of_lt hlt, Bool.and_eq_true] at h
    exact h.1
  · rwa [roundMoney, if_pos hge] at h

/-- An amount that is not below zero is rounded to its cents. -/
theorem value_roundMoney {d : Decimal} (h : 0 ≤ d.value) :
    d.roundMoney.value = cents d.value / 100 := by
  have hmagnitude := d.magnitude_roundMoney
  rw [← value_eq_magnitude h] at hmagnitude
  rw [value_eq, hmagnitude]
  split
  · next hneg =>
    -- Only a zero may carry the sign here.
    rw [value_eq, if_pos (negative_of_roundMoney hneg)] at h ⊢
    have hzero : d.magnitude = 0 := by linarith [d.magnitude_nonneg]
    rw [hzero, neg_zero]
    norm_num [cents]
  · rfl

theorem value_roundMoney_nonneg {d : Decimal} (h : 0 ≤ d.value) : 0 ≤ d.roundMoney.value := by
  rw [value_roundMoney h]
  positivity

/-- **Rounding to money keeps the order**, as the number of cents does. -/
theorem value_roundMoney_le {a b : Decimal} (ha : 0 ≤ a.value) (h : a.value ≤ b.value) :
    a.roundMoney.value ≤ b.roundMoney.value := by
  rw [value_roundMoney ha, value_roundMoney (ha.trans h)]
  have hcents : (cents a.value : ℚ) ≤ cents b.value := Nat.cast_le.2 (cents_mono h)
  linarith

/-! ## Rates

A rate is given in percent. Its hundredth, and one more than that, are both rounded, and neither
can fail. -/

/-- The decimals that the code divides by and adds to are the numbers that they are named for. -/
theorem value_hundred : hundred.value = 100 := by
  norm_num [value, hundred, signed, pow10_zero]

theorem value_one : one.value = 1 := by
  norm_num [value, one, signed, pow10_zero]

/-- The largest rate, as a fraction. It is a decimal, so no fraction of a rate is
rounded to more. -/
def largestFraction : Decimal := ⟨false, 2 ^ 96 - 1, 2, by decide, by decide⟩

theorem value_largestFraction : largestFraction.value = (bound - 1) / 100 := by
  have hbound : ((2 ^ 96 - 1 : ℕ) : ℚ) = bound - 1 := by
    rw [eq_sub_iff_add_eq]
    unfold bound
    exact_mod_cast (by decide : 2 ^ 96 - 1 + 1 = capacity)
  rw [value_eq, if_neg (by decide), magnitude, ← hbound]
  unfold largestFraction
  dsimp only
  rw [Nat.cast_ofNat, pow10_two]

/-- **Every rate has a fraction.** A hundredth of a decimal is never too large. How small it is
matters in the next step. -/
theorem exists_div_hundred (rate : Decimal) :
    ∃ fraction, rate.div hundred = some fraction ∧ |fraction.value| ≤ (bound - 1) / 100
      ∧ (0 ≤ rate.value → 0 ≤ fraction.value) := by
  have habs := rate.abs_value_le
  have hquotient : |rate.value / hundred.value| ≤ (bound - 1) / 100 := by
    rw [value_hundred, abs_div, abs_of_pos (by norm_num : (0 : ℚ) < 100)]
    linarith
  cases hfraction : rate.div hundred with
  | none =>
    have hlarge := bound_le_of_div_eq_none (by decide) hfraction
    linarith [one_lt_bound]
  | some fraction =>
    have hrounds := div_rounds (by decide) hfraction
    refine ⟨fraction, rfl, ?_, fun hrate => hrounds.nonneg ?_⟩
    · obtain ⟨hlow, hhigh⟩ := abs_le.1 hquotient
      have hle := hrounds.ge_of_ge largestFraction (by rwa [value_largestFraction])
      have hge := hrounds.le_of_le largestFraction.neg
        (by rwa [value_neg, value_largestFraction])
      rw [value_neg, value_largestFraction] at hge
      rw [value_largestFraction] at hle
      exact abs_le.2 ⟨hge, hle⟩
    · rw [value_hundred]
      linarith

/-- **Every rate can be added to one.** The sum would have to be above the largest decimal to fail,
and a fraction is at most a hundredth of that. -/
theorem exists_one_add {fraction : Decimal} (hnonneg : 0 ≤ fraction.value)
    (hle : |fraction.value| ≤ (bound - 1) / 100) :
    ∃ divisor, one.add fraction = some divisor ∧ 1 ≤ divisor.value := by
  cases hadd : one.add fraction with
  | none =>
    have hlarge := add_eq_none_iff.1 hadd
    have hsmall : 4 ≤ bound := by
      unfold bound
      exact_mod_cast (by decide : 4 ≤ capacity)
    rw [value_one, abs_of_nonneg (by linarith)] at hlarge
    rw [abs_of_nonneg hnonneg] at hle
    linarith
  | some divisor =>
    have hrounds := add_rounds hadd
    have hone := hrounds.le_of_le one (by rw [value_one]; linarith)
    rw [value_one] at hone
    exact ⟨divisor, rfl, hone⟩

/-- What is one or more is no divisor to refuse. -/
theorem isZero_eq_false_of_one_le {d : Decimal} (h : 1 ≤ d.value) : d.isZero = false := by
  rw [← Bool.not_eq_true, isZero_iff]
  linarith

/-- **A quotient by one or more** is no more than what is divided, also after it is rounded: what is
divided is a decimal, and the exact quotient is not above it. -/
theorem value_div_le {a b d : Decimal} (ha : 0 ≤ a.value) (hb : 1 ≤ b.value)
    (h : a.div b = some d) : 0 ≤ d.value ∧ d.value ≤ a.value := by
  have hrounds := div_rounds (isZero_eq_false_of_one_le hb) h
  exact ⟨hrounds.nonneg (div_nonneg ha (by linarith)), hrounds.ge_of_ge a (div_le_self ha hb)⟩

end Decimal

/-! ## Tax

The two modes are taken one after the other, and of each all sums and differences are gone
through. -/

namespace TaxBreakdown

open Decimal (bound isNegative_eq_false_iff)

/-- **No part of the amount is below zero.** -/
structure Nonneg (b : TaxBreakdown) : Prop where
  subtotal : Decimal.zero ≤ b.subtotal
  taxAmount : Decimal.zero ≤ b.taxAmount
  total : Decimal.zero ≤ b.total

variable {amount rate : Decimal}

/-- What is left of a total that the tax is a part of. Both are of one sign, so the difference is
not too large for a decimal. -/
theorem exists_rest {total taxAmount : Decimal} (htax : 0 ≤ taxAmount.value)
    (hle : taxAmount.value ≤ total.value) :
    ∃ rest, total.sub taxAmount = some rest ∧ Nonneg ⟨rest, taxAmount, total⟩ := by
  cases hsub : total.sub taxAmount with
  | none =>
    have hlarge := Decimal.sub_eq_none_iff.1 hsub
    have htotal := total.abs_value_lt
    rw [abs_of_nonneg (by linarith)] at hlarge htotal
    linarith
  | some rest =>
    have hrest := (Decimal.sub_rounds hsub).nonneg (by linarith)
    exact ⟨rest, rfl, Decimal.zero_le_iff.2 hrest, Decimal.zero_le_iff.2 htax,
      Decimal.zero_le_iff.2 (htax.trans hle)⟩

/-- **The parts of an amount that contains the tax**: there always are some, and the tax is no
more than the amount. -/
theorem exists_parts_inclusive (hamount : 0 ≤ amount.value) (hrate : 0 ≤ rate.value) :
    ∃ subtotal tax, parts amount rate .inclusive = .ok (subtotal, tax) ∧ 0 ≤ tax.value
      ∧ tax.value ≤ amount.value := by
  obtain ⟨fraction, hfraction, hle, hnonneg⟩ := rate.exists_div_hundred
  obtain ⟨divisor, hdivisor, hone⟩ := Decimal.exists_one_add (hnonneg hrate) hle
  have hsmall := amount.abs_value_lt
  rw [abs_of_nonneg hamount] at hsmall
  cases hdiv : amount.div divisor with
  | none =>
    have hlarge := Decimal.bound_le_of_div_eq_none (Decimal.isZero_eq_false_of_one_le hone) hdiv
    rw [abs_of_nonneg (div_nonneg hamount (by linarith))] at hlarge
    linarith [div_le_self hamount hone]
  | some subtotal =>
    obtain ⟨hsubtotal, hsubtotal'⟩ := Decimal.value_div_le hamount hone hdiv
    cases hsub : amount.sub subtotal with
    | none =>
      have hlarge := Decimal.sub_eq_none_iff.1 hsub
      rw [abs_of_nonneg (by linarith)] at hlarge
      linarith
    | some tax =>
      have hrounds := Decimal.sub_rounds hsub
      refine ⟨subtotal, tax, ?_, hrounds.nonneg (by linarith),
        hrounds.ge_of_ge amount (by linarith)⟩
      simp only [parts, hfraction, Fault.check, bind, Except.bind, hdivisor, hdiv, hsub]
      rfl

/-- **Tax that is contained always has a result**, whatever the amount and the rate are, if only
neither is below zero. -/
theorem exists_compute_inclusive (hamount : amount.isNegative = false)
    (hrate : rate.isNegative = false) :
    ∃ b, compute amount rate .inclusive = .ok b ∧ b.Nonneg := by
  obtain ⟨subtotal, tax, hparts, hnonneg, hle⟩ :=
    exists_parts_inclusive (isNegative_eq_false_iff.1 hamount) (isNegative_eq_false_iff.1 hrate)
  obtain ⟨rest, hrest, hb⟩ := exists_rest (Decimal.value_roundMoney_nonneg hnonneg)
    (Decimal.value_roundMoney_le hnonneg hle)
  refine ⟨_, ?_, hb⟩
  simp only [compute, hamount, hrate, hparts, bind, Except.bind, pure, Except.pure, hrest,
    Fault.check]
  rfl

/-- **Tax that is added** has a result, unless the product is too large, which is an error, or the
sum is, which is a fault. The product is checked in the code, and the sum is not. -/
theorem compute_exclusive (hamount : amount.isNegative = false)
    (hrate : rate.isNegative = false) :
    ∃ fraction, rate.div .hundred = some fraction ∧
      match amount.mul fraction with
      | none => compute amount rate .exclusive = .error (.error (.calculation (.tax amount rate)))
      | some tax =>
        if bound - 1 / 2 ≤ amount.roundMoney.value + tax.roundMoney.value then
          compute amount rate .exclusive = .error (.fault .addition)
        else ∃ b, compute amount rate .exclusive = .ok b ∧ b.Nonneg := by
  have hzero := isNegative_eq_false_iff.1 hamount
  obtain ⟨fraction, hfraction, -, hnonneg⟩ := rate.exists_div_hundred
  have hnonneg := hnonneg (isNegative_eq_false_iff.1 hrate)
  refine ⟨fraction, hfraction, ?_⟩
  cases hmul : amount.mul fraction with
  | none =>
    simp only [compute, hamount, hrate, parts, hfraction, Fault.check, bind, Except.bind, hmul]
    rfl
  | some tax =>
    have htax := (Decimal.mul_rounds hmul).nonneg (mul_nonneg hzero hnonneg)
    have hmoney := Decimal.value_roundMoney_nonneg hzero
    have hmoney' := Decimal.value_roundMoney_nonneg htax
    have hnone := Decimal.add_eq_none_iff (a := amount.roundMoney) (b := tax.roundMoney)
    rw [abs_of_nonneg (by linarith)] at hnone
    dsimp only
    split
    · next hlarge =>
      simp only [compute, hamount, hrate, parts, hfraction, hmul, Fault.check, bind, Except.bind,
        pure, Except.pure, hnone.2 hlarge]
      rfl
    · next hsmall =>
      obtain ⟨total, htotal⟩ := Option.ne_none_iff_exists'.1 fun h => hsmall (hnone.1 h)
      -- The tax is a decimal that the exact sum is no less than, so the total is not either.
      have hle := (Decimal.add_rounds htotal).le_of_le tax.roundMoney (by linarith)
      obtain ⟨rest, hrest, hb⟩ := exists_rest hmoney' hle
      refine ⟨_, ?_, hb⟩
      simp only [compute, hamount, hrate, parts, hfraction, hmul, Fault.check, bind, Except.bind,
        pure, Except.pure, htotal, hrest]
      rfl

/-- A rate below zero is refused first. -/
theorem compute_of_negative_rate {mode : TaxMode} (hrate : rate.isNegative = true) :
    compute amount rate mode = .error (.error (.invalid (.negativeRate rate))) := by
  rw [compute, hrate]
  rfl

theorem compute_of_negative_amount {mode : TaxMode} (hrate : rate.isNegative = false)
    (hamount : amount.isNegative = true) :
    compute amount rate mode = .error (.error (.invalid (.negativeAmount amount))) := by
  rw [compute, hrate, hamount]
  rfl

/-- **What becomes of an amount that is not below zero**: it has its parts, or one of three
things is told. -/
theorem compute_cases (hamount : amount.isNegative = false) (rate : Decimal) (mode : TaxMode) :
    (∃ b, compute amount rate mode = .ok b ∧ b.Nonneg)
      ∨ compute amount rate mode = .error (.error (.invalid (.negativeRate rate)))
      ∨ compute amount rate mode = .error (.error (.calculation (.tax amount rate)))
      ∨ (compute amount rate mode = .error (.fault .addition) ∧ mode = .exclusive) := by
  cases hrate : rate.isNegative with
  | true => exact .inr (.inl (compute_of_negative_rate hrate))
  | false =>
    cases mode with
    | inclusive => exact .inl (exists_compute_inclusive hamount hrate)
    | exclusive =>
      obtain ⟨fraction, -, h⟩ := compute_exclusive hamount hrate
      split at h
      · exact .inr (.inr (.inl h))
      · split at h
        · exact .inr (.inr (.inr ⟨h, rfl⟩))
        · exact .inl h

/-- **Where the computation of tax is at fault**: only where the tax is added, and amount and tax,
each rounded to money, have a sum above the largest decimal. All the other sums and differences that
are not checked have been seen to be within the limits. -/
theorem compute_eq_fault_iff (amount rate : Decimal) (mode : TaxMode) (f : Fault) :
    compute amount rate mode = .error (.fault f) ↔
      f = .addition ∧ mode = .exclusive ∧ amount.isNegative = false ∧ rate.isNegative = false
        ∧ ∃ fraction tax, rate.div .hundred = some fraction ∧ amount.mul fraction = some tax
          ∧ bound - 1 / 2 ≤ amount.roundMoney.value + tax.roundMoney.value := by
  cases hrate : rate.isNegative with
  | true => simp [compute_of_negative_rate hrate]
  | false =>
    cases hamount : amount.isNegative with
    | true => simp [compute_of_negative_amount hrate hamount]
    | false =>
      cases mode with
      | inclusive =>
        obtain ⟨b, hb, -⟩ := exists_compute_inclusive hamount hrate
        simp [hb]
      | exclusive =>
        obtain ⟨fraction, hfraction, h⟩ := compute_exclusive hamount hrate
        cases hmul : amount.mul fraction with
        | none =>
          simp only [hmul] at h
          simp [h, hfraction, hmul]
        | some tax =>
          simp only [hmul] at h
          split at h
          · next hlarge => simp [h, hfraction, hmul, hlarge, eq_comm, -tsub_le_iff_right, -one_div]
          · next hsmall =>
            obtain ⟨b, hb, -⟩ := h
            simp [hb, hfraction, hmul, hsmall, -tsub_le_iff_right, -one_div]

end TaxBreakdown

end Tariff
