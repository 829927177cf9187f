import Tariff.Proofs.Change
import Tariff.Proofs.Exactness
import Tariff.Proofs.Tax

/-!
# The parts of a taxed amount add up

The subtotal is what the tax leaves of the total, so subtotal and tax should give the
total again. This module proves that **they always do in the arithmetic of decimals**,
where the difference may have been rounded and the sum may be, and **that they do so
exactly while the total is below a hundredth of the bound** (`compute_adds_up`).

The two modes have different reasons. Where the tax is added, the total is a sum of
amount and tax, and the difference takes one of the summands away again: this is
`Decimal.exists_add_sub_eq`. Where the tax is contained, there is nothing to be
rounded (`Decimal.exists_rest_mul_pow10`). The tax has more fraction digits than the
total only if the amount before tax has them too, and so that amount, which is the
difference up to a half step, is not too large for them.
-/

namespace Tariff

namespace Decimal

/-! ## Money and cents

Money has two fraction digits at most. So sums and differences of money are exact where they are
small enough to have two. -/

/-- Money has two fraction digits at most. -/
theorem roundMoney_scale_le (d : Decimal) : d.roundMoney.scale ≤ 2 := by
  rcases Nat.lt_or_ge 2 d.scale with hlt | hge
  · rw [roundMoney_of_lt hlt]
  · rwa [roundMoney, if_pos hge]

/-- It differs from the amount by half a cent at most. -/
theorem abs_cents_sub_le {x : ℚ} (h : 0 ≤ x) : |(cents x : ℚ) - x * 100| ≤ 1 / 2 := by
  have hlow := Nat.sub_one_lt_floor (x * 100 + 1 / 2)
  have hhigh := Nat.floor_le (show 0 ≤ x * 100 + 1 / 2 by linarith)
  unfold cents
  rw [abs_le]
  constructor <;> linarith

/-- A decimal is below the bound at its own scale, and so at any coarser one. -/
theorem value_mul_pow10_le {b : Decimal} {s : ℕ} (hb : 0 ≤ b.value) (h : s ≤ b.scale) :
    b.value * pow10 s ≤ bound - 1 := by
  have hle : b.value * pow10 s ≤ b.value * pow10 b.scale :=
    mul_le_mul_of_nonneg_left (pow10_le (by omega)) hb
  rw [← mantissa_eq_value_mul hb] at hle
  exact hle.trans b.mantissa_le

/-- **Amounts of money add up exactly below a hundredth of the bound**, since there the sum fits
with two fraction digits. -/
theorem value_add_of_lt {a x t : Decimal} (ha : 0 ≤ a.value) (hx : 0 ≤ x.value)
    (hascale : a.scale ≤ 2) (hxscale : x.scale ≤ 2) (h : a.add x = some t)
    (hsmall : t.value < bound / 100) : t.value = a.value + x.value := by
  have hfits := add_fits h (add_nonneg ha hx)
  have htscale : t.scale ≤ 2 := (add_scale_le h).trans (Nat.max_le.2 ⟨hascale, hxscale⟩)
  obtain ⟨p, hp⟩ := exists_mul_pow10_eq ha hascale
  obtain ⟨q, hq⟩ := exists_mul_pow10_eq hx hxscale
  have hsum : (a.value + x.value) * pow10 (2 : ℕ) = (p + q : ℕ) := by
    rw [add_mul, hp, hq, Nat.cast_add]
  rcases Nat.lt_or_ge (p + q) capacity with hlt | hge
  · exact (add_rounds h).value_eq_of_mul_pow10 hsum hlt (by decide)
  · -- The largest amount in cents is no more than the sum, so it is the total.
    exfalso
    have hbound : bound ≤ (p + q : ℕ) := not_lt.1 fun h => hge.not_gt (lt_capacity_iff.2 h)
    rw [← hsum, Nat.cast_ofNat, pow10_two] at hbound
    have hlargest := (add_rounds h).le_of_le largestFraction (by
      rw [value_largestFraction]
      linarith)
    rw [value_largestFraction] at hlargest
    obtain ⟨n, hn⟩ := exists_mul_pow10_eq hfits.nonneg htscale
    have hcents : (n : ℚ) = bound - 1 := by
      rw [Nat.cast_ofNat, pow10_two] at hn
      have hlow : ¬n + 1 < capacity := by
        rw [lt_capacity_iff, not_lt]
        push_cast
        linarith
      have hhigh : n < capacity := by
        rw [lt_capacity_iff]
        linarith
      have hcapacity : n + 1 = capacity := by omega
      unfold bound
      rw [← hcapacity, Nat.cast_succ, add_sub_cancel_right]
    rcases htscale.lt_or_eq with hless | hscale
    · exact cast_ne_bound_sub_one (mod_two_of_scale_lt hfits.nonneg hless hn) hcents
    · have hnear := (abs_le.1 hfits.near).1
      rw [hscale, Nat.cast_ofNat, pow10_two] at hnear
      linarith [t.mantissa_le]

/-- A difference is a whole number of the steps that both have. -/
theorem exists_sub_mul_pow10_eq {a b : Decimal} {s : ℕ} (hb : 0 ≤ b.value)
    (hle : b.value ≤ a.value) (has : a.scale ≤ s) (hbs : b.scale ≤ s) :
    ∃ n : ℕ, (a.value - b.value) * pow10 s = n := by
  obtain ⟨p, hp⟩ := exists_mul_pow10_eq (hb.trans hle) has
  obtain ⟨q, hq⟩ := exists_mul_pow10_eq hb hbs
  have hqp : (q : ℚ) ≤ p := by
    rw [← hp, ← hq]
    exact mul_le_mul_of_nonneg_right hle (pow10_pos _).le
  refine ⟨p - q, ?_⟩
  rw [sub_mul, hp, hq, Nat.cast_sub (by exact_mod_cast hqp)]

section Contained

variable {amount subtotal tax : Decimal}

/-- **A contained tax with more fraction digits than the total** leaves no more than fits with them:
the amount before tax has as many, and differs by half a step. -/
theorem rest_mul_pow10_lt (hsubtotal : 0 ≤ subtotal.value) (hle : subtotal.value ≤ amount.value)
    (h : amount.sub subtotal = some tax) (hscale : amount.scale < tax.roundMoney.scale) :
    (amount.value - tax.roundMoney.value) * pow10 tax.roundMoney.scale < bound := by
  have hfits := sub_fits h (by linarith)
  have htaxscale := sub_scale_le h
  have hnear := (abs_le.1 hfits.near).1
  rw [mantissa_eq_value_mul hfits.nonneg] at hnear
  rcases Nat.lt_or_ge 2 tax.scale with hlong | hshort
  · -- The tax is rounded to cents, which moves it by half a cent at most.
    have htwo : tax.roundMoney.scale = 2 := by rw [roundMoney_of_lt hlong]
    have hsmall := value_mul_pow10_le hsubtotal (s := 2 + 1) (by omega)
    have hcents := (abs_le.1 (abs_cents_sub_le hfits.nonneg)).1
    have hvalue := value_roundMoney hfits.nonneg
    have hone := one_le_pow10 tax.scale
    have hdrift : amount.value - subtotal.value - tax.value ≤ 1 / 2 := by
      refine le_of_mul_le_mul_right ?_ (pow10_pos tax.scale)
      rw [sub_mul]
      linarith
    rw [Nat.cast_add, Nat.cast_one, pow10_succ, Nat.cast_ofNat, pow10_two] at hsmall
    rw [htwo, Nat.cast_ofNat, pow10_two]
    linarith [bound_eq]
  · -- The tax is in cents already.
    have hround : tax.roundMoney = tax := if_pos hshort
    rw [hround] at hscale ⊢
    have hsmall := value_mul_pow10_le hsubtotal (s := tax.scale) (by omega)
    rw [sub_mul] at hnear ⊢
    linarith

/-- **What a contained tax leaves of the total is a decimal**, so that the difference is not
rounded. If the tax has no more fraction digits than the total, it is at the scale of the total;
otherwise it is at that of the tax, where it fits by the lemma above. -/
theorem exists_rest_mul_pow10 (hsubtotal : 0 ≤ subtotal.value) (hle : subtotal.value ≤ amount.value)
    (h : amount.sub subtotal = some tax) :
    ∃ n s : ℕ, (amount.roundMoney.value - tax.roundMoney.value) * pow10 s = n
      ∧ n < capacity ∧ s ≤ 28 := by
  have htax : 0 ≤ tax.value := (sub_fits h (by linarith)).nonneg
  have hnonneg := value_roundMoney_nonneg htax
  have hless : tax.roundMoney.value ≤ amount.roundMoney.value :=
    value_roundMoney_le htax ((sub_rounds h).ge_of_ge amount (by linarith))
  rcases Nat.lt_or_ge amount.roundMoney.scale tax.roundMoney.scale with hmore | hge
  · -- The tax has more fraction digits than the total, so the total is not rounded to cents.
    have hround : amount.roundMoney = amount := by
      refine if_pos (Nat.le_of_not_lt fun hlt => ?_)
      rw [roundMoney_of_lt hlt] at hmore
      exact absurd hmore (Nat.not_lt.2 tax.roundMoney_scale_le)
    obtain ⟨n, hn⟩ := exists_sub_mul_pow10_eq hnonneg hless hmore.le le_rfl
    refine ⟨n, _, hn, lt_capacity_iff.2 ?_, tax.roundMoney.scale_le⟩
    rw [hround] at hn hmore
    rw [← hn]
    exact rest_mul_pow10_lt hsubtotal hle h hmore
  · -- It has not, and what is left has no more digits than the total.
    obtain ⟨n, hn⟩ := exists_sub_mul_pow10_eq hnonneg hless le_rfl hge
    refine ⟨n, _, hn, lt_capacity_iff.2 ?_, amount.roundMoney.scale_le⟩
    have hmantissa := mantissa_eq_value_mul (hnonneg.trans hless)
    have hpart := mul_nonneg hnonneg (pow10_pos amount.roundMoney.scale).le
    rw [sub_mul] at hn
    linarith [amount.roundMoney.mantissa_le]

end Contained

end Decimal

namespace TaxBreakdown

open Decimal (bound isNegative_eq_false_iff sameNumber_iff)

variable {amount rate : Decimal} {b : TaxBreakdown}

/-! ## What tax is computed from

The computation is opened once, into one equation for each line of it. All that follows is
arithmetic. -/

/-- An operation that is not checked has the result that it has, or is at fault. -/
theorem check_eq_ok_iff {α : Type} {fault : Fault} {result : Option α} {a : α} :
    fault.check result = .ok a ↔ result = some a := by
  cases result with
  | none => simp [Fault.check]
  | some a => simp [Fault.check]

/-- **What has tax is not below zero**, and neither is the rate. -/
theorem isNegative_of_compute {mode : TaxMode} (h : compute amount rate mode = .ok b) :
    amount.isNegative = false ∧ rate.isNegative = false := by
  cases hrate : rate.isNegative with
  | true =>
    rw [compute_of_negative_rate hrate] at h
    cases h
  | false =>
    cases hamount : amount.isNegative with
    | true =>
      rw [compute_of_negative_amount hrate hamount] at h
      cases h
    | false => exact ⟨rfl, rfl⟩

/-- **What tax that is added is computed from**, one equation for each line of the code. -/
theorem exists_of_compute_exclusive (h : compute amount rate .exclusive = .ok b) :
    ∃ fraction tax, rate.div .hundred = some fraction ∧ amount.mul fraction = some tax
      ∧ b.taxAmount = tax.roundMoney ∧ amount.roundMoney.add b.taxAmount = some b.total
      ∧ b.total.sub b.taxAmount = some b.subtotal := by
  obtain ⟨hamount, hrate⟩ := isNegative_of_compute h
  simp only [compute, hamount, hrate, parts, Bool.false_eq_true, if_false, bind_eq_ok_iff,
    check_eq_ok_iff] at h
  obtain ⟨_, ⟨fraction, hfraction, tax, htax, hparts⟩, total, htotal, rest, hrest, hb⟩ := h
  cases hparts
  cases hb
  split at htax
  · next hmul =>
    cases htax
    exact ⟨fraction, tax, hfraction, hmul, rfl, htotal, hrest⟩
  · cases htax

/-- **What tax that is contained is computed from.** The total is the amount, and not a sum. -/
theorem exists_of_compute_inclusive (h : compute amount rate .inclusive = .ok b) :
    ∃ fraction divisor subtotal tax, rate.div .hundred = some fraction
      ∧ Decimal.one.add fraction = some divisor ∧ amount.div divisor = some subtotal
      ∧ amount.sub subtotal = some tax ∧ b.taxAmount = tax.roundMoney
      ∧ b.total = amount.roundMoney ∧ b.total.sub b.taxAmount = some b.subtotal := by
  obtain ⟨hamount, hrate⟩ := isNegative_of_compute h
  simp only [compute, hamount, hrate, parts, Bool.false_eq_true, if_false, bind_eq_ok_iff,
    check_eq_ok_iff] at h
  obtain ⟨_, ⟨fraction, hfraction, divisor, hdivisor, subtotal, hsubtotal, tax, htax, hparts⟩,
    total, htotal, rest, hrest, hb⟩ := h
  cases hparts
  cases htotal
  cases hb
  split at hsubtotal
  · next hdiv =>
    cases hsubtotal
    exact ⟨fraction, divisor, subtotal, tax, hfraction, hdivisor, hdiv, htax, rfl, rfl, hrest⟩
  · cases hsubtotal

/-! ## The identity

There is a lemma for each mode, and the two are put together at the end. -/

/-- **An amount before tax** is one of the amount that contains the tax, and no more than it. -/
theorem before_tax_le {fraction divisor subtotal : Decimal} (hamount : 0 ≤ amount.value)
    (hrate : 0 ≤ rate.value) (hfraction : rate.div .hundred = some fraction)
    (hdivisor : Decimal.one.add fraction = some divisor)
    (hsubtotal : amount.div divisor = some subtotal) :
    0 ≤ subtotal.value ∧ subtotal.value ≤ amount.value := by
  obtain ⟨fraction', hfraction', hsmall, hnonneg⟩ := rate.exists_div_hundred
  obtain rfl : fraction = fraction' := Option.some.inj (hfraction.symm.trans hfraction')
  obtain ⟨divisor', hdivisor', hone⟩ := Decimal.exists_one_add (hnonneg hrate) hsmall
  obtain rfl : divisor = divisor' := Option.some.inj (hdivisor.symm.trans hdivisor')
  exact Decimal.value_div_le hamount hone hsubtotal

/-- **What a contained tax leaves is exact**, at any size of the amount. -/
theorem subtotal_add_of_compute_inclusive (h : compute amount rate .inclusive = .ok b) :
    b.subtotal.value + b.taxAmount.value = b.total.value := by
  obtain ⟨hamount, hrate⟩ := isNegative_of_compute h
  rw [isNegative_eq_false_iff] at hamount hrate
  obtain ⟨fraction, divisor, subtotal, tax, hfraction, hdivisor, hdiv, hsub, htax, htotal, hrest⟩ :=
    exists_of_compute_inclusive h
  obtain ⟨hsubtotal, hle⟩ := before_tax_le hamount hrate hfraction hdivisor hdiv
  obtain ⟨n, s, hn, hlt, hs⟩ := Decimal.exists_rest_mul_pow10 hsubtotal hle hsub
  rw [← htax, ← htotal] at hn
  have hexact := (Decimal.sub_rounds hrest).value_eq_of_mul_pow10 hn hlt hs
  linarith

/-- The amount and the tax that is added to it are money, and not below zero. -/
theorem money_of_compute_exclusive (h : compute amount rate .exclusive = .ok b) :
    0 ≤ amount.roundMoney.value ∧ 0 ≤ b.taxAmount.value ∧ b.taxAmount.scale ≤ 2 := by
  obtain ⟨hamount, hrate⟩ := isNegative_of_compute h
  rw [isNegative_eq_false_iff] at hamount hrate
  obtain ⟨fraction, tax, hfraction, hmul, htax, -, -⟩ := exists_of_compute_exclusive h
  obtain ⟨fraction', hfraction', -, hnonneg⟩ := rate.exists_div_hundred
  obtain rfl : fraction = fraction' := Option.some.inj (hfraction.symm.trans hfraction')
  rw [htax]
  exact ⟨Decimal.value_roundMoney_nonneg hamount,
    Decimal.value_roundMoney_nonneg
      ((Decimal.mul_rounds hmul).nonneg (mul_nonneg hamount (hnonneg hrate))),
    tax.roundMoney_scale_le⟩

/-- **What an added tax leaves is the amount**, while the total is below a hundredth of the
bound. -/
theorem subtotal_of_compute_exclusive (h : compute amount rate .exclusive = .ok b)
    (hsmall : b.total.value < bound / 100) :
    b.total.value = amount.roundMoney.value + b.taxAmount.value
      ∧ b.subtotal.value = amount.roundMoney.value := by
  obtain ⟨hamount, htax, hscale⟩ := money_of_compute_exclusive h
  obtain ⟨-, -, -, -, -, htotal, hrest⟩ := exists_of_compute_exclusive h
  have hsum := Decimal.value_add_of_lt hamount htax amount.roundMoney_scale_le hscale htotal hsmall
  have hrounds := Decimal.sub_rounds hrest
  rw [hsum, add_sub_cancel_right] at hrounds
  exact ⟨hsum, hrounds.value_eq⟩

/-- **The parts of a taxed amount add up**: always in the arithmetic of decimals, and exactly, in
cents, and to the amount given while the total is below a hundredth of the bound.

Above that the cents of a total need not fit. Then the sum of amount and tax may be rounded, and so
may the difference that gives the subtotal; but adding the tax to this rounds to the total again,
which is the first part. -/
theorem compute_adds_up {mode : TaxMode} (h : compute amount rate mode = .ok b) :
    (∃ sum, b.subtotal.add b.taxAmount = some sum ∧ sum.SameNumber b.total)
      ∧ (b.total.value < bound / 100 →
        b.subtotal.value + b.taxAmount.value = b.total.value
          ∧ b.subtotal.scale ≤ 2 ∧ b.taxAmount.scale ≤ 2 ∧ b.total.scale ≤ 2
          ∧ match mode with
            | .exclusive => b.subtotal.SameNumber amount.roundMoney
            | .inclusive => b.total.SameNumber amount.roundMoney) := by
  cases mode with
  | exclusive =>
    obtain ⟨hamount, htax, htaxscale⟩ := money_of_compute_exclusive h
    obtain ⟨-, -, -, -, -, htotal, hrest⟩ := exists_of_compute_exclusive h
    have htotalscale : b.total.scale ≤ 2 :=
      (Decimal.add_scale_le htotal).trans (Nat.max_le.2 ⟨amount.roundMoney_scale_le, htaxscale⟩)
    refine ⟨?_, fun hsmall => ?_⟩
    · obtain ⟨sum, hsum, hvalue⟩ := Decimal.exists_add_sub_eq hamount htax htotal hrest
      exact ⟨sum, hsum, sameNumber_iff.2 hvalue⟩
    · obtain ⟨hexact, hsubtotal⟩ := subtotal_of_compute_exclusive h hsmall
      refine ⟨by linarith, ?_, htaxscale, htotalscale, sameNumber_iff.2 hsubtotal⟩
      exact (Decimal.sub_scale_le hrest).trans (Nat.max_le.2 ⟨htotalscale, htaxscale⟩)
  | inclusive =>
    obtain ⟨-, -, -, tax, -, -, -, -, htax, htotal, hrest⟩ := exists_of_compute_inclusive h
    have hexact := subtotal_add_of_compute_inclusive h
    have htaxscale : b.taxAmount.scale ≤ 2 := by
      rw [htax]
      exact tax.roundMoney_scale_le
    have htotalscale : b.total.scale ≤ 2 := by
      rw [htotal]
      exact amount.roundMoney_scale_le
    refine ⟨?_, fun _ => ⟨hexact, ?_, htaxscale, htotalscale, ?_⟩⟩
    · obtain ⟨sum, hsum, hvalue⟩ := Decimal.exists_add_eq hexact
      exact ⟨sum, hsum, sameNumber_iff.2 hvalue⟩
    · exact (Decimal.sub_scale_le hrest).trans (Nat.max_le.2 ⟨htotalscale, htaxscale⟩)
    · rw [htotal]
      exact sameNumber_iff.2 rfl

/-- The tax on 99.995, which is half way between two cents, at 7.5 percent: 100.00 and 7.50 give
107.50. -/
theorem compute_adds_up_of_half_cent : ∃ amount rate b,
    amount = ⟨false, 99995, 3, by decide, by decide⟩ ∧ rate = ⟨false, 75, 1, by decide, by decide⟩
    ∧ b = ⟨⟨false, 10000, 2, by decide, by decide⟩, ⟨false, 750, 2, by decide, by decide⟩,
      ⟨false, 10750, 2, by decide, by decide⟩⟩
    ∧ compute amount rate .exclusive = .ok b
    ∧ (∃ sum, b.subtotal.add b.taxAmount = some sum ∧ sum.SameNumber b.total)
    ∧ b.total.value < bound / 100
    ∧ b.subtotal.value + b.taxAmount.value = b.total.value
    ∧ b.subtotal.SameNumber amount.roundMoney := by
  refine ⟨_, _, _, rfl, rfl, rfl, ?_⟩
  generalize hamount : (⟨false, 99995, 3, _, _⟩ : Decimal) = amount
  generalize hrate : (⟨false, 75, 1, _, _⟩ : Decimal) = rate
  generalize hb : (⟨_, _, _⟩ : TaxBreakdown) = b
  have hcompute : compute amount rate .exclusive = .ok b := by
    subst hamount hrate hb
    rfl
  have hsmall : b.total.value < bound / 100 := by
    subst hb
    norm_num [Decimal.value, Decimal.signed, Decimal.pow10_two, bound, Decimal.capacity]
  obtain ⟨hsum, hexact⟩ := compute_adds_up hcompute
  obtain ⟨hadds, -, -, -, hsame⟩ := hexact hsmall
  exact ⟨hcompute, hsum, hsmall, hadds, hsame⟩

-- Above a hundredth of the bound the cents of the total do not fit, and the subtotal is not the
-- amount any more. It still adds up with the tax.
example : compute Decimal.largestFraction ⟨false, 50, 0, by decide, by decide⟩ .exclusive
    = .ok ⟨⟨false, 79228162514264337593543950332, 2, by decide, by decide⟩,
      ⟨false, 39614081257132168796771975168, 2, by decide, by decide⟩,
      ⟨false, 11884224377139650639031592550, 1, by decide, by decide⟩⟩ := by
  rfl

end TaxBreakdown

end Tariff
