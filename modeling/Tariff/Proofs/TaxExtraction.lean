import Tariff.Proofs.TaxIdentity

/-!
# Extracting the tax that was added

Tax that is added to an amount is in the total, so it can be extracted again. The two
computations have nothing in common: the one multiplies by the rate, the other divides
by one more than the rate and subtracts, and in between the tax has been rounded to
cents. This module proves that **for the amounts and rates of practice they are
inverse** (`exists_compute_inclusive_eq`).

Rounding the tax to cents moves the total by half a cent at most, and dividing by one
more than the rate makes less of that (`abs_extracted_sub_le`): at the smallest rate,
a ten-thousandth of a percent, it is half a cent less a millionth of it. The quotient
and the difference are rounded as well, but to ten fraction digits at least
(`abs_computed_sub_le`), which is not enough to reach the half cent. So the nearest
cent is the one that was added (`Decimal.cents_eq_of_abs_lt`). All else that is
computed on the way is exact.
-/

namespace Tariff

namespace Decimal

/-! ## Digits

Numbers of cents and of millionths are whole numbers. They are small here, and so nearly everything
that is computed of them is exact. -/

/-- **A decimal has at most `s` fraction digits**, not counting zeros at the end. Its scale may
be larger. -/
def HasDigits (d : Decimal) (s : ℕ) : Prop := ∃ n : ℤ, d.value * pow10 s = n

/-- The digits of a decimal within a range, as a natural number with a bound. -/
theorem HasDigits.exists_le {d : Decimal} {s m : ℕ} (h : d.HasDigits s) (hd : 0 ≤ d.value)
    (hle : d.value ≤ m) : ∃ n : ℕ, d.value * pow10 s = n ∧ n ≤ m * 10 ^ s := by
  obtain ⟨z, hz⟩ := h
  have hnonneg : 0 ≤ z := by
    have : (0 : ℚ) ≤ z := by
      rw [← hz]
      exact mul_nonneg hd (pow10_pos s).le
    exact_mod_cast this
  obtain ⟨n, rfl⟩ := Int.eq_ofNat_of_zero_le hnonneg
  refine ⟨n, hz, ?_⟩
  have hle := mul_le_mul_of_nonneg_right hle (pow10_pos s).le
  rw [hz, pow10_natCast] at hle
  exact_mod_cast hle

/-- **A decimal that rounds a small number is near to it**, by less than a step at any scale at
which the number fits. The two whole numbers of steps on either side of it are decimals, and none of
them lies between the number and its rounding. -/
theorem Rounds.abs_sub_le {d : Decimal} {x : ℚ} (h : d.Rounds x) {s : ℕ} (hs : s ≤ 28)
    (hx : 0 ≤ x) (hsmall : x * pow10 s + 1 < bound) : |d.value - x| ≤ 1 / pow10 s := by
  have hpos := pow10_pos s
  have hlow := Nat.floor_le (mul_nonneg hx hpos.le)
  have hhigh := Nat.lt_floor_add_one (x * pow10 s)
  obtain ⟨a, ha⟩ := exists_value_eq (n := ⌊x * pow10 s⌋₊) (s := s)
    (lt_capacity_iff.2 (by linarith)) hs
  obtain ⟨b, hb⟩ := exists_value_eq (n := ⌊x * pow10 s⌋₊ + 1) (s := s)
    (lt_capacity_iff.2 (by push_cast; linarith)) hs
  have hax : a.value ≤ x := by rwa [ha, div_le_iff₀ hpos]
  have hxb : x ≤ b.value := by
    rw [hb, le_div_iff₀ hpos, Nat.cast_succ]
    exact hhigh.le
  have hstep : b.value = a.value + 1 / pow10 s := by
    rw [ha, hb, Nat.cast_succ, add_div]
  have hda := h.le_of_le a hax
  have hdb := h.ge_of_ge b hxb
  rw [abs_le]
  constructor <;> linarith

/-- **The cents of what is less than half a cent away.** -/
theorem cents_eq_of_abs_lt {x : ℚ} {n : ℕ} (h : |x * 100 - n| < 1 / 2) : cents x = n := by
  obtain ⟨hlow, hhigh⟩ := abs_lt.1 h
  unfold cents
  rw [Nat.floor_eq_iff (by linarith [Nat.cast_nonneg (α := ℚ) n])]
  constructor <;> linarith

/-- **Money in cents** is rounded to itself, at whatever scale it is written. -/
theorem value_roundMoney_cents {d : Decimal} {n : ℕ} (h : d.value = n / 100) :
    d.roundMoney.value = n / 100 := by
  have hcents : cents d.value = n := by
    refine cents_eq_of_abs_lt ?_
    rw [h, div_mul_cancel₀ _ (by norm_num), sub_self]
    norm_num
  rw [value_roundMoney (by rw [h]; positivity), hcents]

end Decimal

namespace TaxBreakdown

open Decimal (bound isNegative_eq_false_iff sameNumber_iff)

variable {amount rate : Decimal}

/-- **What is extracted is nearer than half a cent** to the tax that was added, before anything but
that tax is rounded. `a` is the amount, `x` its tax in cents and `ρ` the fraction of the rate. The
error of `x` is divided by one more than `ρ`, which is at least a millionth above one. -/
theorem abs_extracted_sub_le {a x ρ : ℚ} (hx : |a * ρ - x| ≤ 1 / 200)
    (hρ : 1 / 10 ^ 6 ≤ ρ) :
    |(a + x) - (a + x) / (1 + ρ) - x| ≤ 1 / 200 - 1 / 10 ^ 9 := by
  have hpos : 0 < 1 + ρ := by linarith [show (0 : ℚ) < 1 / 10 ^ 6 by norm_num]
  have heq : (a + x) - (a + x) / (1 + ρ) - x = (a * ρ - x) / (1 + ρ) := by
    field_simp
    ring
  rw [heq, abs_div, abs_of_pos hpos, div_le_iff₀ hpos]
  have hgrow : (1 / 200 - 1 / 10 ^ 9) * (1 + 1 / 10 ^ 6) ≤ (1 / 200 - 1 / 10 ^ 9) * (1 + ρ) := by
    refine mul_le_mul_of_nonneg_left (by linarith) (by norm_num)
  refine hx.trans (le_trans ?_ hgrow)
  norm_num

/-- **What is computed of the tax in a total is near to it**, though the quotient is rounded and the
difference may be. Numbers of this size have at least ten fraction digits. -/
theorem abs_computed_sub_le {total divisor before tax : Decimal} (htotal : 0 ≤ total.value)
    (hlarge : total.value ≤ 2 * 10 ^ 16) (hone : 1 ≤ divisor.value)
    (hbefore : total.div divisor = some before) (htax : total.sub before = some tax) :
    |tax.value - (total.value - total.value / divisor.value)| ≤ 2 / 10 ^ 10 := by
  obtain ⟨hbefore', hle'⟩ := Decimal.value_div_le htotal hone hbefore
  have hle : total.value / divisor.value ≤ total.value := div_le_self htotal hone
  have hten : pow10 (10 : ℕ) = 10 ^ 10 := by
    rw [pow10_natCast]
    norm_num
  have hquotient : |before.value - total.value / divisor.value| ≤ 1 / pow10 (10 : ℕ) := by
    refine (Decimal.div_rounds (Decimal.isZero_eq_false_of_one_le hone) hbefore).abs_sub_le
      (by decide) (div_nonneg htotal (by linarith)) ?_
    rw [hten, Decimal.bound_eq]
    linarith
  have hdifference : |tax.value - (total.value - before.value)| ≤ 1 / pow10 (10 : ℕ) := by
    refine (Decimal.sub_rounds htax).abs_sub_le (by decide) (by linarith) ?_
    rw [hten, Decimal.bound_eq]
    linarith
  rw [hten, abs_le] at hquotient hdifference
  rw [abs_le]
  constructor <;> linarith

/-! ## There and back

The bounds are put together: what is extracted differs from a whole number of cents by less than
half a cent. -/

section

variable {n k : ℕ}

/-- How large the tax is, and how many cents it has. These bounds are what every later step uses to
see that its numbers fit. -/
theorem product_le (hn : n ≤ 10 ^ 17) (hk : k ≤ 10 ^ 7) :
    (n / 100 * (k / 10 ^ 6) : ℚ) ≤ 10 ^ 16
      ∧ (Decimal.cents (n / 100 * (k / 10 ^ 6)) : ℚ) ≤ 10 ^ 18 + 1 := by
  have hn : (n : ℚ) ≤ 10 ^ 17 := by exact_mod_cast hn
  have hk : (k : ℚ) ≤ 10 ^ 7 := by exact_mod_cast hk
  have hle : (n / 100 * (k / 10 ^ 6) : ℚ) ≤ 10 ^ 15 * 10 :=
    mul_le_mul (by linarith) (by linarith) (by positivity) (by positivity)
  have hcents := (abs_le.1 (Decimal.abs_cents_sub_le
    (show (0 : ℚ) ≤ n / 100 * (k / 10 ^ 6) by positivity))).2
  exact ⟨by linarith, by linarith⟩

/-- The tax of a sum with the rounded tax is nearer than half a cent to the rounded tax. -/
theorem abs_extracted_cents_sub_le {t : ℕ} (ht : t = Decimal.cents (n / 100 * (k / 10 ^ 6))) :
    |(n / 100 + t / 100 : ℚ) - (n / 100 + t / 100) / (1 + k / 10 ^ 6) - t / 100|
      ≤ 1 / 200 - 1 / 10 ^ 9 := by
  rcases Nat.eq_zero_or_pos k with rfl | hpos
  · -- No tax at all.
    obtain rfl : t = 0 := by
      rw [ht]
      norm_num [Decimal.cents]
    norm_num
  · have hone : (1 : ℚ) ≤ k := by exact_mod_cast hpos
    have hcents := Decimal.abs_cents_sub_le (show (0 : ℚ) ≤ n / 100 * (k / 10 ^ 6) by positivity)
    rw [← ht, abs_le] at hcents
    refine abs_extracted_sub_le ?_ (by linarith)
    rw [abs_le]
    constructor <;> linarith

variable (hn' : n ≤ 10 ^ 17) (hk : rate.value = k / 10 ^ 4) (hk' : k ≤ 10 ^ 7)

include hk hk'

/-- **The fraction of a rate is exact**, as a rate has few digits. -/
theorem value_fraction {fraction : Decimal} (h : rate.div .hundred = some fraction) :
    fraction.value = k / 10 ^ 6 := by
  have hrounds := Decimal.div_rounds (by decide) h
  have hquotient : rate.value / Decimal.hundred.value = k / 10 ^ 6 := by
    rw [Decimal.value_hundred, hk]
    ring
  rw [hquotient] at hrounds
  refine hrounds.value_eq_of_mul_pow10 (n := k) (s := 6) ?_ (by unfold Decimal.capacity; omega)
    (by decide)
  rw [pow10_natCast]
  push_cast
  ring

theorem value_divisor {fraction divisor : Decimal} (hfraction : rate.div .hundred = some fraction)
    (h : Decimal.one.add fraction = some divisor) : divisor.value = 1 + k / 10 ^ 6 := by
  have hrounds := Decimal.add_rounds h
  rw [Decimal.value_one, value_fraction hk hk' hfraction] at hrounds
  refine hrounds.value_eq_of_mul_pow10 (n := 10 ^ 6 + k) (s := 6) ?_
    (by unfold Decimal.capacity; omega) (by decide)
  rw [pow10_natCast]
  push_cast
  ring

include hn'

/-- **A tax that is added is exact** before it is rounded: a number of cents times a number of
millionths fits a decimal of eight fraction digits. -/
theorem exists_mul_fraction {fraction : Decimal} (hn : amount.value = n / 100)
    (h : rate.div .hundred = some fraction) :
    ∃ tax, amount.mul fraction = some tax ∧ tax.value = n / 100 * (k / 10 ^ 6) := by
  have hfraction := value_fraction hk hk' h
  cases hmul : amount.mul fraction with
  | none =>
    have hlarge := Decimal.bound_le_of_mul_eq_none hmul
    rw [hn, hfraction, abs_of_nonneg (by positivity), Decimal.bound_eq] at hlarge
    linarith [(product_le hn' hk').1]
  | some tax =>
    have hrounds := Decimal.mul_rounds hmul
    rw [hn, hfraction] at hrounds
    refine ⟨tax, rfl, hrounds.value_eq_of_mul_pow10 (n := n * k) (s := 8) ?_ ?_ (by decide)⟩
    · rw [pow10_natCast]
      push_cast
      ring
    · refine lt_of_le_of_lt (Nat.mul_le_mul hn' hk') ?_
      decide

/-- **Tax is added to the cent.** From the product on everything is cents, and sums of cents
are exact. -/
theorem exists_exclusive {t : ℕ} (hn : amount.value = n / 100)
    (ht : t = Decimal.cents (n / 100 * (k / 10 ^ 6))) :
    ∃ b, compute amount rate .exclusive = .ok b ∧ b.subtotal.value = n / 100
      ∧ b.taxAmount.value = t / 100 ∧ b.total.value = n / 100 + t / 100 := by
  have hamount : amount.isNegative = false := by
    rw [isNegative_eq_false_iff, hn]
    positivity
  have hrate : rate.isNegative = false := by
    rw [isNegative_eq_false_iff, hk]
    positivity
  obtain ⟨fraction, hfraction, h⟩ := compute_exclusive hamount hrate
  obtain ⟨tax, hmul, htax⟩ := exists_mul_fraction hn' hk hk' hn hfraction
  have hmoney := Decimal.value_roundMoney_cents hn
  have hvalue : tax.roundMoney.value = t / 100 := by
    rw [Decimal.value_roundMoney (by rw [htax]; positivity), htax, ht]
  -- The total is far below the largest amount in cents, so that the sum is exact.
  have hsum : (n / 100 + t / 100 : ℚ) < bound / 100 := by
    have hcents := (product_le hn' hk').2
    have hn : (n : ℚ) ≤ 10 ^ 17 := by exact_mod_cast hn'
    rw [← ht] at hcents
    rw [Decimal.bound_eq]
    linarith
  simp only [hmul, hmoney, hvalue] at h
  rw [if_neg (by linarith [Decimal.bound_eq])] at h
  obtain ⟨b, hb, -⟩ := h
  -- What the result was computed from is what has been named above.
  obtain ⟨fraction', tax', hfraction', hmul', htax', htotal, -⟩ := exists_of_compute_exclusive hb
  obtain rfl : fraction' = fraction := Option.some.inj (hfraction'.symm.trans hfraction)
  obtain rfl : tax' = tax := Option.some.inj (hmul'.symm.trans hmul)
  rw [← htax'] at hvalue
  have hrounds := Decimal.add_rounds htotal
  rw [hmoney, hvalue] at hrounds
  have htotal' : b.total.value = n / 100 + t / 100 := by
    refine hrounds.value_eq_of_mul_pow10 (n := n + t) (s := 2) ?_ ?_ (by decide)
    · rw [Nat.cast_ofNat, Decimal.pow10_two]
      push_cast
      ring
    · rw [Decimal.lt_capacity_iff]
      push_cast
      linarith
  obtain ⟨-, hsubtotal⟩ := subtotal_of_compute_exclusive hb (by rwa [htotal'])
  exact ⟨b, hb, hsubtotal.trans hmoney, hvalue, htotal'⟩

/-- **The tax in a total is extracted to the cent.** What is computed differs from the tax that was
added by less than half a cent, when the error of extraction and that of computing are added. -/
theorem exists_inclusive {total : Decimal} {t : ℕ}
    (ht : t = Decimal.cents (n / 100 * (k / 10 ^ 6))) (htotal : total.value = n / 100 + t / 100) :
    ∃ b, compute total rate .inclusive = .ok b ∧ b.subtotal.value = n / 100
      ∧ b.taxAmount.value = t / 100 ∧ b.total.value = n / 100 + t / 100 := by
  have hnonneg : 0 ≤ total.value := by
    rw [htotal]
    positivity
  have hrate : 0 ≤ rate.value := by
    rw [hk]
    positivity
  have hlarge : total.value ≤ 2 * 10 ^ 16 := by
    have hcents := (product_le hn' hk').2
    have hn : (n : ℚ) ≤ 10 ^ 17 := by exact_mod_cast hn'
    rw [← ht] at hcents
    rw [htotal]
    linarith
  obtain ⟨b, hb, -⟩ := exists_compute_inclusive (isNegative_eq_false_iff.2 hnonneg)
    (isNegative_eq_false_iff.2 hrate)
  obtain ⟨fraction, divisor, before, tax, hfraction, hdivisor, hbefore, hsub, htax, hmoney, -⟩ :=
    exists_of_compute_inclusive hb
  have hvalue := value_divisor hk hk' hfraction hdivisor
  have hone : 1 ≤ divisor.value := by
    rw [hvalue]
    exact le_add_of_nonneg_right (by positivity)
  have hcomputed := abs_computed_sub_le hnonneg hlarge hone hbefore hsub
  have hextracted := abs_extracted_cents_sub_le ht
  rw [← htotal, ← hvalue] at hextracted
  -- Half a cent less a thousand-millionth, and two ten-thousand-millionths, is less than half a
  -- cent.
  have hcents : Decimal.cents tax.value = t := by
    refine Decimal.cents_eq_of_abs_lt ?_
    rw [abs_le] at hcomputed hextracted
    rw [abs_lt]
    constructor <;> linarith
  obtain ⟨-, hle⟩ := before_tax_le hnonneg hrate hfraction hdivisor hbefore
  have htaxAmount : b.taxAmount.value = t / 100 := by
    have hnonneg' := (Decimal.sub_rounds hsub).nonneg (by linarith)
    rw [htax, Decimal.value_roundMoney hnonneg', hcents]
  have htotal' : b.total.value = n / 100 + t / 100 := by
    rw [← add_div, ← Nat.cast_add] at htotal ⊢
    rw [hmoney]
    exact Decimal.value_roundMoney_cents htotal
  have hadds := subtotal_add_of_compute_inclusive hb
  exact ⟨b, hb, by linarith, htaxAmount, htotal'⟩

end

/-- **Extracting the tax undoes adding it**: for amounts of up to `10 ^ 15` in whole cents and rates
of up to a thousand percent with four fraction digits, the tax that is added is the exact one to the
nearest cent, and the tax on the total is split into the numbers that it was put together from.

A rate of zero is among these. It has no tax, and is taken apart from the others, as the bound on
the error of extraction is below half a cent only for rates above zero. -/
theorem exists_compute_inclusive_eq (hamount : 0 ≤ amount.value) (hamount' : amount.value ≤ 10 ^ 15)
    (hcents : amount.HasDigits 2) (hrate : 0 ≤ rate.value) (hrate' : rate.value ≤ 1000)
    (hdigits : rate.HasDigits 4) :
    ∃ b b', compute amount rate .exclusive = .ok b ∧ b.subtotal.SameNumber amount
      ∧ b.taxAmount.value = Decimal.cents (amount.value * (rate.value / 100)) / 100
      ∧ compute b.total rate .inclusive = .ok b' ∧ b'.subtotal.SameNumber b.subtotal
      ∧ b'.taxAmount.SameNumber b.taxAmount ∧ b'.total.SameNumber b.total := by
  obtain ⟨n, hn, hn'⟩ := hcents.exists_le (m := 10 ^ 15) hamount (by push_cast; exact hamount')
  obtain ⟨k, hk, hk'⟩ := hdigits.exists_le (m := 1000) hrate (by push_cast; exact hrate')
  have hn' : n ≤ 10 ^ 17 := by omega
  have hk' : k ≤ 10 ^ 7 := by omega
  have hn : amount.value = n / 100 := by
    rw [← hn, Nat.cast_ofNat, Decimal.pow10_two]
    exact (mul_div_cancel_right₀ _ (by norm_num)).symm
  have hk : rate.value = k / 10 ^ 4 := by
    rw [← hk, pow10_natCast]
    norm_num
  obtain ⟨b, hb, hsubtotal, htax, htotal⟩ := exists_exclusive hn' hk hk' hn rfl
  obtain ⟨b', hb', hsubtotal', htax', htotal'⟩ := exists_inclusive hn' hk hk' rfl htotal
  refine ⟨b, b', hb, ?_, ?_, hb', ?_, ?_, ?_⟩
  · rw [sameNumber_iff, hsubtotal, hn]
  · rw [htax, hn, hk, div_div]
    norm_num
  · rw [sameNumber_iff, hsubtotal, hsubtotal']
  · rw [sameNumber_iff, htax, htax']
  · rw [sameNumber_iff, htotal, htotal']

/-- The tax on ten cents at five percent is half a cent and goes up. Of the total, 0.11, it is
0.00524 to five digits, which goes up as well. -/
theorem exists_compute_inclusive_eq_of_half_cent : ∃ amount rate b b',
    amount = ⟨false, 10, 2, by decide, by decide⟩ ∧ rate = ⟨false, 5, 0, by decide, by decide⟩
    ∧ b = ⟨⟨false, 10, 2, by decide, by decide⟩, ⟨false, 1, 2, by decide, by decide⟩,
      ⟨false, 11, 2, by decide, by decide⟩⟩
    ∧ compute amount rate .exclusive = .ok b ∧ compute b.total rate .inclusive = .ok b'
    ∧ b'.subtotal.SameNumber b.subtotal ∧ b'.taxAmount.SameNumber b.taxAmount
    ∧ b'.total.SameNumber b.total := by
  obtain ⟨amount, hamount⟩ : ∃ a : Decimal, a = ⟨false, 10, 2, by decide, by decide⟩ := ⟨_, rfl⟩
  obtain ⟨rate, hrate⟩ : ∃ r : Decimal, r = ⟨false, 5, 0, by decide, by decide⟩ := ⟨_, rfl⟩
  have hvalue : amount.value = 10 / 100 := by
    rw [hamount]
    norm_num [Decimal.value, Decimal.signed, Decimal.pow10_two]
  have hvalue' : rate.value = 5 := by
    rw [hrate]
    norm_num [Decimal.value, Decimal.signed, pow10_zero]
  have hcents : amount.HasDigits 2 := by
    refine ⟨10, ?_⟩
    rw [hvalue, Nat.cast_ofNat, Decimal.pow10_two]
    norm_num
  have hdigits : rate.HasDigits 4 := by
    refine ⟨5 * 10 ^ 4, ?_⟩
    rw [hvalue', pow10_natCast]
    norm_num
  obtain ⟨b, b', hb, -, -, hb', hsame⟩ := exists_compute_inclusive_eq
    (by rw [hvalue]; norm_num) (by rw [hvalue]; norm_num) hcents
    (by rw [hvalue']; norm_num) (by rw [hvalue']; norm_num) hdigits
  have hparts : compute amount rate .exclusive
      = .ok ⟨⟨false, 10, 2, by decide, by decide⟩, ⟨false, 1, 2, by decide, by decide⟩,
        ⟨false, 11, 2, by decide, by decide⟩⟩ := by
    subst hamount hrate
    rfl
  exact ⟨amount, rate, b, b', hamount, hrate, Except.ok.inj (hb.symm.trans hparts), hb, hb', hsame⟩

end TaxBreakdown

end Tariff
