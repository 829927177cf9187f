import Tariff.Proofs.Rounding

/-!
# Sums, differences and products

Sums, differences and products are exact before they are fitted into a decimal. The
fit drops the fewest digits it can (`excess?_eq_some`), so what it leaves is nearest
to the exact number (`fit_nearest`), and it fails only for a number that is above
the largest decimal by half a step or more (`fit_eq_none_iff`).

What follows of each operation is one statement, for the result and for its absence:
it answers the exact result (`add_answers`, `sub_answers`, `mul_answers`). So a sum
rounds the exact one, and there is none just where the exact one is too large. The sum
with a zero is no exception, though it is computed without a fit and may keep digits
that a fit would not; nor are the products of short factors that are not fitted.
-/

namespace Tariff

namespace Decimal

/-! ## Fitting

A fit is given the exact result of an operation, with as many digits as it has, and makes a decimal
of it. -/

/-- **The excess is the fewest digits to drop**: enough that the rest fits, both in its digits and
in its scale, and with one digit fewer it would not. -/
theorem excess?_eq_some {m s k : ℕ} (h : excess? m s = some k) :
    k ≤ s ∧ s ≤ k + 28 ∧ m / 10 ^ k < capacity
      ∧ ∀ j < k, s ≤ j + 28 → capacity ≤ m / 10 ^ j := by
  unfold excess? maxScale at h
  obtain ⟨hk, hmem, hmin⟩ := List.find?_range'_eq_some.1 h
  rw [List.mem_range'_1] at hmem
  refine ⟨by omega, by omega, of_decide_eq_true hk, fun j hj hs => ?_⟩
  have hnot := hmin j (by omega) hj
  simpa using hnot

/-- There is no excess where even the whole part has too many digits. -/
theorem excess?_eq_none {m s : ℕ} (h : excess? m s = none) : capacity ≤ m / 10 ^ s := by
  unfold excess? maxScale at h
  have hnot := List.find?_range'_eq_none.1 h s (by omega) (by omega)
  simpa using hnot

/-- Dropping `k` fraction digits divides by their unit. -/
theorem div_pow10_mul (m : ℕ) {s k : ℕ} (h : k ≤ s) :
    (m : ℚ) / pow10 s * pow10 (s - k : ℕ) = m / (10 ^ k : ℕ) := by
  have hsplit : pow10 s = pow10 (s - k : ℕ) * pow10 k := by
    rw [← pow10_add]
    congr 1
    omega
  have hpos := pow10_pos (s - k : ℕ)
  rw [hsplit, ← pow10_natCast]
  field_simp

/-- A decimal has the parts that it was made of. -/
theorem ofParts?_eq_some {negative : Bool} {m s : ℕ} {d : Decimal}
    (h : ofParts? negative m s = some d) :
    d.negative = negative ∧ d.mantissa = m ∧ d.scale = s := by
  unfold ofParts? at h
  split at h
  · cases h
    exact ⟨rfl, rfl, rfl⟩
  · cases h

/-- A quotient that rounds up to the capacity sheds one more digit. The capacity is no power of ten,
so that this is another rounding, and it has to be seen that the two come to what one would have. -/
theorem nearest_of_capacity {x : ℚ} {s : ℕ} (h : |bound - x * pow10 (s + 1)| ≤ 1 / 2) :
    Nearest x (divHalfEven capacity 10) s := by
  obtain ⟨hlow, hhigh⟩ := abs_le.1 h
  refine ⟨?_, fun _ => by decide, .inr (.inr (by linarith))⟩
  have hdigits : (10 * divHalfEven capacity 10 : ℚ) = bound + 4 := by
    have : 10 * divHalfEven capacity 10 = capacity + 4 := by decide
    unfold bound
    exact_mod_cast this
  rw [pow10_succ] at hlow hhigh
  rw [abs_le]
  constructor <;> linarith

/-- Where a digit fewer could not be dropped, no more are left than fit: the scale is the largest,
or another digit would be too much. This is what makes the rounding one to the largest scale that
there is room for. -/
theorem full_of_excess {m s k : ℕ} (hk : k ≠ 0) (hks : k ≤ s)
    (hmin : ∀ j < k, s ≤ j + 28 → capacity ≤ m / 10 ^ j) (hscale : s ≤ k + 28) :
    s - k = 28 ∨ bound - 1 / 2 ≤ (m : ℚ) / pow10 s * pow10 ((s - k : ℕ) + 1) := by
  rcases Nat.lt_or_ge s (k + 28) with hlt | hge
  · right
    have hstep : (s - k : ℕ) + 1 = ((s - (k - 1) : ℕ) : ℤ) := by omega
    have hcapacity := hmin (k - 1) (by omega) (by omega)
    rw [Nat.le_div_iff_mul_le (Nat.pow_pos (by decide))] at hcapacity
    have hpos : (0 : ℚ) < (10 ^ (k - 1) : ℕ) := Nat.cast_pos.2 (Nat.pow_pos (by decide))
    have hbound : bound ≤ m / (10 ^ (k - 1) : ℕ) := by
      unfold bound
      rw [le_div_iff₀ hpos]
      exact_mod_cast hcapacity
    rw [hstep, div_pow10_mul m (by omega)]
    linarith
  · left
    omega

/-- **What a fit can do**: nothing at all, or drop the fewest digits that it has to, and one digit
more if the rounding fills the mantissa. Everything else that is known of a fit is read off these
three cases. -/
theorem fit_eq_some {negative : Bool} {m s : ℕ} {d : Decimal} (h : fit negative m s = some d) :
    d.negative = negative ∧
      (d.mantissa = m ∧ d.scale = s
        ∨ ∃ k, k ≠ 0 ∧ k ≤ s
          ∧ (s - k = 28 ∨ bound - 1 / 2 ≤ (m : ℚ) / pow10 s * pow10 ((s - k : ℕ) + 1))
          ∧ (d.mantissa = divHalfEven m (10 ^ k) ∧ d.scale = s - k
            ∨ divHalfEven m (10 ^ k) = capacity ∧ k + 1 ≤ s
              ∧ d.mantissa = divHalfEven capacity 10 ∧ d.scale = s - (k + 1))) := by
  unfold fit at h
  obtain ⟨k, hk, h⟩ := Option.bind_eq_some_iff.1 h
  obtain ⟨hks, hscale, hlt, hmin⟩ := excess?_eq_some hk
  split at h
  · obtain ⟨hneg, hm, hs⟩ := ofParts?_eq_some h
    exact ⟨hneg, .inl ⟨hm, hs⟩⟩
  · next hne =>
    have hfull := full_of_excess hne hks hmin hscale
    dsimp only at h
    split at h
    · obtain ⟨hneg, hm, hs⟩ := ofParts?_eq_some h
      exact ⟨hneg, .inr ⟨k, hne, hks, hfull, .inl ⟨hm, hs⟩⟩⟩
    · split at h
      · next hmore =>
        -- The rounded digits are just the capacity, since before they were below it.
        have hround := divHalfEven_le_succ m (10 ^ k)
        have hcapacity : divHalfEven m (10 ^ k) = capacity := by omega
        rw [hcapacity] at h
        obtain ⟨hneg, hm, hs⟩ := ofParts?_eq_some h
        exact ⟨hneg, .inr ⟨k, hne, hks, hfull, .inr ⟨hcapacity, hmore, hm, hs⟩⟩⟩
      · cases h

/-- **What fits is nearest.** No digit is off by more than half a step at the scale that is left,
and a tie goes to the even digits. -/
theorem fit_nearest {negative : Bool} {m s : ℕ} {d : Decimal} (h : fit negative m s = some d) :
    d.negative = negative ∧ Nearest (m / pow10 s) d.mantissa d.scale := by
  obtain ⟨hneg, hcases⟩ := fit_eq_some h
  refine ⟨hneg, ?_⟩
  rcases hcases with ⟨hm, hs⟩ | ⟨k, -, hks, hfull, hcases⟩
  · rw [hm, hs]
    exact .of_exact (div_mul_cancel₀ _ (pow10_pos s).ne')
  · have hpow : 0 < 10 ^ k := Nat.pow_pos (by decide)
    have hnear := abs_divHalfEven_sub_le m hpow
    have heven := divHalfEven_mod_two (n := m) hpow
    rw [← div_pow10_mul m hks] at hnear heven
    rcases hcases with ⟨hm, hs⟩ | ⟨hcapacity, hmore, hm, hs⟩
    · rw [hm, hs]
      exact ⟨hnear, heven, .inr hfull⟩
    · have hstep : ((s - k : ℕ) : ℤ) = (s - (k + 1) : ℕ) + 1 := by omega
      rw [hcapacity, hstep] at hnear
      rw [hm, hs]
      exact nearest_of_capacity hnear

/-- Parts within the limits make a decimal. -/
theorem ofParts?_of_lt {negative : Bool} {m s : ℕ} (hm : m < capacity) (hs : s ≤ 28) :
    ofParts? negative m s = some ⟨negative, m, s, hm, hs⟩ := dif_pos ⟨hm, hs⟩

/-- The fit for a known excess, as it branches. -/
theorem fit_of_excess {negative : Bool} {m s k : ℕ} (h : excess? m s = some k) :
    fit negative m s = if k = 0 then ofParts? negative m s
      else if divHalfEven m (10 ^ k) < capacity then
        ofParts? negative (divHalfEven m (10 ^ k)) (s - k)
      else if k + 1 ≤ s then
        ofParts? negative (divHalfEven (divHalfEven m (10 ^ k)) 10) (s - (k + 1))
      else none := by
  rw [fit, h]
  rfl

/-- **What fits with a fraction digit to spare has a decimal.** If the rounding fills the mantissa,
the digit to spare is dropped. -/
theorem fit_ne_none_of_lt {negative : Bool} {m s k : ℕ} (h : excess? m s = some k) (hks : k < s) :
    fit negative m s ≠ none := by
  obtain ⟨-, hscale, hlt, -⟩ := excess?_eq_some h
  rw [fit_of_excess h]
  split
  · next hzero =>
    subst hzero
    rw [ofParts?_of_lt (by simpa using hlt) (by omega)]
    simp
  · split
    · next hq =>
      rw [ofParts?_of_lt hq (by omega)]
      simp
    · next hq =>
      have hround := divHalfEven_le_succ m (10 ^ k)
      have hcapacity : divHalfEven m (10 ^ k) = capacity := by omega
      rw [if_pos (Nat.succ_le_of_lt hks), hcapacity, ofParts?_of_lt (by decide) (by omega)]
      simp

/-- Without a fraction digit, only half a step below the capacity is too much: there the digits
round up to the capacity, and nothing is left that could be dropped. On the right is the bound
without a fraction in it. -/
theorem fit_eq_none_iff_of_excess {negative : Bool} {m s : ℕ} (h : excess? m s = some s) :
    fit negative m s = none ↔ (2 * (capacity - 1) + 1) * 10 ^ s ≤ 2 * m := by
  obtain ⟨-, hscale, hlt, -⟩ := excess?_eq_some h
  have hpow : 0 < 10 ^ s := Nat.pow_pos (by decide)
  rw [fit_of_excess h]
  split
  · next hzero =>
    subst hzero
    rw [ofParts?_of_lt (by simpa using hlt) (by omega)]
    refine iff_of_false (by simp) ?_
    rw [Nat.pow_zero, Nat.div_one] at hlt
    unfold capacity at hlt ⊢
    omega
  · split
    · next hq =>
      rw [ofParts?_of_lt hq (by omega)]
      refine iff_of_false (by simp) (fun hlarge => ?_)
      have hup := lt_divHalfEven_of_odd hpow (by decide) hlarge
      omega
    · next hq =>
      rw [if_neg (by omega)]
      refine iff_of_true rfl ?_
      obtain ⟨-, hhigh⟩ := two_mul_le_divHalfEven m hpow
      have hle := Nat.mul_le_mul_right (10 ^ s) (Nat.le_of_not_lt hq)
      generalize divHalfEven m (10 ^ s) * 10 ^ s = q at hhigh hle
      generalize 10 ^ s = u at hhigh hle
      unfold capacity at hle ⊢
      omega

/-- **What does not fit is too large**, by half a step at least. So a fit fails for no other reason,
neither for digits in the fraction nor for an unlucky rounding. -/
theorem fit_eq_none_iff {negative : Bool} {m s : ℕ} :
    fit negative m s = none ↔ (2 * (capacity - 1) + 1) * 10 ^ s ≤ 2 * m := by
  have hpow : 0 < 10 ^ s := Nat.pow_pos (by decide)
  cases hk : excess? m s with
  | none =>
    have hlarge := excess?_eq_none hk
    rw [Nat.le_div_iff_mul_le hpow] at hlarge
    have hnone : fit negative m s = none := by rw [fit, hk]; rfl
    refine iff_of_true hnone ?_
    generalize 10 ^ s = p at hlarge
    unfold capacity at hlarge ⊢
    omega
  | some k =>
    obtain ⟨hks, -, hlt, -⟩ := excess?_eq_some hk
    rcases Nat.lt_or_ge k s with hless | hge
    · -- A fraction digit is left, so there is room.
      have hten : 10 ^ k * 10 ≤ 10 ^ s := by
        rw [← Nat.pow_succ]
        exact Nat.pow_le_pow_right (by decide) hless
      have hunit : 0 < 10 ^ k := Nat.pow_pos (by decide)
      have hdigits : m < capacity * 10 ^ k := by
        rwa [← Nat.div_lt_iff_lt_mul hunit]
      refine iff_of_false (fit_ne_none_of_lt hk hless) ?_
      generalize 10 ^ s = p at hten
      generalize 10 ^ k = u at hdigits hten
      unfold capacity at hdigits ⊢
      omega
    · obtain rfl : k = s := by omega
      exact fit_eq_none_iff_of_excess hk

/-- The same for the number that is fitted. -/
theorem fit_eq_none_iff_div {negative : Bool} {m s : ℕ} :
    fit negative m s = none ↔ bound - 1 / 2 ≤ m / pow10 s := by
  have hpos := pow10_pos s
  have hbound : ((2 * (capacity - 1) + 1 : ℕ) : ℚ) = 2 * bound - 1 := by
    rw [eq_sub_iff_add_eq]
    unfold bound
    exact_mod_cast (by decide : 2 * (capacity - 1) + 1 + 1 = 2 * capacity)
  rw [fit_eq_none_iff, le_div_iff₀ hpos, ← Nat.cast_le (α := ℚ), Nat.cast_mul, Nat.cast_mul,
    hbound, ← pow10_natCast, Nat.cast_ofNat, sub_mul, sub_mul, mul_assoc]
  constructor <;> intro h <;> linarith

/-- **A fit answers the number with its sign.** The fit knows the sign apart from the digits, and
zero may have either. -/
theorem fit_answers (negative : Bool) (m s : ℕ) :
    Answers (if negative then -((m : ℚ) / pow10 s) else m / pow10 s) (fit negative m s) := by
  have hnonneg : 0 ≤ (m : ℚ) / pow10 s := div_nonneg (Nat.cast_nonneg _) (pow10_pos _).le
  cases h : fit negative m s with
  | none => exact .none_of_le (fit_eq_none_iff_div.1 h)
  | some d =>
    obtain ⟨hneg, hnearest⟩ := fit_nearest h
    rw [← hneg]
    exact hnearest.isRounding hnonneg

/-! ## Sums and differences

The exact sum is an integer, in steps of the finer of the two scales. A difference is a sum with the
other sign. -/

/-- **A decimal is smaller than the bound.** -/
theorem abs_value_le (d : Decimal) : |d.value| ≤ bound - 1 := by
  have hmantissa := d.mantissa_eq
  have hle : d.magnitude * 1 ≤ d.magnitude * pow10 d.scale :=
    mul_le_mul_of_nonneg_left (one_le_pow10 d.scale) d.magnitude_nonneg
  rw [abs_value]
  linarith [d.mantissa_le]

theorem abs_value_lt (d : Decimal) : |d.value| < bound - 1 / 2 := by
  linarith [d.abs_value_le]

/-- The signed digits of a decimal, in steps of a larger scale. -/
theorem value_mul_pow10 (b : Decimal) {s : ℕ} (h : b.scale ≤ s) :
    b.value * pow10 s = (b.signed * 10 ^ (s - b.scale) : ℤ) := by
  have hmagnitude := b.magnitude_mul_pow10 h
  rw [value_eq]
  unfold signed
  push_cast at hmagnitude ⊢
  split <;> linarith

/-- The sum of two decimals in steps of the larger scale. It is exact, an integer of any size; only
the fit cuts it. -/
def total (a b : Decimal) : ℤ :=
  a.signed * 10 ^ (max a.scale b.scale - a.scale) + b.signed * 10 ^ (max a.scale b.scale - b.scale)

/-- Neither of the two is zero: then the sum is fitted. -/
theorem add_eq_fit {a b : Decimal} (ha : a.isZero = false) (hb : b.isZero = false) :
    a.add b = fit (decide (total a b < 0)) (total a b).natAbs (max a.scale b.scale) := by
  unfold add
  rw [ha, hb]
  rfl

/-- The exact sum is so many steps. -/
theorem value_add_value (a b : Decimal) :
    a.value + b.value = (total a b : ℚ) / pow10 (max a.scale b.scale : ℕ) := by
  rw [eq_div_iff (pow10_pos _).ne', add_mul, a.value_mul_pow10 (Nat.le_max_left _ _),
    b.value_mul_pow10 (Nat.le_max_right _ _)]
  exact (Int.cast_add _ _).symm

/-- **A sum answers the exact one.** With a zero the other summand is answered as it is, with all
its digits; it is a decimal, and the rounding of itself. -/
theorem add_answers (a b : Decimal) : Answers (a.value + b.value) (a.add b) := by
  cases ha : a.isZero with
  | true =>
    rw [add, if_pos ha, a.isZero_iff.1 ha, zero_add]
    exact .self b
  | false =>
    cases hb : b.isZero with
    | true =>
      rw [add, ha, hb, b.isZero_iff.1 hb, add_zero]
      exact .self a
    | false =>
      have hfit := fit_answers (decide (total a b < 0)) (total a b).natAbs
        (max a.scale b.scale)
      rw [← add_eq_fit ha hb, Nat.cast_natAbs, Int.cast_abs] at hfit
      rw [value_add_value]
      -- The sign is that of the exact sum.
      rcases lt_or_ge (total a b) 0 with hlt | hge
      · have hcast : (total a b : ℚ) < 0 := by exact_mod_cast hlt
        rwa [decide_eq_true hlt, if_pos rfl, abs_of_neg hcast, neg_div, neg_neg] at hfit
      · have hcast : (0 : ℚ) ≤ total a b := by exact_mod_cast hge
        rwa [decide_eq_false hge.not_gt, if_neg (by simp), abs_of_nonneg hcast] at hfit

/-- **A sum rounds the exact one.** -/
theorem add_rounds {a b d : Decimal} (h : a.add b = some d) : d.Rounds (a.value + b.value) :=
  (add_answers a b).rounds h

/-- **A sum has no result where it is too large.** -/
theorem add_eq_none_iff {a b : Decimal} :
    a.add b = none ↔ bound - 1 / 2 ≤ |a.value + b.value| :=
  (add_answers a b).eq_none_iff

/-- A difference is the sum with the other sign. -/
theorem sub_eq_add {a b : Decimal} (hb : b.isZero = false) : a.sub b = a.add b.neg := by
  rw [sub, hb]
  rfl

/-- **A difference answers the exact one**, as the sum with the other sign does. Taking away zero is
apart from this, since then nothing is fitted. -/
theorem sub_answers (a b : Decimal) : Answers (a.value - b.value) (a.sub b) := by
  cases hb : b.isZero with
  | true =>
    have hzero := b.isZero_iff.1 hb
    rw [sub, if_pos hb, hzero, sub_zero]
    split
    · next ha =>
      rw [a.isZero_iff.1 ha, ← hzero]
      exact .self b
    · exact .self a
  | false =>
    rw [sub_eq_add hb, sub_eq_add_neg, ← value_neg]
    exact add_answers a b.neg

/-- **A difference rounds the exact one.** -/
theorem sub_rounds {a b d : Decimal} (h : a.sub b = some d) : d.Rounds (a.value - b.value) :=
  (sub_answers a b).rounds h

/-- **A difference has no result where it is too large.** -/
theorem sub_eq_none_iff {a b : Decimal} :
    a.sub b = none ↔ bound - 1 / 2 ≤ |a.value - b.value| :=
  (sub_answers a b).eq_none_iff

/-- Two decimals of one sign have a difference: it is no larger than the larger of them. -/
theorem sub_ne_none_of_zero_le {a b : Decimal} (ha : zero ≤ a) (hb : zero ≤ b) :
    a.sub b ≠ none := by
  intro h
  have hlarge := sub_eq_none_iff.1 h
  have ha' := a.abs_value_lt
  have hb' := b.abs_value_lt
  rw [zero_le_iff] at ha hb
  rw [abs_of_nonneg ha] at ha'
  rw [abs_of_nonneg hb] at hb'
  have hsmall : |a.value - b.value| < bound - 1 / 2 := abs_lt.2 ⟨by linarith, by linarith⟩
  linarith

/-! ## Products

The exact product has the digits of both factors and the fraction digits of both. The short cuts for
products of short mantissas are shown to be short cuts. -/

/-- **A number below half the last digit rounds to zero.** Zero is answered at the largest scale
here, though it is written without fraction digits. -/
theorem isRounding_zero {x : ℚ} (h : |x| * pow10 28 < 1 / 2) : zero.IsRounding x := by
  have hnonneg := mul_nonneg (abs_nonneg x) (pow10_pos 28).le
  have hoff : |((0 : ℕ) : ℚ) - |x| * pow10 (28 : ℕ)| < 1 / 2 := by
    rw [Nat.cast_zero, Nat.cast_ofNat, zero_sub, abs_neg, abs_of_nonneg hnonneg]
    exact h
  refine ⟨⟨false, 0, 28, by decide, by decide⟩,
    ⟨hoff.le, fun htie => absurd htie hoff.ne, .inr (.inl rfl)⟩, ?_⟩
  rw [value_zero]
  norm_num [magnitude]

/-- The exact product has the product of the mantissas for its digits, and the sum of the scales. -/
theorem value_mul_value (a b : Decimal) :
    a.value * b.value = if a.negative != b.negative
      then -((a.mantissa * b.mantissa : ℕ) / pow10 (a.scale + b.scale : ℕ))
      else (a.mantissa * b.mantissa : ℕ) / pow10 (a.scale + b.scale : ℕ) := by
  have hmagnitude : a.magnitude * b.magnitude
      = (a.mantissa * b.mantissa : ℕ) / pow10 (a.scale + b.scale : ℕ) := by
    rw [magnitude, magnitude, div_mul_div_comm, ← pow10_add]
    push_cast
    rfl
  rw [a.value_eq, b.value_eq, ← hmagnitude]
  cases a.negative <;> cases b.negative <;> simp

theorem abs_value_mul_value (a b : Decimal) :
    |a.value * b.value| = (a.mantissa * b.mantissa : ℕ) / pow10 (a.scale + b.scale : ℕ) := by
  have hnonneg : (0 : ℚ) ≤ (a.mantissa * b.mantissa : ℕ) / pow10 (a.scale + b.scale : ℕ) :=
    div_nonneg (Nat.cast_nonneg _) (pow10_pos _).le
  rw [value_mul_value]
  split
  · rw [abs_neg, abs_of_nonneg hnonneg]
  · rw [abs_of_nonneg hnonneg]

/-- Short digits with many of them in the fraction are below half the last digit. Short ones have
less than 2 to the power of 32, so that their product has twenty digits at most, and all of them are
behind the 28th place. -/
theorem abs_value_mul_value_lt {a b : Decimal} (ha : a.isShort = true) (hb : b.isShort = true)
    (hscale : 47 < a.scale + b.scale) : |a.value * b.value| * pow10 28 < 1 / 2 := by
  have ha : a.mantissa < 2 ^ 32 := of_decide_eq_true ha
  have hb : b.mantissa < 2 ^ 32 := of_decide_eq_true hb
  have hdigits : 2 * (a.mantissa * b.mantissa) < 10 ^ 20 := by
    have hlt : a.mantissa * b.mantissa < 2 ^ 32 * 2 ^ 32 := Nat.mul_lt_mul'' ha hb
    omega
  have hdigits : (2 * (a.mantissa * b.mantissa : ℕ) : ℚ) < pow10 20 := by
    rw [show (20 : ℤ) = (20 : ℕ) from rfl, pow10_natCast]
    exact_mod_cast hdigits
  have hunit : pow10 20 * pow10 28 ≤ pow10 (a.scale + b.scale : ℕ) := by
    rw [← pow10_add]
    exact pow10_le (by omega)
  have hless := mul_lt_mul_of_pos_right hdigits (pow10_pos 28)
  rw [abs_value_mul_value, div_mul_eq_mul_div, div_lt_div_iff₀ (pow10_pos _) two_pos]
  linarith

/-- **A product answers the exact one.** The products of short mantissas go a way of their own: some
are taken as they are, some are zero at once, and some are rounded by one division. Each of these is
what the fit would have come to. -/
theorem mul_answers (a b : Decimal) : Answers (a.value * b.value) (a.mul b) := by
  unfold mul
  split
  · next hzero =>
    have hvalue : a.value * b.value = 0 := by
      rwa [mul_eq_zero, ← isZero_iff, ← isZero_iff, ← Bool.or_eq_true]
    rw [hvalue, ← value_zero]
    exact .self zero
  · split
    · next hshort =>
      rw [Bool.and_eq_true, Bool.and_eq_true] at hshort
      exact isRounding_zero
        (abs_value_mul_value_lt hshort.1.1 hshort.1.2 (of_decide_eq_true hshort.2))
    · have hfit := fit_answers (a.negative != b.negative) (a.mantissa * b.mantissa)
        (a.scale + b.scale)
      rw [← value_mul_value] at hfit
      cases hp : fit (a.negative != b.negative) (a.mantissa * b.mantissa) (a.scale + b.scale) with
      | none =>
        rw [hp] at hfit
        exact hfit
      | some p =>
        rw [hp] at hfit
        refine IsRounding.of_value_eq hfit ?_
        dsimp only
        split
        · next hzero =>
          -- A zero that loses its sign is zero as before.
          rw [Bool.and_eq_true, Bool.and_eq_true] at hzero
          rw [p.isZero_iff.1 hzero.1.1]
          exact (isZero_iff _).1 hzero.1.1
        · rfl

/-- **A product rounds the exact one.** -/
theorem mul_rounds {a b d : Decimal} (h : a.mul b = some d) : d.Rounds (a.value * b.value) :=
  (mul_answers a b).rounds h

/-- **A product that has no result is beyond the largest decimal.** -/
theorem bound_le_of_mul_eq_none {a b : Decimal} (h : a.mul b = none) :
    bound - 1 / 2 ≤ |a.value * b.value| :=
  (mul_answers a b).eq_none_iff.1 h

end Decimal

end Tariff
