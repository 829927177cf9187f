import Tariff.Proofs.Fitting

/-!
# Sums that are exact, and sums at a tie

A number that is a decimal is rounded to itself (`Rounds.value_eq`), so an operation
is exact wherever its result is within the limits. Where it is not, more has to be
known of a sum than that it rounds. `Fits` says all of it: the digits are nearest, a
number half way between two goes to the even digits, and digits that are not exact
are full.

With that, **what is subtracted from a sum and added again gives the sum**
(`exists_add_sub_eq`), even where each of the three operations rounds. The second sum
is of a number that is off from the first by half a step of the difference at most,
and it finds its way back (`Close.value_eq`) unless it is off by just half a step and
the first sum is odd. But that cannot be: a difference at a tie comes from a summand
at a tie, so the first sum was at a tie itself (`even_of_tie`).
-/

namespace Tariff

/-- Whole numbers less than one apart are the same. This is how most numbers are found here: they
are known up to less than a step. -/
theorem eq_of_abs_cast_sub_lt_one {p n : ℕ} (h : |(p : ℚ) - n| < 1) : p = n := by
  have hint : |(p : ℤ) - n| < 1 := by exact_mod_cast h
  rw [Int.abs_lt_one_iff] at hint
  omega

namespace Decimal

/-! ## Numbers that are decimals -/

theorem bound_eq : bound = 79228162514264337593543950336 := by norm_num [bound, capacity]

theorem lt_capacity_iff {n : ℕ} : n < capacity ↔ (n : ℚ) < bound := by
  unfold bound
  exact Nat.cast_lt.symm

/-- **A decimal is rounded to itself.** -/
theorem Rounds.value_eq {d e : Decimal} (h : d.Rounds e.value) : d.value = e.value :=
  le_antisymm (h.ge_of_ge e le_rfl) (h.le_of_le e le_rfl)

/-- Digits within the limits have a decimal, of the scale that one likes. -/
theorem exists_value_eq {n s : ℕ} (hn : n < capacity) (hs : s ≤ 28) :
    ∃ d : Decimal, d.value = n / pow10 s := by
  refine ⟨⟨false, n, s, hn, hs⟩, ?_⟩
  rw [value_eq, if_neg Bool.false_ne_true]
  rfl

/-- **Digits within the limits are exact.** If the number is so many steps of some scale, and these
are digits that fit, then the number is a decimal and is rounded to itself. -/
theorem Rounds.value_eq_of_mul_pow10 {d : Decimal} {x : ℚ} {n s : ℕ} (h : d.Rounds x)
    (hx : x * pow10 s = n) (hn : n < capacity) (hs : s ≤ 28) : d.value = x := by
  obtain ⟨e, he⟩ := exists_value_eq hn hs
  rw [← hx, mul_div_cancel_right₀ _ (pow10_pos s).ne'] at he
  subst he
  exact h.value_eq

/-- **A sum that is a decimal is exact.** -/
theorem exists_add_eq {a b e : Decimal} (h : a.value + b.value = e.value) :
    ∃ d, a.add b = some d ∧ d.value = e.value := by
  cases hadd : a.add b with
  | none =>
    have hlarge := add_eq_none_iff.1 hadd
    rw [h] at hlarge
    exact absurd e.abs_value_lt (not_lt.2 hlarge)
  | some d =>
    have hrounds := add_rounds hadd
    rw [h] at hrounds
    exact ⟨d, rfl, hrounds.value_eq⟩

/-- A decimal that is not below zero is a whole number of steps of a larger scale, which is to write
zeros behind it. -/
theorem exists_mul_pow10_eq {b : Decimal} {s : ℕ} (hb : 0 ≤ b.value) (h : b.scale ≤ s) :
    ∃ n : ℕ, b.value * pow10 s = n := by
  rw [value_eq_magnitude hb]
  exact ⟨_, b.magnitude_mul_pow10 h⟩

/-- In the steps of a larger scale a decimal ends in a zero, and so it is even. -/
theorem mod_two_of_scale_lt {b : Decimal} {s n : ℕ} (hb : 0 ≤ b.value) (h : b.scale < s)
    (hn : b.value * pow10 s = n) : n % 2 = 0 := by
  have hwhole := b.magnitude_mul_pow10 h.le
  rw [← value_eq_magnitude hb, hn] at hwhole
  have hwhole : n = b.mantissa * 10 ^ (s - b.scale) := by exact_mod_cast hwhole
  obtain ⟨j, hj⟩ : ∃ j, s - b.scale = j + 1 := ⟨s - b.scale - 1, by omega⟩
  rw [hwhole, hj, Nat.pow_succ, ← Nat.mul_assoc]
  omega

/-- The digits of a decimal that is not below zero are its number in its own steps. -/
theorem mantissa_eq_value_mul {b : Decimal} (hb : 0 ≤ b.value) :
    (b.mantissa : ℚ) = b.value * pow10 b.scale := by
  rw [value_eq_magnitude hb, b.mantissa_eq]

/-- **A large decimal has few fraction digits**: one more would leave no room for its digits. -/
theorem scale_le_of_lt {b : Decimal} {s : ℕ} (hb : 0 ≤ b.value)
    (h : bound - 1 < b.value * pow10 (s + 1)) : b.scale ≤ s := by
  by_contra! hlt
  have hsmall := b.magnitude_mul_pow10_lt hlt
  rw [← value_eq_magnitude hb] at hsmall
  exact absurd h (not_lt.2 hsmall)

/-! ## Scales -/

/-- Fitting digits into the limits takes fraction digits away and never adds one. -/
theorem fit_scale_le {negative : Bool} {m s : ℕ} {d : Decimal} (h : fit negative m s = some d) :
    d.scale ≤ s := by
  obtain ⟨-, ⟨-, hs⟩ | ⟨k, -, -, -, ⟨-, hs⟩ | ⟨-, -, -, hs⟩⟩⟩ := fit_eq_some h
  all_goals omega

/-- **A sum has no more fraction digits than the summands.** -/
theorem add_scale_le {a b d : Decimal} (h : a.add b = some d) :
    d.scale ≤ max a.scale b.scale := by
  unfold add at h
  split at h
  · cases h
    exact Nat.le_max_right _ _
  · split at h
    · cases h
      exact Nat.le_max_left _ _
    · exact fit_scale_le h

theorem sub_scale_le {a b d : Decimal} (h : a.sub b = some d) :
    d.scale ≤ max a.scale b.scale := by
  unfold sub at h
  split at h
  · cases h
    split
    · exact Nat.le_max_right _ _
    · exact Nat.le_max_left _ _
  · have hle := add_scale_le h
    exact hle

/-! ## Fitting decimals -/

/-- **A decimal fits a number**: its digits are nearest to it, even where the number is half way
between two, and they are exact or have all the fraction digits that there can be.

That a decimal rounds a number says less. It leaves open at which scale it was rounded, and what
becomes of a tie. -/
structure Fits (d : Decimal) (x : ℚ) : Prop where
  nonneg : 0 ≤ d.value
  near : |d.mantissa - x * pow10 d.scale| ≤ 1 / 2
  even : |d.mantissa - x * pow10 d.scale| = 1 / 2 → d.mantissa % 2 = 0
  full : d.value = x ∨ bound - 1 / 2 ≤ x * pow10 (d.scale + 1)

/-- A decimal fits itself. -/
theorem Fits.self {d : Decimal} (h : 0 ≤ d.value) : d.Fits d.value := by
  have hexact : (d.mantissa : ℚ) - d.value * pow10 d.scale = 0 :=
    sub_eq_zero.2 (mantissa_eq_value_mul h)
  refine ⟨h, ?_, ?_, .inl rfl⟩
  · rw [hexact]
    norm_num
  · rw [hexact]
    norm_num

/-- **What digits are fitted to fits their number**, with the ties going to the even digits and no
fraction digit taken away without need. -/
theorem fit_fits {negative : Bool} {m s : ℕ} {d : Decimal} (h : fit negative m s = some d)
    (hs : s ≤ 28) (hd : 0 ≤ d.value) : d.Fits (m / pow10 s) := by
  obtain ⟨-, hnearest⟩ := fit_nearest h
  have hmantissa := mantissa_eq_value_mul hd
  refine ⟨hd, hnearest.near, hnearest.even, ?_⟩
  -- With all fraction digits kept the digits are those of the number.
  have hexact : d.mantissa = (m : ℚ) / pow10 s * pow10 d.scale → d.value = m / pow10 s := by
    intro heq
    rw [hmantissa] at heq
    exact mul_right_cancel₀ (pow10_pos _).ne' heq
  rcases hnearest.full with heq | hlast | hfull
  · exact .inl (hexact heq.symm)
  · left
    apply hexact
    have hscale : d.scale = s := Nat.le_antisymm (fit_scale_le h) (by omega)
    have hnear := hnearest.near
    rw [hscale, div_mul_cancel₀ _ (pow10_pos s).ne'] at hnear ⊢
    rw [eq_of_abs_cast_sub_lt_one (hnear.trans_lt (by norm_num))]
  · exact .inr hfull

/-- **A sum fits the exact one**, if that is not below zero. A zero summand is passed over, and the
other one is answered as it is; else both are brought to one scale, added exactly and fitted. -/
theorem add_fits {a b d : Decimal} (h : a.add b = some d) (hnonneg : 0 ≤ a.value + b.value) :
    d.Fits (a.value + b.value) := by
  have hd := (add_rounds h).nonneg hnonneg
  cases ha : a.isZero with
  | true =>
    rw [add, if_pos ha] at h
    cases h
    rw [a.isZero_iff.1 ha, zero_add]
    exact .self hd
  | false =>
    cases hb : b.isZero with
    | true =>
      rw [add, ha, hb] at h
      cases h
      rw [b.isZero_iff.1 hb, add_zero]
      exact .self hd
    | false =>
      rw [add_eq_fit ha hb] at h
      have hpos := pow10_pos (max a.scale b.scale : ℕ)
      have hcast : ((total a b).natAbs : ℚ) = total a b := by
        rw [value_add_value, le_div_iff₀ hpos, zero_mul] at hnonneg
        rw [Nat.cast_natAbs, Int.cast_abs, abs_of_nonneg hnonneg]
      have hfits := fit_fits h (Nat.max_le.2 ⟨a.scale_le, b.scale_le⟩) hd
      rwa [hcast, ← value_add_value] at hfits

/-- **A difference fits the exact one**, if that is not below zero. -/
theorem sub_fits {a b d : Decimal} (h : a.sub b = some d) (hnonneg : 0 ≤ a.value - b.value) :
    d.Fits (a.value - b.value) := by
  cases hb : b.isZero with
  | true =>
    have hexact : d.value = a.value - b.value := by
      have hrounds := sub_rounds h
      rw [b.isZero_iff.1 hb, sub_zero] at hrounds ⊢
      exact hrounds.value_eq
    rw [← hexact] at hnonneg ⊢
    exact .self hnonneg
  | false =>
    rw [sub_eq_add hb] at h
    rw [sub_eq_add_neg, ← value_neg] at hnonneg ⊢
    exact add_fits h hnonneg

/-! ## There and back -/

/-- The bound ends in 6, and five times an odd number in 5, so the two are not the same, nor next to
each other. It is a matter of the last digit of 2 to the power of 96, and of nothing deeper. -/
theorem bound_add_nine_le {j : ℕ} (hodd : j % 2 = 1) (h : bound - 1 / 2 ≤ 5 * j) :
    bound + 9 ≤ 5 * j := by
  have htwice : 2 * bound ≤ 10 * j + 1 := by linarith
  unfold bound at htwice ⊢
  have htwice : 2 * 2 ^ 96 ≤ 10 * j + 1 := by exact_mod_cast htwice
  have hle : capacity + 9 ≤ 5 * j := by
    unfold capacity
    omega
  exact_mod_cast hle

/-- Half an odd number is half a step from a whole number, if it is no more. -/
theorem abs_sub_eq_half {j p : ℕ} (hodd : j % 2 = 1) (h : |(j : ℚ) / 2 - p| ≤ 1 / 2) :
    |(j : ℚ) / 2 - p| = 1 / 2 := by
  obtain ⟨z, hz⟩ : ∃ z : ℤ, z = j - 2 * p := ⟨_, rfl⟩
  have hhalf : (j : ℚ) / 2 - p = z / 2 := by
    rw [hz]
    push_cast
    ring
  rw [hhalf, abs_div, abs_two, ← Int.cast_abs] at h ⊢
  have hle : ((|z| : ℤ) : ℚ) ≤ 1 := by linarith
  have hle : |z| ≤ 1 := by exact_mod_cast hle
  have hone : |z| = 1 := by
    rw [abs_le] at hle
    rw [abs_eq zero_le_one]
    omega
  rw [hone, Int.cast_one]

/-- A tie of a number that is not below zero is half an odd number. -/
theorem exists_odd_of_tie {n : ℕ} {y : ℚ} (hy : 0 ≤ y) (h : |(n : ℚ) - y| = 1 / 2) :
    ∃ j : ℕ, j % 2 = 1 ∧ 2 * y = j := by
  rcases eq_or_eq_neg_of_abs_eq h with h | h
  · have hn : 0 < n := by
      rw [Nat.pos_iff_ne_zero]
      rintro rfl
      rw [Nat.cast_zero] at h
      linarith
    refine ⟨2 * n - 1, by omega, ?_⟩
    rw [Nat.cast_sub (by omega)]
    push_cast
    linarith
  · refine ⟨2 * n + 1, by omega, ?_⟩
    push_cast
    linarith

/-- **A number is close to a decimal** that is `n` steps of the scale `k`: off by half a step
at most, and by less if the steps are odd. In these steps it would be rounded to the decimal,
half to even. -/
structure Close (y : ℚ) (t : Decimal) (k n : ℕ) : Prop where
  nonneg : 0 ≤ t.value
  steps : t.value * pow10 k = n
  near : |y - t.value| * pow10 k ≤ 1 / 2
  even : |y - t.value| * pow10 k = 1 / 2 → n % 2 = 0

namespace Close

variable {y : ℚ} {t r : Decimal} {k n : ℕ}

/-- **Digits in no more steps that are full leave the decimal no more**: the half step does not take
it across the bound. Were the decimal to have more fraction digits, it would be below the bound in
steps where the number is not, and the two would be too far from each other. -/
theorem scale_le (h : Close y t k n) {s : ℕ} (hs : s + 1 ≤ k)
    (hfull : bound - 1 / 2 ≤ y * pow10 (s + 1)) : t.scale ≤ s := by
  have hstep : pow10 (s + 1) ≤ pow10 k := pow10_le (by omega)
  have hdrift : |y - t.value| * pow10 (s + 1) ≤ |y - t.value| * pow10 k :=
    mul_le_mul_of_nonneg_left hstep (abs_nonneg _)
  have hnear := h.near
  by_contra! hmore
  have hsmall := t.magnitude_mul_pow10_lt hmore
  rw [← value_eq_magnitude h.nonneg] at hsmall
  have hy : (y - t.value) * pow10 (s + 1) ≤ |y - t.value| * pow10 (s + 1) :=
    mul_le_mul_of_nonneg_right (le_abs_self _) (pow10_pos _).le
  rw [sub_mul] at hy
  -- So it is off by just half a step, and the decimal has the largest mantissa, which is odd.
  have htie : |y - t.value| * pow10 k = 1 / 2 := by linarith
  have hsame : |y - t.value| * pow10 (s + 1) = |y - t.value| * pow10 k := by linarith
  have hne : |y - t.value| ≠ 0 := by
    intro hzero
    rw [hzero, zero_mul] at htie
    norm_num at htie
  refine cast_ne_bound_sub_one (h.even htie) ?_
  rw [← h.steps, ← mul_left_cancel₀ hne hsame]
  linarith

/-- The number is not too large to be rounded. -/
theorem lt_bound (h : Close y t k n) : y < bound - 1 / 2 := by
  have hsmall := t.abs_value_le
  have hnear := h.near
  have hsteps := h.steps
  rw [abs_of_nonneg h.nonneg] at hsmall
  by_contra! hlarge
  have hone := one_le_pow10 k
  have hy : y - t.value ≤ |y - t.value| := le_abs_self _
  have hle : |y - t.value| * 1 ≤ |y - t.value| * pow10 k :=
    mul_le_mul_of_nonneg_left hone (abs_nonneg _)
  -- As before, where the steps are whole numbers.
  have htie : |y - t.value| = 1 / 2 := by linarith
  have hstep : pow10 k = 1 := by
    rw [htie] at hnear
    linarith
  rw [hstep, mul_one] at hsteps
  refine cast_ne_bound_sub_one (h.even (by rw [htie, hstep, mul_one])) ?_
  linarith

/-- In whole steps of one scale a decimal is the only one that fits a number close to it. -/
theorem value_eq_of_scale_eq (h : Close y t r.scale n) (hr : r.Fits y) : r.value = t.value := by
  have hmantissa := mantissa_eq_value_mul hr.nonneg
  have habs : |y * pow10 r.scale - n| = |y - t.value| * pow10 r.scale := by
    rw [← h.steps, ← sub_mul, abs_mul, abs_of_pos (pow10_pos _)]
  have htriangle := abs_sub_le (r.mantissa : ℚ) (y * pow10 r.scale) n
  have hnear := h.near
  have hnear' := hr.near
  have heq : r.mantissa = n := by
    by_contra hne
    -- Off by one means off by half a step twice, and then both are even.
    have hone : 1 ≤ |(r.mantissa : ℚ) - n| := by
      by_contra! hless
      exact hne (eq_of_abs_cast_sub_lt_one hless)
    have heven := h.even (by linarith)
    have heven' := hr.even (by linarith)
    have hlt : |(r.mantissa : ℚ) - n| < 2 := by linarith
    have hlt : |(r.mantissa : ℤ) - n| < 2 := by exact_mod_cast hlt
    rw [abs_lt] at hlt
    omega
  rw [heq, ← h.steps] at hmantissa
  exact (mul_right_cancel₀ (pow10_pos _).ne' hmantissa).symm

/-- **A decimal is the only one that fits a number close to it**, of those with no smaller steps. In
its own steps it is the nearest; in greater ones it fits only if the number is too large for smaller
ones, and then the other decimal has no smaller ones either. -/
theorem value_eq (h : Close y t k n) (hr : r.Fits y) (hscale : r.scale ≤ k) :
    r.value = t.value := by
  rcases Nat.lt_or_ge r.scale k with hlt | hge
  · have hpos := pow10_pos k
    have hnear := h.near
    rcases hr.full with hexact | hfull
    · -- Both are whole numbers of the same steps.
      obtain ⟨p, hp⟩ := exists_mul_pow10_eq hr.nonneg hscale
      rw [← hexact, ← abs_of_pos hpos, ← abs_mul, sub_mul, hp, h.steps] at hnear
      have heq : p = n := eq_of_abs_cast_sub_lt_one (by linarith)
      rw [heq, ← h.steps] at hp
      exact mul_right_cancel₀ hpos.ne' hp
    · -- Half a step is a twentieth of a larger one at most.
      obtain ⟨p, hp⟩ := exists_mul_pow10_eq h.nonneg (h.scale_le hlt hfull)
      have hstep : pow10 (r.scale + 1) ≤ pow10 k := pow10_le (by omega)
      have hdrift : |y - t.value| * pow10 (r.scale + 1) ≤ |y - t.value| * pow10 k :=
        mul_le_mul_of_nonneg_left hstep (abs_nonneg _)
      rw [pow10_succ] at hdrift
      refine value_eq_of_scale_eq ⟨h.nonneg, hp, by linarith, fun htie => ?_⟩ hr
      linarith
  · obtain rfl : r.scale = k := Nat.le_antisymm hscale hge
    exact h.value_eq_of_scale_eq hr

end Close

section

variable {a x t s : Decimal}

/-- Where a difference is full, the number it is taken from has no more fraction digits, as it is
no smaller. -/
theorem scale_le_of_full (hx : 0 ≤ x.value) (ht : 0 ≤ t.value) {k : ℕ}
    (hfull : bound - 1 / 2 ≤ (t.value - x.value) * pow10 (k + 1)) : t.scale ≤ k := by
  have hdrop : (t.value - x.value) * pow10 (k + 1) ≤ t.value * pow10 (k + 1) :=
    mul_le_mul_of_nonneg_right (by linarith) (pow10_pos _).le
  exact scale_le_of_lt ht (by linarith)

/-- **A sum is even where its difference from a summand is at a tie**, in the steps of the
difference: there the sum was at a tie itself. For a tie of the difference means that the summand
is half way between two steps, and then so is the exact sum; the sum was therefore rounded to the
even side. -/
theorem even_of_tie (ha : 0 ≤ a.value) (hx : 0 ≤ x.value) (hle : x.value ≤ t.value)
    (ht : t.Fits (a.value + x.value)) (hs : s.Fits (t.value - x.value))
    (htie : |s.mantissa - (t.value - x.value) * pow10 s.scale| = 1 / 2) {n : ℕ}
    (hn : t.value * pow10 s.scale = n) : n % 2 = 0 := by
  have hpos := pow10_pos s.scale
  have hfull : bound - 1 / 2 ≤ (t.value - x.value) * pow10 (s.scale + 1) := by
    refine hs.full.resolve_left fun hexact => ?_
    rw [← hexact, mantissa_eq_value_mul hs.nonneg, sub_self] at htie
    norm_num at htie
  rcases (scale_le_of_full hx ht.nonneg hfull).lt_or_eq with hlt | hscale
  · exact mod_two_of_scale_lt ht.nonneg hlt hn
  · have hmantissa := mantissa_eq_value_mul ht.nonneg
    have hnear := ht.near
    have heven := ht.even
    rw [hscale, hn] at hmantissa
    obtain rfl : t.mantissa = n := by exact_mod_cast hmantissa
    rw [hscale] at hnear heven
    obtain ⟨j, hodd, hj⟩ := exists_odd_of_tie (mul_nonneg (by linarith) hpos.le) htie
    -- The other summand is too large for a digit more than the difference has.
    have hascale : a.scale ≤ s.scale := by
      refine scale_le_of_lt ha ?_
      rw [pow10_succ] at hfull ⊢
      have hlarge := bound_add_nine_le hodd (by linarith)
      obtain ⟨hlow, hhigh⟩ := abs_le.1 hnear
      linarith
    obtain ⟨p, hp⟩ := exists_mul_pow10_eq ha hascale
    have hhalf : (t.mantissa : ℚ) - (a.value + x.value) * pow10 s.scale = j / 2 - p := by linarith
    rw [hhalf] at hnear heven
    exact heven (abs_sub_eq_half hodd hnear)

/-- **What is subtracted from a sum and added again gives the sum**, though each of the three
operations may round. The number that is rounded last is the difference and the summand together. It
is off from the sum by the error of the difference only, which is half a step at most; and it is
less than half a step, or the sum is even, so that the sum is what it is rounded to. -/
theorem exists_add_sub_eq (ha : 0 ≤ a.value) (hx : 0 ≤ x.value) (ht : a.add x = some t)
    (hs : t.sub x = some s) : ∃ r, s.add x = some r ∧ r.value = t.value := by
  have hle : x.value ≤ t.value := (add_rounds ht).le_of_le x (by linarith)
  have htfits := add_fits ht (by linarith)
  have hsfits := sub_fits hs (by linarith)
  rcases hsfits.full with hexact | hfull
  · exact exists_add_eq (by linarith)
  · have hpos := pow10_pos s.scale
    have hnonneg : 0 ≤ s.value + x.value := add_nonneg hsfits.nonneg hx
    have hdrift : |s.value + x.value - t.value| * pow10 s.scale
        = |s.mantissa - (t.value - x.value) * pow10 s.scale| := by
      rw [mantissa_eq_value_mul hsfits.nonneg, ← sub_mul, abs_mul, abs_of_pos hpos]
      congr 2
      ring
    obtain ⟨n, hn⟩ := exists_mul_pow10_eq htfits.nonneg
      (scale_le_of_full hx htfits.nonneg hfull)
    have hclose : Close (s.value + x.value) t s.scale n := by
      refine ⟨htfits.nonneg, hn, ?_, ?_⟩
      · rw [hdrift]
        exact hsfits.near
      · rw [hdrift]
        exact fun htie => even_of_tie ha hx hle htfits hsfits htie hn
    obtain ⟨r, hr⟩ : ∃ r, s.add x = some r := by
      rw [← Option.ne_none_iff_exists', ne_eq, add_eq_none_iff, abs_of_nonneg hnonneg]
      exact not_le.2 hclose.lt_bound
    have hrfits := add_fits hr hnonneg
    have hrscale : r.scale ≤ s.scale := by
      have hge : s.value ≤ r.value := (add_rounds hr).le_of_le s (by linarith)
      have hten := capacity_le_of_full hsfits.near hfull
      rw [mantissa_eq_value_mul hsfits.nonneg] at hten
      have hup := mul_le_mul_of_nonneg_right hge hpos.le
      refine scale_le_of_lt hrfits.nonneg ?_
      rw [pow10_succ]
      linarith
    exact ⟨r, hr, hclose.value_eq hrfits hrscale⟩

end

end Decimal

end Tariff
