import Tariff.Proofs.Fitting

/-!
# Quotients

Division carries on digit by digit and never holds the exact quotient. What it
holds is a quotient and a remainder at some scale, and these are exact together:
`Reached` is the invariant, which `Reached.extend` keeps for any number of further
digits. Where division stops, the digits it answers are nearest to the exact
quotient, or there are none because it is too large; this is `Settles`, with a
lemma for each way to stop, and `Reached.settles_divideOn` is the induction on the
rounds. Each round adds a digit at least, so sixty are enough from the smallest
scale to the largest.

The zeros that are taken off the end change the digits but not the number, so
division answers the exact quotient (`div_answers`), as for the other operations.
-/

namespace Tariff

namespace Decimal

/-! ## Where long division is

The quotient is never known as a whole, but quotient and remainder are, and this is enough to tell
how far the digits are from the number. -/

/-- **Long division has come to `q` and `r`**: they are the quotient and the remainder of the
number, in steps of the scale `s`. The scale may be below zero at first, where the divisor has more
fraction digits than the dividend. -/
structure Reached (divisor : ℕ) (x : ℚ) (q r : ℕ) (s : ℤ) : Prop where
  exact : x * pow10 s = q + (r : ℚ) / divisor
  remainder_lt : r < divisor

namespace Reached

variable {divisor q r : ℕ} {x : ℚ} {s : ℤ}

theorem remainder_div_nonneg (_ : Reached divisor x q r s) : 0 ≤ (r : ℚ) / divisor :=
  div_nonneg (Nat.cast_nonneg r) (Nat.cast_nonneg divisor)

theorem remainder_div_lt_one (h : Reached divisor x q r s) : (r : ℚ) / divisor < 1 := by
  have hpos : (0 : ℚ) < divisor := Nat.cast_pos.2 (Nat.zero_lt_of_lt h.remainder_lt)
  rw [div_lt_one hpos]
  exact_mod_cast h.remainder_lt

theorem remainder_eq_zero (h : Reached divisor x q r s) (hzero : (r : ℚ) / divisor = 0) :
    r = 0 := by
  have hpos : (0 : ℚ) < divisor := Nat.cast_pos.2 (Nat.zero_lt_of_lt h.remainder_lt)
  rw [div_eq_zero_iff, or_iff_left hpos.ne'] at hzero
  exact_mod_cast hzero

/-- Half a step is left where twice the remainder is the divisor, which is what
rounding looks at. -/
theorem two_mul_remainder (h : Reached divisor x q r s) (hhalf : (r : ℚ) / divisor = 1 / 2) :
    2 * r = divisor := by
  have hpos : (0 : ℚ) < divisor := Nat.cast_pos.2 (Nat.zero_lt_of_lt h.remainder_lt)
  rw [div_eq_div_iff hpos.ne' two_ne_zero, one_mul, mul_comm] at hhalf
  exact_mod_cast hhalf

/-- The digits that have been reached are no more than the number. -/
theorem digits_le (h : Reached divisor x q r s) : (q : ℚ) ≤ x * pow10 s := by
  rw [h.exact]
  linarith [h.remainder_div_nonneg]

/-- **More digits**: `p` of them at once, from the remainder alone. Nothing of the exact number is
lost, and the remainder stays below the divisor. -/
theorem extend (h : Reached divisor x q r s) (p : ℕ) :
    Reached divisor x (q * 10 ^ p + r * 10 ^ p / divisor) (r * 10 ^ p % divisor) (s + p) where
  exact := by
    have hpos : (0 : ℚ) < divisor := Nat.cast_pos.2 (Nat.zero_lt_of_lt h.remainder_lt)
    have hsplit : ((divisor * (r * 10 ^ p / divisor) + r * 10 ^ p % divisor : ℕ) : ℚ)
        = (r * 10 ^ p : ℕ) := congrArg Nat.cast (Nat.div_add_mod _ _)
    rw [pow10_add, ← mul_assoc, h.exact, pow10_natCast, add_mul, div_mul_eq_mul_div,
      ← Nat.cast_mul r, ← hsplit]
    push_cast
    field_simp
    ring
  remainder_lt := Nat.mod_lt _ (Nat.zero_lt_of_lt h.remainder_lt)

/-- A number whose whole digits are too many is too large. The scale is not above zero yet, so the
digits count whole units at least. -/
theorem bound_le (h : Reached divisor x q r s) {p : ℕ} (hfull : capacity ≤ q * 10 ^ p)
    (hs : s + p ≤ 0) : bound ≤ x := by
  have hone : pow10 (s + p) ≤ 1 := by
    rw [← pow10_zero]
    exact pow10_le hs
  have hdigits : bound ≤ x * pow10 (s + p) := by
    rw [pow10_add, ← mul_assoc, pow10_natCast]
    have hcast : bound ≤ q * (10 ^ p : ℕ) := by
      unfold bound
      exact_mod_cast hfull
    exact hcast.trans (mul_le_mul_of_nonneg_right h.digits_le (Nat.cast_nonneg _))
  have hbound : 0 < bound := by
    unfold bound
    exact Nat.cast_pos.2 (by decide)
  have hx : 0 < x := by
    by_contra! hneg
    have := mul_nonpos_of_nonpos_of_nonneg hneg (pow10_pos (s + p)).le
    linarith
  exact hdigits.trans (mul_le_of_le_one_right hx.le hone)

end Reached

/-! ## What division answers

Division stops in three cases: nothing remains, there is no room for another digit, or there is one
digit too many. -/

/-- **A quotient settles a number** if its digits are nearest and within the limits; and none does
if the number is too large. This is what division has to answer, and the three ways in which it
stops have a lemma each. -/
def Settles (x : ℚ) : Option Quotient → Prop
  | none => bound - 1 / 2 ≤ x
  | some o => ∃ s : ℕ, o.scale = s ∧ s ≤ 28 ∧ o.digits < capacity ∧ Nearest x o.digits s

/-- **Full digits without the last one**, rounded half to even, are nearest. The last digit and the
remainder together say how far the number is from the digits that are left: more than half a step,
half a step, or less. -/
theorem Reached.nearest_shed {divisor q r t : ℕ} {x : ℚ} (h : Reached divisor x q r (t + 1))
    (hfull : bound ≤ q) : Nearest x
      (if 5 < q % 10 ∨ (q % 10 = 5 ∧ (r ≠ 0 ∨ q / 10 % 2 = 1)) then q / 10 + 1 else q / 10) t := by
  have hnonneg := h.remainder_div_nonneg
  have hlt := h.remainder_div_lt_one
  have hten := h.exact
  rw [pow10_succ] at hten
  have hsplit : (10 * (q / 10 : ℕ) + (q % 10 : ℕ) : ℚ) = q := by
    exact_mod_cast Nat.div_add_mod q 10
  have hroom : bound - 1 / 2 ≤ x * pow10 (t + 1) := by
    rw [pow10_succ]
    linarith
  -- What is cut off is half a step where the last digit is 5 and nothing comes after it.
  have hhalf : ((q % 10 : ℕ) : ℚ) + r / divisor = 5 → q % 10 = 5 ∧ r = 0 := by
    intro hfive
    have hlow : 4 < q % 10 := by
      have : ((4 : ℕ) : ℚ) < (q % 10 : ℕ) := by push_cast; linarith
      exact_mod_cast this
    have hhigh : q % 10 ≤ 5 := by
      have : ((q % 10 : ℕ) : ℚ) ≤ (5 : ℕ) := by push_cast; linarith
      exact_mod_cast this
    have hlast : q % 10 = 5 := by omega
    rw [hlast] at hfive
    exact ⟨hlast, h.remainder_eq_zero (by push_cast at hfive; linarith)⟩
  split
  · next hup =>
    have hlow : ((5 : ℕ) : ℚ) ≤ (q % 10 : ℕ) := Nat.cast_le.2 (by omega)
    have hhigh : ((q % 10 : ℕ) : ℚ) ≤ (9 : ℕ) := Nat.cast_le.2 (by omega)
    refine ⟨?_, fun htie => ?_, .inr (.inr hroom)⟩
    · rw [abs_le]
      push_cast at hlow hhigh ⊢
      constructor <;> linarith
    · obtain ⟨hlast, hrest⟩ := hhalf (by
        rcases eq_or_eq_neg_of_abs_eq htie with htie | htie <;> push_cast at hhigh htie <;>
          linarith)
      omega
  · next hdown =>
    have hlast : ((q % 10 : ℕ) : ℚ) + r / divisor ≤ 5 := by
      rcases Nat.lt_or_ge (q % 10) 5 with hless | hge
      · have : ((q % 10 : ℕ) : ℚ) ≤ (4 : ℕ) := Nat.cast_le.2 (Nat.le_of_lt_succ hless)
        push_cast at this
        linarith
      · obtain ⟨hlast, hrest⟩ : q % 10 = 5 ∧ r = 0 := by omega
        rw [hlast, hrest]
        norm_num
    refine ⟨?_, fun htie => ?_, .inr (.inr hroom)⟩
    · rw [abs_le]
      constructor <;> linarith
    · obtain ⟨hlast, hrest⟩ := hhalf (by
        rcases eq_or_eq_neg_of_abs_eq htie with htie | htie <;> linarith)
      omega

/-- **Digits that are one too many** shed the last. Rounding may fill them up once more, and then
another one has to go. -/
theorem Reached.settles_shed {divisor q r : ℕ} {x : ℚ} {s : ℤ} (h : Reached divisor x q r s)
    (hs : s ≤ 28) (hfull : capacity ≤ q) (hroom : q < 2 * capacity) (inexact : Bool) :
    Settles x ((shed q s (r != 0)).map fun (q, s) => ⟨q, s, inexact⟩) := by
  unfold shed
  split
  · next hneg =>
    show bound - 1 / 2 ≤ x
    have := h.bound_le (p := 0) (by simpa using hfull) (by simpa using hneg)
    linarith
  · next hpos =>
    obtain ⟨t, rfl⟩ : ∃ t : ℕ, s = t + 1 := ⟨(s - 1).toNat, by omega⟩
    have hnearest := h.nearest_shed (by unfold bound; exact_mod_cast hfull)
    simp only [bne_iff_ne]
    split
    · next hup =>
      rw [if_pos hup] at hnearest
      exact ⟨t, by simp, by omega, by show q / 10 + 1 < capacity; omega, hnearest⟩
    · next hdown =>
      rw [if_neg hdown] at hnearest
      exact ⟨t, by simp, by omega, by show q / 10 < capacity; omega, hnearest⟩

/-- The last digit is rounded half to even, with room for no more. -/
theorem Reached.settles_round {divisor q r : ℕ} {x : ℚ} {s : ℤ} (h : Reached divisor x q r s)
    (hpos : 0 ≤ s) (hs : s ≤ 28) (hdigits : q < capacity)
    (hfull : s = 28 ∨ capacity ≤ q * 10) :
    let up := divisor < 2 * r ∨ (2 * r = divisor ∧ q % 2 = 1)
    let q' := if up then q + 1 else q
    Settles x (if q' < capacity then some ⟨q', s, true⟩
      else (shed q' s true).map fun (q, s) => ⟨q, s, true⟩) := by
  intro up q'
  obtain ⟨t, rfl⟩ := Int.eq_ofNat_of_zero_le hpos
  have hdivisor : (0 : ℚ) < divisor := Nat.cast_pos.2 (Nat.zero_lt_of_lt h.remainder_lt)
  have hnonneg := h.remainder_div_nonneg
  have hlt := h.remainder_div_lt_one
  have hnear : |q' - x * pow10 t| ≤ 1 / 2 := by
    rw [h.exact, abs_le]
    by_cases hup : up
    · have hhalf : (1 : ℚ) / 2 ≤ r / divisor := by
        rw [div_le_div_iff₀ two_pos hdivisor]
        have : divisor ≤ r * 2 := by omega
        exact_mod_cast (Nat.one_mul divisor).trans_le this
      rw [show q' = q + 1 from if_pos hup]
      push_cast
      constructor <;> linarith
    · have hhalf : (r : ℚ) / divisor ≤ 1 / 2 := by
        rw [div_le_div_iff₀ hdivisor two_pos]
        have : r * 2 ≤ 1 * divisor := by omega
        exact_mod_cast this
      rw [show q' = q from if_neg hup]
      constructor <;> linarith
  have heven : |q' - x * pow10 t| = 1 / 2 → q' % 2 = 0 := by
    rw [h.exact]
    intro htie
    by_cases hup : up
    · rw [show q' = q + 1 from if_pos hup] at htie ⊢
      have htwice := h.two_mul_remainder (by
        rcases eq_or_eq_neg_of_abs_eq htie with htie | htie <;> push_cast at htie <;> linarith)
      omega
    · rw [show q' = q from if_neg hup] at htie ⊢
      have htwice := h.two_mul_remainder (by
        rcases eq_or_eq_neg_of_abs_eq htie with htie | htie <;> linarith)
      omega
  have hroom : t = 28 ∨ bound - 1 / 2 ≤ x * pow10 (t + 1) := by
    refine hfull.imp (by omega) fun hten => ?_
    have hcast : bound ≤ (q * 10 : ℕ) := by
      unfold bound
      exact_mod_cast hten
    have hle := h.digits_le
    push_cast at hcast
    rw [pow10_succ]
    linarith
  split
  · next hq => exact ⟨t, rfl, by omega, hq, hnear, heven, .inr hroom⟩
  · next hq =>
    -- Rounding up has filled the digits.
    have hcapacity : q' = capacity := by
      have : q' ≤ q + 1 := by
        show (if up then q + 1 else q) ≤ q + 1
        split <;> omega
      omega
    rw [hcapacity] at hnear ⊢
    unfold shed
    split
    · next hneg =>
      obtain rfl : t = 0 := by omega
      obtain ⟨-, hhigh⟩ := abs_le.1 hnear
      rw [Nat.cast_zero, pow10_zero, mul_one] at hhigh
      show bound - 1 / 2 ≤ x
      unfold bound
      linarith
    · next hpos =>
      obtain ⟨t, rfl⟩ : ∃ u, t = u + 1 := ⟨t - 1, by omega⟩
      rw [if_pos (.inl (by decide))]
      refine ⟨t, by simp, by omega, ?_, ?_⟩
      · show capacity / 10 + 1 < capacity
        decide
      · exact nearest_of_capacity (by exact_mod_cast hnear)

/-! ## Portions

Digits are added in portions, as many at once as there is room for. A portion that is too small
would only take more rounds; one that is too large would lose digits. -/

/-- **The search from the top finds the last number before the property ends.** It always finds one,
as the property holds of zero. -/
theorem exists_find?_reverse_range {f : ℕ → Bool} (h : f 0 = true) (n : ℕ) :
    ∃ p ≤ n, (List.range (n + 1)).reverse.find? f = some p ∧ f p = true
      ∧ (p = n ∨ f (p + 1) = false) := by
  induction n with
  | zero => exact ⟨0, Nat.le_refl 0, List.find?_cons_of_pos h, h, .inl rfl⟩
  | succ n ih =>
    rw [List.range_succ, List.reverse_append, List.reverse_singleton, List.singleton_append]
    cases hn : f (n + 1) with
    | true => exact ⟨n + 1, Nat.le_refl _, List.find?_cons_of_pos hn, hn, .inl rfl⟩
    | false =>
      obtain ⟨p, hle, hfind, hp, hend⟩ := ih
      rw [List.find?_cons_of_neg (by simp [hn])]
      refine ⟨p, Nat.le_succ_of_le hle, hfind, hp, .inr ?_⟩
      rcases hend with rfl | hend
      · exact hn
      · exact hend

/-- **A portion takes all the digits that there is room for**: nine at most, no more fraction
digits than there can be, and no more digits than fit. If it is fewer than nine, then one of the
two others is why. -/
theorem portion_spec {q : ℕ} {s : ℤ} (hq : q < capacity) (hs : s ≤ 28) :
    portion q s ≤ 9 ∧ s + portion q s ≤ 28 ∧ q * 10 ^ portion q s < capacity
      ∧ (portion q s = 9 ∨ s + portion q s = 28 ∨ capacity ≤ q * 10 ^ (portion q s + 1)) := by
  obtain ⟨p, hle, hfind, hp, hend⟩ :=
    exists_find?_reverse_range (f := fun p => q * 10 ^ p < capacity)
      (decide_eq_true (by simpa using hq)) (min 9 (28 - s).toNat)
  have hportion : portion q s = p := by rw [portion, hfind, Option.getD_some]
  rw [hportion]
  refine ⟨by omega, by omega, of_decide_eq_true hp, ?_⟩
  rcases hend with hlast | hend
  · omega
  · exact .inr (.inr (Nat.le_of_not_lt (of_decide_eq_false hend)))

/-! ## The rounds

The induction needs a measure. The scale grows with each round by the size of its portion, and it
has an end. -/

/-- The quotient with `p` more digits: division goes on, or a full quotient sheds one. That the
new digits may be one too many comes from the remainder, which adds less than one step of the
last scale. -/
theorem Reached.settles_extend {divisor q r rounds : ℕ} {x : ℚ} {s : ℤ}
    (h : Reached divisor x q r s) {p : ℕ} (hp : p ≤ 9) (hs : s + p ≤ 28)
    (hlarge : capacity ≤ q * 10 ^ p → bound ≤ x) (inexact : Bool)
    (hon : ∀ q' r', Reached divisor x q' r' (s + p) → q' < capacity →
      Settles x (divideOn divisor rounds q' r' (s + p) inexact)) :
    Settles x (if capacity ≤ q * 10 ^ p then none
      else
        let q' := q * 10 ^ p + r * 10 ^ p / divisor
        let r' := r * 10 ^ p % divisor
        if q' < capacity then divideOn divisor rounds q' r' (s + p) inexact
        else (shed q' (s + p) (r' != 0)).map fun (q, s) => ⟨q, s, inexact⟩) := by
  have hnext := h.extend p
  split
  · next hfull =>
    show bound - 1 / 2 ≤ x
    linarith [hlarge hfull]
  · next hfits =>
    dsimp only
    split
    · -- There is room for the digits, and the division goes on.
      next hq => exact hon _ _ hnext hq
    · -- There is none, and the digits that are too many are taken off again.
      next hq =>
      refine hnext.settles_shed hs (Nat.le_of_not_lt hq) ?_ inexact
      have hdigits : r * 10 ^ p / divisor < 10 ^ p := by
        rw [Nat.div_lt_iff_lt_mul (Nat.zero_lt_of_lt h.remainder_lt), Nat.mul_comm]
        exact Nat.mul_lt_mul_of_pos_left h.remainder_lt (Nat.pow_pos (by decide))
      have hportion : 10 ^ p ≤ 10 ^ 9 := Nat.pow_le_pow_right (by decide) hp
      unfold capacity at hfits ⊢
      omega

/-- **Long division settles the number it divides for**, if there are rounds enough for the digits
that are missing. The induction is on the rounds: each of them stops or adds a digit at least, so
that the missing digits are fewer in the next. -/
theorem Reached.settles_divideOn {divisor rounds q r : ℕ} {x : ℚ} {s : ℤ}
    (h : Reached divisor x q r s) (hq : q < capacity) (hs : s ≤ 28) (hrounds : 28 - s < rounds)
    (inexact : Bool) : Settles x (divideOn divisor rounds q r s inexact) := by
  induction rounds generalizing q r s inexact with
  | zero => omega
  | succ rounds ih =>
    obtain ⟨hnine, hlast, hroom, hmost⟩ := portion_spec hq hs
    unfold divideOn
    dsimp only
    split
    · next hzero =>
      subst hzero
      split
      · next hpos =>
        -- Nothing is left over, so the digits are exact.
        obtain ⟨t, rfl⟩ := Int.eq_ofNat_of_zero_le hpos
        have hexact : x * pow10 t = q := by
          have := h.exact
          rwa [Nat.cast_zero, zero_div, add_zero] at this
        exact ⟨t, rfl, by omega, hq, .of_exact hexact⟩
      · next hneg =>
        refine h.settles_extend (by omega) (by omega) (fun hfull => h.bound_le hfull (by omega)) _
          fun q' r' h' hq' => ih h' hq' (by omega) (by omega) _
    · split
      · next hlarge =>
        -- The digits are full before the whole ones are all there.
        show bound - 1 / 2 ≤ x
        have hfull : capacity ≤ q * 10 ^ (portion q s + 1) := by omega
        linarith [h.bound_le hfull (by omega)]
      · next hfits =>
        split
        · refine h.settles_extend hnine hlast (fun hfull => ?_) _
            fun q' r' h' hq' => ih h' hq' (by omega) (by omega) _
          omega
        · next hnone =>
          have hportion : portion q s = 0 := by omega
          rw [hportion] at hfits hmost
          exact h.settles_round (by omega) hs hq (by omega)

/-! ## Trailing zeros

This is the only step of division that is about how a number is written, and it is skipped where the
division comes out even at once. -/

/-- **Zeros are dropped** from digits and scale alike, which leaves the number the same. -/
def Drops (a b : ℕ × ℕ) : Prop := ∃ k, a.1 = b.1 * 10 ^ k ∧ a.2 = b.2 + k

theorem Drops.refl (a : ℕ × ℕ) : Drops a a := ⟨0, (Nat.mul_one _).symm, rfl⟩

theorem Drops.trans {a b c : ℕ × ℕ} (hab : Drops a b) (hbc : Drops b c) : Drops a c := by
  obtain ⟨k, hdigits, hscale⟩ := hab
  obtain ⟨l, hdigits', hscale'⟩ := hbc
  refine ⟨l + k, ?_, by omega⟩
  rw [hdigits, hdigits', Nat.pow_add, Nat.mul_assoc]

/-- Some zeros at the end are dropped at once. -/
theorem drops_div {q s k : ℕ} (hs : k ≤ s) (hq : q % 10 ^ k = 0) :
    Drops (q, s) (q / 10 ^ k, s - k) :=
  ⟨k, (Nat.div_mul_cancel (Nat.dvd_of_mod_eq_zero hq)).symm, (Nat.sub_add_cancel hs).symm⟩

/-- Zeros are dropped in portions of eight, as long as there are so many; -/
theorem drops_dropOctets (times q s : ℕ) : Drops (q, s) (dropOctets times q s) := by
  induction times generalizing q s with
  | zero => exact .refl _
  | succ times ih =>
    unfold dropOctets
    split
    · next hzeros => exact (drops_div hzeros.2.1 hzeros.2.2).trans (ih _ _)
    · exact .refl _

/-- then in smaller ones; -/
theorem drops_dropZeros (k : ℕ) (a : ℕ × ℕ) : Drops a (dropZeros k a) := by
  obtain ⟨q, s⟩ := a
  unfold dropZeros
  dsimp only
  split
  · next h => exact drops_div h.1 h.2
  · exact .refl _

/-- and so until none is left or the scale is zero. Where it stops does not matter here. -/
theorem drops_trim (q s : ℕ) : Drops (q, s) (trim q s) :=
  (drops_dropOctets 4 q s).trans <| (drops_dropZeros 4 _).trans <|
    (drops_dropZeros 2 _).trans (drops_dropZeros 1 _)

/-- **Nearest digits that drop their zeros** make a decimal within the limits, which is the rounding
of the number with the sign. -/
theorem Drops.exists_isRounding {x : ℚ} {q s : ℕ} {b : ℕ × ℕ} (h : Drops (q, s) b) (hx : 0 ≤ x)
    (hq : q < capacity) (hs : s ≤ 28) (hnearest : Nearest x q s) (negative : Bool) :
    ∃ d, ofParts? (b.1 != 0 && negative) b.1 b.2 = some d
      ∧ d.IsRounding (if negative then -x else x) := by
  obtain ⟨k, hdigits, hscale⟩ := h
  obtain ⟨m, t⟩ := b
  dsimp only at hdigits hscale ⊢
  have hpow : 0 < 10 ^ k := Nat.pow_pos (by decide)
  have hlt : m < capacity := by
    have := Nat.le_mul_of_pos_right m hpow
    omega
  refine ⟨_, ofParts?_of_lt hlt (by omega), ?_⟩
  -- The decimal with all its zeros is the rounding, and is the same one.
  have hrounding := Nearest.isRounding (d := ⟨negative, q, s, hq, hs⟩) hx hnearest
  refine hrounding.of_value_eq ?_
  have hmagnitude : (m : ℚ) / pow10 t = q / pow10 s := by
    have hcast : (0 : ℚ) < (10 ^ k : ℕ) := Nat.cast_pos.2 hpow
    have hpos := pow10_pos t
    rw [hdigits, hscale, Nat.cast_add, pow10_add, pow10_natCast k, Nat.cast_mul]
    field_simp
  rw [value_eq, value_eq]
  unfold magnitude
  dsimp only
  rw [hmagnitude]
  rcases Nat.eq_zero_or_pos m with rfl | hm
  · rw [Nat.zero_mul] at hdigits
    simp [hdigits]
  · rw [bne_iff_ne.2 hm.ne', Bool.true_and]

/-! ## Quotients -/

/-- Dividing the mantissas is dividing the numbers, in steps of the difference of the scales. -/
theorem magnitude_div_magnitude (a b : Decimal) :
    a.magnitude / b.magnitude * pow10 ((a.scale : ℤ) - b.scale) = a.mantissa / b.mantissa := by
  have ha := pow10_pos a.scale
  have hb := pow10_pos b.scale
  have hsplit : pow10 a.scale = pow10 ((a.scale : ℤ) - b.scale) * pow10 b.scale := by
    rw [← pow10_add]
    congr 1
    omega
  have hpos := pow10_pos ((a.scale : ℤ) - b.scale)
  rw [magnitude, magnitude, hsplit]
  field_simp

/-- So the first division of the mantissas is where long division begins. -/
theorem reached_start (a : Decimal) {b : Decimal} (hb : b.isZero = false) :
    Reached b.mantissa (a.magnitude / b.magnitude) (a.mantissa / b.mantissa)
      (a.mantissa % b.mantissa) ((a.scale : ℤ) - b.scale) where
  exact := by
    have hpos : (0 : ℚ) < b.mantissa :=
      Nat.cast_pos.2 (Nat.pos_of_ne_zero (by simpa [isZero] using hb))
    have hsplit : ((b.mantissa * (a.mantissa / b.mantissa) + a.mantissa % b.mantissa : ℕ) : ℚ)
        = a.mantissa := congrArg Nat.cast (Nat.div_add_mod _ _)
    rw [magnitude_div_magnitude, ← hsplit]
    push_cast
    field_simp
  remainder_lt := Nat.mod_lt _ (Nat.pos_of_ne_zero (by simpa [isZero] using hb))

/-- And sixty rounds are enough from there. -/
theorem settles_div (a : Decimal) {b : Decimal} (hb : b.isZero = false) :
    Settles (a.magnitude / b.magnitude) (divideOn b.mantissa 60 (a.mantissa / b.mantissa)
      (a.mantissa % b.mantissa) ((a.scale : ℤ) - b.scale) false) := by
  have ha := a.scale_le
  have hb' := b.scale_le
  exact (reached_start a hb).settles_divideOn
    (Nat.lt_of_le_of_lt (Nat.div_le_self _ _) a.mantissa_lt) (by omega) (by omega) false

theorem value_div_value (a b : Decimal) :
    a.value / b.value = if a.negative != b.negative then -(a.magnitude / b.magnitude)
      else a.magnitude / b.magnitude := by
  rw [a.value_eq, b.value_eq]
  cases a.negative <;> cases b.negative <;> simp [neg_div, div_neg]

/-- What division makes of a quotient that settles the number: where some digits were left out it
drops the zeros at the end, and in any case it puts the sign of the quotient before it. -/
theorem Settles.exists_isRounding {o : Quotient} (a b : Decimal)
    (h : Settles (a.magnitude / b.magnitude) (some o)) :
    ∃ d, (let (q, s) := if o.inexact then trim o.digits o.scale.toNat
        else (o.digits, o.scale.toNat)
      ofParts? (q != 0 && a.negative != b.negative) q s) = some d
      ∧ d.IsRounding (if a.negative != b.negative then -(a.magnitude / b.magnitude)
        else a.magnitude / b.magnitude) := by
  obtain ⟨s, hscale, hs, hq, hnearest⟩ := h
  have hx : 0 ≤ a.magnitude / b.magnitude := div_nonneg a.magnitude_nonneg b.magnitude_nonneg
  have hdrops : Drops (o.digits, s)
      (if o.inexact then trim o.digits o.scale.toNat else (o.digits, o.scale.toNat)) := by
    rw [hscale, Int.toNat_natCast]
    split
    · exact drops_trim _ _
    · exact .refl _
  exact hdrops.exists_isRounding hx hq hs hnearest _

/-- **A quotient answers the exact one**: it is its rounding, half to even, at the largest scale
that fits; and there is none only where the exact one is too large. With this, division is known as
well as the operations that hold the exact result at some point. -/
theorem div_answers (a : Decimal) {b : Decimal} (hb : b.isZero = false) :
    Answers (a.value / b.value) (a.div b) := by
  unfold div
  split
  · next hzero =>
    rw [a.isZero_iff.1 hzero, zero_div, ← value_zero]
    exact .self zero
  · have hsettles := settles_div a hb
    cases hdigits : divideOn b.mantissa 60 (a.mantissa / b.mantissa) (a.mantissa % b.mantissa)
        ((a.scale : ℤ) - b.scale) false with
    | none =>
      rw [hdigits] at hsettles
      dsimp only
      rw [hdigits, value_div_value]
      exact .none_of_le hsettles
    | some o =>
      rw [hdigits] at hsettles
      obtain ⟨d, hd, hrounding⟩ := hsettles.exists_isRounding a b
      rw [← value_div_value] at hrounding
      dsimp only
      rw [hdigits]
      exact (congrArg (Answers _) hd).mpr hrounding

/-- **A quotient rounds the exact one.** -/
theorem div_rounds {a b d : Decimal} (hb : b.isZero = false) (h : a.div b = some d) :
    d.Rounds (a.value / b.value) :=
  (div_answers a hb).rounds h

/-- **A quotient has no result only where it is too large.** -/
theorem bound_le_of_div_eq_none {a b : Decimal} (hb : b.isZero = false) (h : a.div b = none) :
    bound - 1 / 2 ≤ |a.value / b.value| :=
  (div_answers a hb).eq_none_iff.1 h

end Decimal

end Tariff
