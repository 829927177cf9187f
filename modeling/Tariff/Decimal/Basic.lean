import Tariff.Powers

/-!
# Decimal numbers

Prices, rates and cylinder sizes are **decimals**: a sign, a mantissa of at
most 96 bits and a scale of at most 28 fraction digits. The pair
`(mantissa, scale)` stands for `mantissa / 10 ^ scale`, so one number has
several decimals – `1`, `1.0` and `1.00` – and the scale is kept, because a
price entered as `12.50` is shown as `12.50`.

Two notions of sameness follow. Equality of decimals, `=`, is equality of sign,
mantissa and scale; `a.SameNumber b` is equality of the numbers they stand for.
The order is the order of the numbers. Both are stated through `units`, which
counts a decimal in steps of `10 ^ (-28)`: every decimal is a whole number of
such steps, so comparing decimals is comparing integers.

Zero has a sign here as well. It is shown, and some checks read it
(`isSignNegative`), but no comparison sees it.
-/

namespace Tariff

/-- **A decimal number**: `mantissa / 10 ^ scale`, negated when `negative`. -/
structure Decimal where
  /-- The sign; a zero may carry it too. -/
  negative : Bool
  /-- The digits, without the point. -/
  mantissa : Nat
  /-- How many of the digits stand after the point. -/
  scale : Nat
  mantissa_lt : mantissa < 2 ^ 96
  scale_le : scale ≤ 28
deriving DecidableEq

namespace Decimal

/-- One more than the largest mantissa. -/
abbrev capacity : Nat := 2 ^ 96

/-- The largest scale. -/
abbrev maxScale : Nat := 28

/-- The decimal with these parts, if they are within the limits. -/
def ofParts? (negative : Bool) (mantissa scale : Nat) : Option Decimal :=
  if h : mantissa < 2 ^ 96 ∧ scale ≤ 28 then some ⟨negative, mantissa, scale, h.1, h.2⟩ else none

/-- The whole number `0`. -/
def zero : Decimal := ⟨false, 0, 0, by decide, by decide⟩

/-- The whole number `1`. -/
def one : Decimal := ⟨false, 1, 0, by decide, by decide⟩

/-- The whole number `100`, by which percentages are divided. -/
def hundred : Decimal := ⟨false, 100, 0, by decide, by decide⟩

instance : Inhabited Decimal := ⟨zero⟩

/-- A 32-bit count as a decimal. -/
def ofUInt32 (n : UInt32) : Decimal :=
  ⟨false, n.toNat, 0, Nat.lt_trans n.toNat_lt (by decide), by decide⟩

/-- A 64-bit integer as a decimal. -/
def ofInt64 (n : Int64) : Decimal :=
  ⟨decide (n.toInt < 0), n.toInt.natAbs, 0, by
    have h₁ := n.toInt_lt
    have h₂ := n.le_toInt
    omega, by decide⟩

/-! ## The number a decimal stands for -/

/-- The mantissa with its sign. -/
def signed (d : Decimal) : Int := if d.negative then -(d.mantissa : Int) else d.mantissa

/-- **The value in steps of `10 ^ (-28)`.** -/
def units (d : Decimal) : Int := d.signed * 10 ^ (28 - d.scale)

/-- Whether two decimals stand for one number, whatever their scales. -/
def SameNumber (a b : Decimal) : Prop := a.units = b.units

instance (a b : Decimal) : Decidable (a.SameNumber b) := inferInstanceAs (Decidable (_ = _))

instance : LT Decimal := ⟨fun a b => a.units < b.units⟩

instance : LE Decimal := ⟨fun a b => a.units ≤ b.units⟩

instance (a b : Decimal) : Decidable (a < b) := inferInstanceAs (Decidable (a.units < b.units))

instance (a b : Decimal) : Decidable (a ≤ b) := inferInstanceAs (Decidable (a.units ≤ b.units))

/-- Whether the number is zero. -/
def isZero (d : Decimal) : Bool := d.mantissa == 0

/-- Whether the sign is set, on zero as well. -/
def isSignNegative (d : Decimal) : Bool := d.negative

/-- Whether the number is below zero. -/
def isNegative (d : Decimal) : Bool := d.isSignNegative && !d.isZero

/-- The decimal with the other sign. -/
def neg (d : Decimal) : Decimal := { d with negative := !d.negative }

/-! ## Trailing zeros -/

/-- Takes zeros off the end of the digits while fraction digits are left. -/
def stripZeros : Nat → Nat → Nat × Nat
  | m, 0 => (m, 0)
  | m, s + 1 => if m % 10 = 0 then stripZeros (m / 10) s else (m, s + 1)

theorem stripZeros_fst_le (m s : Nat) : (stripZeros m s).1 ≤ m := by
  induction s generalizing m with
  | zero => exact Nat.le_refl m
  | succ s ih =>
    rw [stripZeros]
    split
    · exact Nat.le_trans (ih _) (Nat.div_le_self m 10)
    · exact Nat.le_refl m

theorem stripZeros_snd_le (m s : Nat) : (stripZeros m s).2 ≤ s := by
  induction s generalizing m with
  | zero => exact Nat.le_refl 0
  | succ s ih =>
    rw [stripZeros]
    split
    · exact Nat.le_trans (ih _) (Nat.le_succ s)
    · exact Nat.le_refl _

/-- **The shortest decimal of the same number**: no fraction digit at the end
is zero, and zero is plain `0`. -/
def normalize (d : Decimal) : Decimal :=
  if d.isZero then zero
  else ⟨d.negative, (stripZeros d.mantissa d.scale).1, (stripZeros d.mantissa d.scale).2,
    Nat.lt_of_le_of_lt (stripZeros_fst_le _ _) d.mantissa_lt,
    Nat.le_trans (stripZeros_snd_le _ _) d.scale_le⟩

end Decimal

end Tariff
