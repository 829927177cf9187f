import Tariff.Rounding

/-!
# Binary floating-point numbers

A number in a document that is not a small integer is held in the 64-bit binary
format: a significand of 53 bits times a power of two. `Binary64` holds the
finite ones, each in its one canonical form, and `nearest?` is the rounding of
a ratio into the format – to the nearest such number, ties to the even
significand. A ratio beyond the largest finite number has none.

The library does no arithmetic in this format. Such a number is read from its
notation, written again, and otherwise only turned into a `Decimal`.
-/

namespace Tariff

/-- **A finite binary floating-point number**: `significand * 2 ^ exponent`. The
significand is full unless the exponent is the smallest. -/
structure Binary64 where
  /-- The sign; zero has one too. -/
  negative : Bool
  significand : Nat
  exponent : Int
  canonical : significand < 2 ^ 53 ∧ -1074 ≤ exponent ∧ exponent ≤ 971 ∧
    (2 ^ 52 ≤ significand ∨ exponent = -1074)
deriving DecidableEq

namespace Binary64

/-- The number with these parts, if they are canonical. -/
def ofParts? (negative : Bool) (significand : Nat) (exponent : Int) : Option Binary64 :=
  if h : significand < 2 ^ 53 ∧ -1074 ≤ exponent ∧ exponent ≤ 971 ∧
      (2 ^ 52 ≤ significand ∨ exponent = -1074) then
    some ⟨negative, significand, exponent, h⟩
  else none

/-- Zero, with a sign. -/
def zero (negative : Bool) : Binary64 := ⟨negative, 0, -1074, by decide⟩

/-- **The ratio `n / d` in units of `2 ^ q`**, as a ratio again. -/
def inUnits (n d : Nat) (q : Int) : Nat × Nat := (n * 2 ^ (-q).toNat, d * 2 ^ q.toNat)

/-- The exponent at which the ratio `n / d` has a significand of 53 bits, or the
smallest exponent if that is larger. -/
def exponentOf (n d : Nat) : Int :=
  let q : Int := (n.log2 : Int) - d.log2 - 52
  let (n', d') := inUnits n d q
  max (if n' / d' < 2 ^ 52 then q - 1 else q) (-1074)

/-- **The number nearest to `n / d`**, ties to the even significand; none if it is
beyond the largest. -/
def nearest? (negative : Bool) (n d : Nat) : Option Binary64 :=
  if n = 0 then some (zero negative)
  else
    let q := exponentOf n d
    let (n', d') := inUnits n d q
    let m := divHalfEven n' d'
    if m < 2 ^ 53 then ofParts? negative m q else ofParts? negative (m / 2) (q + 1)

/-- **The number nearest to `digits * 10 ^ exponent`.** Exponents far outside the
range of the format are decided without computing the power. -/
def ofDigits? (negative : Bool) (digits : Nat) (exponent : Int) : Option Binary64 :=
  let magnitude := exponent + (Nat.toDigits 10 digits).length
  if digits = 0 ∨ magnitude < -330 then some (zero negative)
  else if 330 < magnitude then none
  else nearest? negative (digits * 10 ^ exponent.toNat) (10 ^ (-exponent).toNat)

end Binary64

end Tariff
