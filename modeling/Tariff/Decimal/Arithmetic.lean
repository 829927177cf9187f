import Tariff.Decimal.Basic
import Tariff.Rounding

/-!
# Arithmetic of decimals

Each operation computes the exact result first and then **fits** it: digits are
dropped from the fraction, rounding half to even, until the mantissa has 96
bits and the scale is at most 28. When even the whole part does not fit there
is no result, and the operation answers `none`. Nothing wraps and nothing
saturates.

Division has no exact result to fit in general. It is the long division of the
mantissas, continued in portions of up to nine digits until the remainder is
zero or the quotient is full; the last digit is rounded half to even.

`roundMoney` is the other rounding of the library: to two fraction digits, a
half going away from zero.
-/

namespace Tariff

namespace Decimal

/-- How many fraction digits of `m / 10 ^ s` to drop: the fewest that leave at
most 28 of them and a mantissa within the capacity. None if the digits of the
whole part are already too many. -/
def excess? (m s : Nat) : Option Nat :=
  (List.range' (s - maxScale) (s + 1 - (s - maxScale))).find? fun k => m / 10 ^ k < capacity

/-- **The decimal nearest to `m / 10 ^ s`** with as many fraction digits as fit.
Rounding may fill the mantissa once more; then one further digit goes. -/
def fit (negative : Bool) (m s : Nat) : Option Decimal := do
  let k ← excess? m s
  if k = 0 then ofParts? negative m s
  else
    let q := divHalfEven m (10 ^ k)
    if q < capacity then ofParts? negative q (s - k)
    else if k + 1 ≤ s then ofParts? negative (divHalfEven q 10) (s - (k + 1))
    else none

/-! ## Sum and difference -/

/-- The sum. A zero summand leaves the other one as it is, scale included;
otherwise the scale is the larger of the two before fitting. -/
def add (a b : Decimal) : Option Decimal :=
  if a.isZero then some b
  else if b.isZero then some a
  else
    let s := max a.scale b.scale
    let n := a.signed * 10 ^ (s - a.scale) + b.signed * 10 ^ (s - b.scale)
    fit (decide (n < 0)) n.natAbs s

/-- The difference: the sum with the other sign. A zero keeps its own. -/
def sub (a b : Decimal) : Option Decimal :=
  if b.isZero then some (if a.isZero then b else a) else add a b.neg

/-! ## Product -/

/-- Whether the mantissa fits in 32 bits. -/
def isShort (d : Decimal) : Bool := d.mantissa < 2 ^ 32

/-- The product. A zero factor gives plain `0`, and so do two short factors with
more than 47 fraction digits between them, whose product is far below the last
digit. A product of two short factors that rounds to zero loses its sign. -/
def mul (a b : Decimal) : Option Decimal :=
  if a.isZero || b.isZero then some zero
  else if a.isShort && b.isShort && 47 < a.scale + b.scale then some zero
  else
    (fit (a.negative != b.negative) (a.mantissa * b.mantissa) (a.scale + b.scale)).map fun p =>
      if p.isZero && a.isShort && b.isShort then { p with negative := false } else p

/-! ## Quotient -/

/-- **A full quotient sheds a digit.** `q` has grown past the capacity with `s`
fraction digits; its last digit is dropped, rounding half to even, where
`sticky` says that something nonzero was cut off after it. -/
def shed (q : Nat) (s : Int) (sticky : Bool) : Option (Nat × Int) :=
  if s ≤ 0 then none
  else if 5 < q % 10 ∨ (q % 10 = 5 ∧ (sticky ∨ q / 10 % 2 = 1)) then some (q / 10 + 1, s - 1)
  else some (q / 10, s - 1)

/-- How many digits the next portion of the quotient has: at most nine, at most
up to scale 28, and no more than the mantissa has room for. -/
def portion (q : Nat) (s : Int) : Nat :=
  ((List.range (min 9 (28 - s).toNat + 1)).reverse.find? fun p => q * 10 ^ p < capacity).getD 0

/-- What long division has arrived at: a quotient with `scale` fraction digits,
and whether it was ever inexact, so that zeros at its end may be taken off. -/
structure Quotient where
  /-- The digits. -/
  digits : Nat
  /-- The number of fraction digits, negative while whole digits are missing. -/
  scale : Int
  /-- Whether a remainder was carried. -/
  inexact : Bool

/-- **Long division, carried on.** `q` and `r` are the quotient and remainder by
`divisor` so far, at scale `s`. Every round adds at least one digit, and the
scale ends at 28, so sixty rounds are more than there can be. -/
def divideOn (divisor : Nat) : Nat → Nat → Nat → Int → Bool → Option Quotient
  | 0, _, _, _, _ => none
  | rounds + 1, q, r, s, inexact =>
    let extend (p : Nat) (inexact : Bool) : Option Quotient :=
      if capacity ≤ q * 10 ^ p then none
      else
        let q' := q * 10 ^ p + r * 10 ^ p / divisor
        let r' := r * 10 ^ p % divisor
        if q' < capacity then divideOn divisor rounds q' r' (s + p) inexact
        else (shed q' (s + p) (r' != 0)).map fun (q, s) => ⟨q, s, inexact⟩
    if r = 0 then
      if 0 ≤ s then some ⟨q, s, inexact⟩ else extend (min 9 (-s).toNat) inexact
    else
      let p := portion q s
      if p < 9 ∧ s + p < 0 then none
      else if p ≠ 0 then extend p true
      else
        let up := divisor < 2 * r ∨ (2 * r = divisor ∧ q % 2 = 1)
        let q' := if up then q + 1 else q
        if q' < capacity then some ⟨q', s, true⟩
        else (shed q' s true).map fun (q, s) => ⟨q, s, true⟩

/-- Takes eight zeros at a time off the end, while the digits are a multiple of
`2 ^ 32` as well. -/
def dropOctets : Nat → Nat → Nat → Nat × Nat
  | 0, q, s => (q, s)
  | times + 1, q, s =>
    if q % 2 ^ 32 = 0 ∧ 8 ≤ s ∧ q % 10 ^ 8 = 0 then dropOctets times (q / 10 ^ 8) (s - 8) else (q, s)

/-- Takes `k` zeros off the end, if there are as many. -/
def dropZeros (k : Nat) : Nat × Nat → Nat × Nat
  | (q, s) => if k ≤ s ∧ q % 10 ^ k = 0 then (q / 10 ^ k, s - k) else (q, s)

/-- Takes zeros off the end of an inexact quotient: eights while they last, then
at most a four, a two and a one. -/
def trim (q s : Nat) : Nat × Nat :=
  dropZeros 1 (dropZeros 2 (dropZeros 4 (dropOctets 4 q s)))

/-- The quotient; the divisor is not zero. A zero dividend gives plain `0`, and
a quotient that rounds to zero is positive. -/
def div (a b : Decimal) : Option Decimal :=
  if a.isZero then some zero
  else do
    let s : Int := (a.scale : Int) - b.scale
    let ⟨q, s, inexact⟩ ←
      divideOn b.mantissa 60 (a.mantissa / b.mantissa) (a.mantissa % b.mantissa) s false
    let (q, s) := if inexact then trim q s.toNat else (q, s.toNat)
    ofParts? (q != 0 && a.negative != b.negative) q s

/-! ## Money -/

/-- **An amount of money**: two fraction digits, a half going away from zero. An
amount with fewer digits is left as it is; one that rounds to zero is positive,
but a zero keeps its sign. -/
def roundMoney (d : Decimal) : Decimal :=
  if d.scale ≤ 2 then d
  else
    let unit := 10 ^ (d.scale - 2)
    let m := (d.mantissa + unit / 2) / unit
    (ofParts? (d.negative && (d.isZero || m != 0)) m 2).getD d

end Decimal

end Tariff
