import Tariff.Powers

/-!
# Rounding a quotient

A quotient of natural numbers goes to the nearest whole number. Where two are
equally near, `divHalfEven` takes the even one.
-/

namespace Tariff

/-- **The quotient rounded half to even.** -/
def divHalfEven (n d : Nat) : Nat :=
  if d < 2 * (n % d) ∨ (2 * (n % d) = d ∧ n / d % 2 = 1) then n / d + 1 else n / d

end Tariff
