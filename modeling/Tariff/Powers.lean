/-!
# Powers

Limits of numbers are written as powers: `2 ^ 96`, `10 ^ 28`. They are meant as the
powers of natural and whole numbers that the core library has. Where a library
with more general powers is around, `^` would mean those instead, so that the same
text would make another definition. Within this development it does not.
-/

namespace Tariff

attribute [default_instance 20000] instPowNat

attribute [scoped instance (2000)] instPowNat

end Tariff
