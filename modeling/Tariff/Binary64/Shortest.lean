import Tariff.Binary64.Basic

/-!
# The shortest notation of a binary number

The numbers that round to a given `Binary64` fill an interval around it. Its
notation uses **the fewest decimal digits that fall into that interval**, and of
those the nearest. `shortest` finds them on the decimal grids, coarsest first:
if any point of a grid lies in the interval, one of the two grid points around
the number does, so only these two are tried.

How the digits are then laid out – when an exponent is written, whether a whole
number ends in `.0`, which of two equally near candidates is taken – is a matter
of the format, gathered in a `Layout`.
-/

namespace Tariff

namespace Binary64

/-- Which of two equally near digit strings is taken. -/
inductive Tie where
  /-- The one whose last digit is even. -/
  | even
  /-- The larger one. -/
  | up
deriving DecidableEq

/-- Digits and their place: `digits * 10 ^ exponent`. -/
structure Digits where
  digits : Nat
  exponent : Int
deriving DecidableEq

/-- **The numbers that round to a binary number**, as ratios with one
denominator: the lower end, the number itself and the upper end. The ends belong
to the interval when the significand is even. -/
structure Interval where
  lower : Nat
  value : Nat
  upper : Nat
  denominator : Nat
  closed : Bool

/-- The interval of `x`. Below a power of two the spacing is half as wide. -/
def interval (x : Binary64) : Interval :=
  let narrow := x.significand = 2 ^ 52 ∧ x.exponent ≠ -1074
  let unit := 2 ^ (x.exponent - 2).toNat
  { lower := (4 * x.significand - if narrow then 1 else 2) * unit
    value := 4 * x.significand * unit
    upper := (4 * x.significand + 2) * unit
    denominator := 2 ^ (2 - x.exponent).toNat
    closed := x.significand % 2 = 0 }

/-- The interval counted in steps of `10 ^ k`. -/
def Interval.onGrid (i : Interval) (k : Int) : Interval :=
  let up := 10 ^ (-k).toNat
  { i with
    lower := i.lower * up
    value := i.value * up
    upper := i.upper * up
    denominator := i.denominator * 10 ^ k.toNat }

/-- Whether the whole number `n` lies in the interval. -/
def Interval.contains (i : Interval) (n : Nat) : Bool :=
  if i.closed then i.lower ≤ n * i.denominator && n * i.denominator ≤ i.upper
  else i.lower < n * i.denominator && n * i.denominator < i.upper

/-- The whole number of the interval nearest to its value, if one of the two
around the value lies in it. -/
def Interval.nearestWhole? (tie : Tie) (i : Interval) : Option Nat :=
  let n := i.value / i.denominator
  let r := i.value % i.denominator
  match i.contains n, i.contains (n + 1) with
  | false, false => none
  | true, false => some n
  | false, true => some (n + 1)
  | true, true =>
    if 2 * r < i.denominator then some n
    else if i.denominator < 2 * r then some (n + 1)
    else match tie with
      | .even => some (if n % 2 = 0 then n else n + 1)
      | .up => some (n + 1)

/-- The decimal exponent of the ratio `n / d`: the place of its first digit. -/
def leadingPlace (n d : Nat) : Int :=
  if d ≤ n then (Nat.toDigits 10 (n / d)).length - 1
  else -((Nat.toDigits 10 ((d + n - 1) / n - 1)).length : Int)

/-- Moves zeros at the end of the digits into the exponent. -/
def stripDigits : Nat → Nat → Int → Digits
  | 0, n, k => ⟨n, k⟩
  | fuel + 1, n, k => if n % 10 = 0 then stripDigits fuel (n / 10) (k + 1) else ⟨n, k⟩

/-- **The shortest digits of the magnitude of `x`.** Seventeen digits are always
enough. -/
def shortest (tie : Tie) (x : Binary64) : Digits :=
  if x.significand = 0 then ⟨0, 0⟩
  else
    let i := x.interval
    let place := leadingPlace i.value i.denominator
    let hit := (List.range 18).findSome? fun (j : Nat) =>
      ((i.onGrid (place - j)).nearestWhole? tie).map fun n => (n, place - j)
    match hit with
    | some (n, k) => stripDigits 2 n k
    | none => ⟨0, 0⟩

/-! ## Layout -/

/-- **How digits are laid out.** -/
structure Layout where
  /-- The smallest decimal exponent written positionally. -/
  positionalFrom : Int
  /-- The largest decimal exponent written positionally. -/
  positionalTo : Int
  /-- Whether a whole number in positional notation ends in `.0`. -/
  wholeWithPoint : Bool
  /-- Which of two equally near candidates is taken. -/
  tie : Tie

/-- Positional notation. -/
def positional (wholeWithPoint : Bool) (d : Digits) : List Char :=
  let cs := Nat.toDigits 10 d.digits
  let place := d.exponent + cs.length - 1
  if 0 ≤ d.exponent then
    cs ++ List.replicate d.exponent.toNat '0' ++ (if wholeWithPoint then ['.', '0'] else [])
  else if 0 ≤ place then
    cs.take (place + 1).toNat ++ '.' :: cs.drop (place + 1).toNat
  else
    '0' :: '.' :: List.replicate (-place - 1).toNat '0' ++ cs

/-- Scientific notation, with a sign on every exponent. -/
def scientific (d : Digits) : List Char :=
  let cs := Nat.toDigits 10 d.digits
  let place := d.exponent + cs.length - 1
  let mantissa := match cs with
    | c :: (r :: rest) => c :: '.' :: r :: rest
    | _ => cs
  mantissa ++ 'e' :: (if place < 0 then '-' else '+') :: Nat.toDigits 10 place.natAbs

/-- **The number in a layout.** -/
def toText (layout : Layout) (x : Binary64) : String :=
  let d := x.shortest layout.tie
  let place := d.exponent + (Nat.toDigits 10 d.digits).length - 1
  let body :=
    if layout.positionalFrom ≤ place ∧ place ≤ layout.positionalTo then
      positional layout.wholeWithPoint d
    else scientific d
  String.ofList (if x.negative then '-' :: body else body)

end Binary64

end Tariff
