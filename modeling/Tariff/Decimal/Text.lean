import Tariff.Decimal.Arithmetic
import Tariff.Text.Digits

/-!
# Decimals as text

A decimal is written with all its fraction digits, so its scale can be read off
the text: `toText` keeps `12.50` apart from `12.5`. Reading is more lenient
than writing. The **plain** form has an optional sign, digits with underscores
anywhere after the first, and at most one point; digits beyond what a decimal
holds are rounded away. A text that is not plain may be **scientific**: a plain
numeral, `e` or `E`, and a whole exponent.

A text that cannot be read has no decimal. Where the text was the notation of a
number, `Refusal` says which limit that number broke.
-/

namespace Tariff

namespace Decimal

/-! ## Writing -/

/-- The digits of the mantissa, with zeros in front so that at least one digit
precedes the point. -/
def paddedDigits (d : Decimal) : List Char :=
  let digits := Nat.toDigits 10 d.mantissa
  List.replicate (d.scale + 1 - digits.length) '0' ++ digits

/-- **The decimal as text**, with exactly `scale` digits after the point and no
point when there are none. -/
def toText (d : Decimal) : String :=
  let digits := d.paddedDigits
  let whole := digits.take (digits.length - d.scale)
  let fraction := digits.drop (digits.length - d.scale)
  String.ofList ((if d.negative then ['-'] else []) ++ whole
    ++ (if d.scale = 0 then [] else '.' :: fraction))

instance : ToString Decimal := ⟨toText⟩

/-! ## Reading the plain form -/

/-- Whether a character may follow the digit that decided the rounding. -/
def isFiller (c : Char) : Bool := c.isDigit || c == '_'

/-- **The digit after the last one kept.** It rounds up from five. A mantissa
filled by the rounding gives its last digit back, which it can only with a
fraction digit left. -/
def roundUp (m s d : Nat) : Option (Nat × Nat) :=
  if d < 5 then some (m, s)
  else if m + 1 < capacity then some (m + 1, s)
  else if s = 0 then none
  else some ((m + 5) / 10, s - 1)

/-- A mantissa below this bound is short. -/
def shortMantissa : Nat := (2 ^ 64 - 1) / 10 - 255

/-- **Reads digits**, given the mantissa and scale read so far, whether the point
has been passed and whether any digit has been seen. Underscores are skipped, but one
right after the last fraction digit that is kept counts as a zero if the mantissa
without that digit is short. -/
def readDigits (m s : Nat) (point seen : Bool) : List Char → Option (Nat × Nat)
  | [] => if seen then some (m, s) else none
  | c :: rest =>
    match Text.digit? c with
    | some d =>
      if s < maxScale ∧ m * 10 + d < capacity then
        readDigits (m * 10 + d) (if point then s + 1 else s) point true rest
      else if point && rest.all isFiller then roundUp m s d
      else none
    | none =>
      if c = '.' then if point then none else readDigits m s true seen rest
      else if c = '_' then
        if !seen then none
        else if s = maxScale ∧ m / 10 < shortMantissa then
          if rest.all isFiller then some (m, s) else none
        else readDigits m s point seen rest
      else none

/-- The sign in front of a numeral, and what follows it. -/
def readSign : List Char → Bool × List Char
  | '-' :: rest => (true, rest)
  | '+' :: rest => (false, rest)
  | cs => (false, cs)

/-- Reads the plain form. A zero has no sign. -/
def readPlain (cs : List Char) : Option Decimal := do
  let (negative, digits) := readSign cs
  let (m, s) ← readDigits 0 0 false false digits
  ofParts? (negative && m != 0) m s

/-! ## Reading the scientific form -/

/-- Whether a character introduces an exponent. -/
def isExponentMark (c : Char) : Bool := c == 'e' || c == 'E'

/-- An exponent: its sign and its size. A minus may be followed by a plus. -/
def readExponent (cs : List Char) : Option (Bool × Nat) :=
  let (negative, cs) := match cs with
    | '-' :: rest => (true, rest)
    | _ => (false, cs)
  let cs := match cs with
    | '+' :: rest => rest
    | _ => cs
  (Text.wholeNumber? 10 cs).map (negative, ·)

/-- **`d` times `10 ^ (-e)`**. The point moves while there is room for fraction
digits; after that digits are dropped from the end, rounding half up, and the
sign stays even if nothing else does. -/
def shiftDown (d : Decimal) (e : Nat) : Option Decimal :=
  if maxScale < e then none
  else if d.scale + e ≤ maxScale then ofParts? d.negative d.mantissa (d.scale + e)
  else
    let unit := 10 ^ (d.scale + e - maxScale)
    ofParts? d.negative ((d.mantissa + unit / 2) / unit) maxScale

/-- **`d` times `10 ^ e`**. Fraction digits become whole ones; beyond them zeros
are appended. -/
def shiftUp (d : Decimal) (e : Nat) : Option Decimal :=
  if e ≤ d.scale then ofParts? d.negative d.mantissa (d.scale - e)
  else if maxScale < e then none
  else ofParts? d.negative (d.mantissa * 10 ^ (e - d.scale)) 0

/-- Reads the scientific form: what precedes the first exponent mark is plain. -/
def readScientific (cs : List Char) : Option Decimal := do
  let base ← readPlain (cs.takeWhile fun c => !isExponentMark c)
  let (negative, e) ← readExponent ((cs.dropWhile fun c => !isExponentMark c).drop 1)
  if negative then base.shiftDown e else base.shiftUp e

/-- **Reads a decimal**: the plain form, else the scientific one. No blanks are
skipped. -/
def parse? (text : String) : Option Decimal :=
  let cs := text.toList
  match readPlain cs with
  | some d => some d
  | none => if cs.any isExponentMark then readScientific cs else none

/-! ## Numbers beyond the limits -/

/-- Why the notation of a number has no decimal. -/
inductive Refusal where
  /-- The exponent alone is beyond the largest scale. -/
  | exponentTooLarge (exponent : Nat)
  /-- The number has too many whole digits. -/
  | tooLarge
deriving DecidableEq

/-- The refusal in words. -/
def Refusal.message : Refusal → String
  | .exponentTooLarge e => s!"Scale exceeds the maximum precision allowed: {e} > {maxScale}"
  | .tooLarge => "Number exceeds maximum value that can be represented."

/-- Reads the notation of a number, and says which limit it breaks if it cannot
be held. -/
def ofNotation (text : String) : Except Refusal Decimal :=
  match parse? text with
  | some d => .ok d
  | none =>
    match readExponent ((text.toList.dropWhile fun c => !isExponentMark c).drop 1) with
    | some (_, e) => .error (if maxScale < e then .exponentTooLarge e else .tooLarge)
    | none => .error .tooLarge

end Decimal

end Tariff
