import Tariff.Json.Basic
import Tariff.Text.Digits

/-!
# Reading JSON

`Json.parse?` reads one value from a text, with blanks around it allowed. A
number without point and exponent that fits in 64 bits is an integer; any other
goes to the nearest floating-point number, and so does `-0`, whose sign an
integer could not hold. A number beyond the largest finite one, a lone half of a
surrogate pair and a bare control character in a string are refused.

The functions work on characters and return what they read with what is left.
-/

namespace Tariff

namespace Json

/-- Skips blanks between tokens. -/
def skipBlanks (cs : List Char) : List Char :=
  cs.dropWhile fun c => c == ' ' || c == '\t' || c == '\n' || c == '\r'

/-- The leading digits, and the rest. -/
def spanDigits (cs : List Char) : List Char × List Char := cs.span Char.isDigit

/-- Four hexadecimal digits. -/
def readHex4 : List Char → Option (Nat × List Char)
  | a :: b :: c :: d :: rest => do
    let a ← Text.hexValue? a
    let b ← Text.hexValue? b
    let c ← Text.hexValue? c
    let d ← Text.hexValue? d
    some (((a * 16 + b) * 16 + c) * 16 + d, rest)
  | _ => none

/-- An escape sequence, after its backslash. -/
def readEscape : List Char → Option (Char × List Char)
  | 'n' :: rest => some ('\n', rest)
  | 't' :: rest => some ('\t', rest)
  | 'r' :: rest => some ('\r', rest)
  | 'b' :: rest => some ('\x08', rest)
  | 'f' :: rest => some ('\x0c', rest)
  | '/' :: rest => some ('/', rest)
  | '\\' :: rest => some ('\\', rest)
  | '\x22' :: rest => some ('\x22', rest)
  | 'u' :: rest => do
    let (high, rest) ← readHex4 rest
    if 0xD800 ≤ high ∧ high < 0xDC00 then
      match rest with
      | '\\' :: 'u' :: rest => do
        let (low, rest) ← readHex4 rest
        if 0xDC00 ≤ low ∧ low < 0xE000 then
          let c ← Text.scalar? (0x10000 + (high - 0xD800) * 0x400 + (low - 0xDC00))
          some (c, rest)
        else none
      | _ => none
    else
      let c ← Text.scalar? high
      some (c, rest)
  | _ => none

/-- The rest of a string, after its opening quotation mark. `fuel` bounds the
number of characters. -/
def readString : Nat → List Char → Option (List Char × List Char)
  | 0, _ => none
  | _, [] => none
  | fuel + 1, c :: rest =>
    if c = '\x22' then some ([], rest)
    else if c = '\\' then do
      let (d, rest) ← readEscape rest
      let (s, rest) ← readString fuel rest
      some (d :: s, rest)
    else if c.toNat < 32 then none
    else do
      let (s, rest) ← readString fuel rest
      some (c :: s, rest)

/-- An exponent, if there is one. -/
def readExponent (cs : List Char) : Option (Option Int × List Char) :=
  match cs with
  | e :: rest =>
    if e = 'e' ∨ e = 'E' then
      let (negative, rest) := match rest with
        | '-' :: rest => (true, rest)
        | '+' :: rest => (false, rest)
        | _ => (false, rest)
      let (digits, rest) := spanDigits rest
      if digits.isEmpty then none
      else
        let n : Int := Text.digitsValue digits
        some (some (if negative then -n else n), rest)
    else some (none, cs)
  | [] => some (none, [])

/-- The digits after a point, if there is one. -/
def readFraction : List Char → Option (Option (List Char) × List Char)
  | '.' :: rest =>
    let (digits, rest) := spanDigits rest
    if digits.isEmpty then none else some (some digits, rest)
  | cs => some (none, cs)

/-- A number. -/
def readNumber (cs : List Char) : Option (Number × List Char) := do
  let (negative, cs) := match cs with
    | '-' :: rest => (true, rest)
    | _ => (false, cs)
  let (whole, cs) := spanDigits cs
  if whole.isEmpty ∨ (whole.head? = some '0' ∧ whole.length ≠ 1) then none
  else
    let (fraction, cs) ← readFraction cs
    let (exponent, cs) ← readExponent cs
    let n := Text.digitsValue (whole ++ fraction.getD [])
    let signed : Int := if negative then -(n : Int) else n
    if fraction.isNone ∧ exponent.isNone ∧ ¬(negative ∧ n = 0) then
      if h : -2 ^ 63 ≤ signed ∧ signed < 2 ^ 64 then return (.int signed h, cs)
    let x ← Binary64.ofDigits? negative n (exponent.getD 0 - (fraction.getD []).length)
    return (.double x, cs)

/-- The value named by a word, and the rest. -/
def readWord (word : List Char) (value : Json) (cs : List Char) : Option (Json × List Char) :=
  if word.isPrefixOf cs then some (value, cs.drop word.length) else none

mutual

/-- A value. `limit` bounds the length of a string, `fuel` the number of tokens. -/
def readValue (limit : Nat) : Nat → List Char → Option (Json × List Char)
  | 0, _ => none
  | fuel + 1, cs =>
    match skipBlanks cs with
    | '[' :: rest =>
      match skipBlanks rest with
      | ']' :: rest => some (.array [], rest)
      | rest => do
        let (items, rest) ← readItems limit fuel rest
        some (.array items, rest)
    | '\x7b' :: rest =>
      match skipBlanks rest with
      | '\x7d' :: rest => some (.object [], rest)
      | rest => do
        let (members, rest) ← readMembers limit fuel rest
        some (.ofMembers members, rest)
    | '\x22' :: rest => do
      let (s, rest) ← readString limit rest
      some (.string (String.ofList s), rest)
    | 't' :: rest => readWord "rue".toList (.bool true) rest
    | 'f' :: rest => readWord "alse".toList (.bool false) rest
    | 'n' :: rest => readWord "ull".toList .null rest
    | cs => (readNumber cs).map fun (n, rest) => (.number n, rest)

/-- The items of an array, up to its closing bracket. -/
def readItems (limit : Nat) : Nat → List Char → Option (List Json × List Char)
  | 0, _ => none
  | fuel + 1, cs => do
    let (item, cs) ← readValue limit fuel cs
    match skipBlanks cs with
    | ',' :: cs => do
      let (items, cs) ← readItems limit fuel cs
      some (item :: items, cs)
    | ']' :: cs => some ([item], cs)
    | _ => none

/-- The members of an object, up to its closing brace. -/
def readMembers (limit : Nat) : Nat → List Char → Option (List (String × Json) × List Char)
  | 0, _ => none
  | fuel + 1, cs =>
    match skipBlanks cs with
    | '\x22' :: rest => do
      let (key, rest) ← readString limit rest
      match skipBlanks rest with
      | ':' :: rest => do
        let (value, rest) ← readValue limit fuel rest
        let pair := (String.ofList key, value)
        match skipBlanks rest with
        | ',' :: rest => do
          let (members, rest) ← readMembers limit fuel rest
          some (pair :: members, rest)
        | '\x7d' :: rest => some ([pair], rest)
        | _ => none
      | _ => none
    | _ => none

end

/-- **Reads one value**, and nothing after it but blanks. -/
def parse? (text : String) : Option Json := do
  let cs := text.toList
  let (value, rest) ← readValue (cs.length + 1) (cs.length + 1) cs
  if (skipBlanks rest).isEmpty then some value else none

end Json

end Tariff
