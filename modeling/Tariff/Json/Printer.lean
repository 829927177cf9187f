import Tariff.Json.Basic

/-!
# Writing JSON

The compact text of a value: no blanks, members in key order. In strings only
the quotation mark, the backslash and control characters are escaped.

Numbers have two texts. `Number.text` is the one in documents: a floating-point
number shows that it is one, by a point or an exponent. `Number.plainText` is
positional throughout and writes a whole number without a point; a `Decimal`
that arrives as a number is read from it.
-/

namespace Tariff

namespace Json

/-- **Numbers in documents**: positional from `1e-5` up to below `1e+16`, and a
whole number ends in `.0`. -/
def documentLayout : Binary64.Layout := ⟨-5, 15, true, .even⟩

/-- **Numbers on their own**: always positional, and a whole number has no
point. -/
def plainLayout : Binary64.Layout := ⟨-400, 400, false, .up⟩

/-- The text of a number in a document. -/
def Number.text : Number → String
  | .int n _ => toString n
  | .double x => x.toText documentLayout

/-- The text of a number on its own. -/
def Number.plainText : Number → String
  | .int n _ => toString n
  | .double x => x.toText plainLayout

/-- A hexadecimal digit, in lower case. -/
def hexDigit (n : Nat) : Char := Nat.digitChar (n % 16)

/-- A character inside a string. -/
def escapeChar (c : Char) : List Char :=
  if c = '\x22' then ['\\', '\x22']
  else if c = '\\' then ['\\', '\\']
  else if c = '\x08' then ['\\', 'b']
  else if c = '\x0c' then ['\\', 'f']
  else if c = '\n' then ['\\', 'n']
  else if c = '\r' then ['\\', 'r']
  else if c = '\t' then ['\\', 't']
  else if c.toNat < 32 then ['\\', 'u', '0', '0', hexDigit (c.toNat / 16), hexDigit c.toNat]
  else [c]

/-- A string between quotation marks. -/
def quote (s : String) : String :=
  String.ofList ('\x22' :: s.toList.flatMap escapeChar ++ ['\x22'])

mutual

/-- **The compact text of a value.** -/
def text : Json → String
  | .null => "null"
  | .bool true => "true"
  | .bool false => "false"
  | .number n => n.text
  | .string s => quote s
  | .array items => "[" ++ ",".intercalate (itemTexts items) ++ "]"
  | .object members => "\x7b" ++ ",".intercalate (memberTexts members) ++ "\x7d"

/-- The texts of the items of an array. -/
def itemTexts : List Json → List String
  | [] => []
  | j :: rest => j.text :: itemTexts rest

/-- The texts of the members of an object. -/
def memberTexts : List (String × Json) → List String
  | [] => []
  | (k, j) :: rest => (quote k ++ ":" ++ j.text) :: memberTexts rest

end

end Json

end Tariff
