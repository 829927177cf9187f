import Tariff.Text.Digits

/-!
# Identifiers

Settings, categories, rules and audit records are named by 128-bit identifiers.
They are ordered as numbers, which breaks the ties that priority and age leave,
and written as 32 hexadecimal digits in five groups. Reading takes the groups or
the bare digits, and the groups in braces or after `urn:uuid:`, all of it in either
case.
-/

namespace Tariff

/-- **An identifier** of 128 bits. -/
structure Uuid where
  value : Nat
  value_lt : value < 2 ^ 128
deriving DecidableEq

namespace Uuid

instance : Ord Uuid := ⟨fun a b => compare a.value b.value⟩

/-- The identifier of all zero bits. -/
def nil : Uuid := ⟨0, by decide⟩

instance : Inhabited Uuid := ⟨nil⟩

/-- The identifier with this number, if it has at most 128 bits. -/
def ofNat? (n : Nat) : Option Uuid := if h : n < 2 ^ 128 then some ⟨n, h⟩ else none

/-- The `width` lowest hexadecimal digits of a number. -/
def hexDigits : Nat → Nat → List Char
  | 0, _ => []
  | width + 1, n => hexDigits width (n / 16) ++ [Nat.digitChar (n % 16)]

/-- Puts hyphens between groups of 8, 4, 4, 4 and 12 characters. -/
def group (cs : List Char) : List Char :=
  cs.take 8 ++ '-' :: (cs.drop 8).take 4 ++ '-' :: (cs.drop 12).take 4
    ++ '-' :: (cs.drop 16).take 4 ++ '-' :: cs.drop 20

/-- **The identifier as text**, in five groups and lower case. -/
def toText (u : Uuid) : String := String.ofList (group (hexDigits 32 u.value))

instance : ToString Uuid := ⟨toText⟩

/-- Reads 32 hexadecimal digits. -/
def ofHex? (cs : List Char) : Option Uuid :=
  if cs.length = 32 then (Text.wholeNumber? 16 cs).bind ofNat? else none

/-- Reads five groups of digits. -/
def ofGroups? (cs : List Char) : Option Uuid :=
  let bare := cs.take 8 ++ (cs.drop 9).take 4 ++ (cs.drop 14).take 4 ++ (cs.drop 19).take 4
    ++ cs.drop 24
  if cs.length = 36 ∧ group bare = cs then ofHex? bare else none

/-- **Reads an identifier.** -/
def parse? (text : String) : Option Uuid :=
  let cs := text.toList
  if cs.length = 32 then ofHex? cs
  else if cs.length = 36 then ofGroups? cs
  else if cs.length = 38 ∧ cs.head? = some '\x7b' ∧ cs.getLast? = some '\x7d' then
    ofGroups? ((cs.drop 1).take 36)
  else if cs.length = 45 ∧ (cs.take 9).map Char.toLower = "urn:uuid:".toList then ofGroups? (cs.drop 9)
  else none

end Uuid

end Tariff
