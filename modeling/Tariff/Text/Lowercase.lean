import Tariff.Text.Blank
import Tariff.Text.CaseTable

/-!
# Lower case

`Text.lowercase` is the lower-case mapping of Unicode for whole texts. Every
character is mapped by itself with two exceptions. A capital I with a dot above
becomes a small i followed by a combining dot. A capital sigma becomes the final
sigma at the end of a word – after a letter with case and not before one,
case-ignorable marks not counted – and the ordinary one elsewhere.
-/

namespace Tariff

namespace Text

/-- Whether a range of capital letters has the letter with this code point. -/
def LowerRange.contains (r : LowerRange) (n : Nat) : Bool :=
  r.first ≤ n && n ≤ r.last && (n - r.first) % r.step == 0

/-- The small letter of one character, on its own. -/
def lowerChar (c : Char) : List Char :=
  if c = Char.ofNat 0x130 then ['i', Char.ofNat 0x307]
  else match lowerRanges.find? fun r => r.contains c.toNat with
    | some r => [Char.ofNat (c.toNat + r.shift).toNat]
    | none => [c]

/-- Whether a letter with case comes first, marks that are case-ignorable not
counted. -/
def startsCased (cs : List Char) : Bool :=
  match cs.dropWhile fun c => inRanges ignorableRanges c.toNat with
  | c :: _ => inRanges casedRanges c.toNat
  | [] => false

/-- The small letters of a text, given what precedes it, last character
first. -/
def lowerAfter (before : List Char) : List Char → List Char
  | [] => []
  | c :: rest =>
    let small :=
      if c = Char.ofNat 0x3A3 then
        if startsCased before && !startsCased rest then [Char.ofNat 0x3C2] else [Char.ofNat 0x3C3]
      else lowerChar c
    small ++ lowerAfter (c :: before) rest

/-- **The text in lower case.** -/
def lowercase (s : String) : String := String.ofList (lowerAfter [] s.toList)

/-- The text with the ASCII letters in lower case and all else as it is. -/
def lowercaseAscii (s : String) : String := String.ofList (s.toList.map Char.toLower)

end Text

end Tariff
