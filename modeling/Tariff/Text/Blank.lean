/-!
# Blank characters

A character is **blank** if it has the Unicode property `White_Space`: 25
characters, of which the ASCII ones are the space and the controls from tab to
carriage return. Texts entered by people are read with blanks around them
dropped, and a name of nothing but blanks counts as empty.
-/

namespace Tariff

namespace Text

/-- The characters with the property `White_Space`, as ranges of code points. -/
def blankRanges : List (Nat × Nat) :=
  [(0x09, 0x0D), (0x20, 0x20), (0x85, 0x85), (0xA0, 0xA0), (0x1680, 0x1680), (0x2000, 0x200A),
    (0x2028, 0x2029), (0x202F, 0x202F), (0x205F, 0x205F), (0x3000, 0x3000)]

/-- Whether a code point lies in one of the ranges. -/
def inRanges (ranges : List (Nat × Nat)) (n : Nat) : Bool :=
  ranges.any fun (first, last) => first ≤ n && n ≤ last

/-- Whether a character is blank. -/
def isBlankChar (c : Char) : Bool := inRanges blankRanges c.toNat

/-- The text without the blanks at its ends. -/
def trimBlanks (s : String) : String :=
  String.ofList ((s.toList.dropWhile isBlankChar).reverse.dropWhile isBlankChar).reverse

/-- **Whether a text says nothing**: it is empty or all blanks. -/
def isBlank (s : String) : Bool := s.toList.all isBlankChar

end Text

end Tariff
