/-!
# The characters of a file

What a character means in a YAML file depends on where it stands: indentation
opens and closes blocks, and a key ends on the line on which it began. A
**glyph** is a character with its place, and `glyphs?` is a text as glyphs.

Lines end in a line feed, a carriage return, the two together or U+0085; all of
these become one line feed, so that nothing after this module tells them apart.
U+2028 and U+2029 end lines too, but remain the characters they are.
-/

namespace Tariff

namespace Yaml

/-- **A character of a file**, with its place. -/
structure Glyph where
  char : Char
  /-- The number of lines before it. -/
  line : Nat
  /-- The number of characters before it on its line. -/
  column : Nat

/-- A blank within a line. -/
def isBlank (c : Char) : Bool := c == ' ' || c == '\t'

/-- A character that ends a line. -/
def isBreak (c : Char) : Bool := c == '\n' || c.toNat == 0x2028 || c.toNat == 0x2029

/-- A blank or a line break. -/
def isGap (c : Char) : Bool := isBlank c || isBreak c

/-- Whether a blank, a line break or the end of the file comes next. -/
def atGap (gs : List Glyph) : Bool := gs.head?.all fun g => isGap g.char

/-- The blanks and line breaks that come next, and what follows them. -/
def spanGap (gs : List Glyph) : List Glyph × List Glyph := gs.span fun g => isGap g.char

/-- Whether the mark of a document's start or end stands here: three dashes or
three points, alone at the beginning of a line. -/
def isDocumentMark : List Glyph → Bool
  | a :: b :: c :: rest =>
    a.column == 0 && (a.char == '-' || a.char == '.') && b.char == a.char && c.char == a.char
      && atGap rest
  | _ => false

/-- A character that may stand in a file. -/
def isAllowed (c : Char) : Bool :=
  let n := c.toNat
  n = 0x09 || n = 0x0A || n = 0x0D || (0x20 ≤ n && n ≤ 0x7E) || n = 0x85
    || (0xA0 ≤ n && n ≤ 0xFFFD) || 0x10000 ≤ n

/-- Writes a line feed for each line end that is not a character of its own. -/
def unifyBreaks : List Char → List Char
  | [] => []
  | '\r' :: '\n' :: rest => '\n' :: unifyBreaks rest
  | c :: rest => (if c = '\r' ∨ c.toNat = 0x85 then '\n' else c) :: unifyBreaks rest

/-- Writes a blank for a byte order mark at the beginning. -/
def blankOrderMark : List Char → List Char
  | [] => []
  | c :: rest => (if c.toNat = 0xFEFF then ' ' else c) :: rest

/-- Gives each character its place, the first one on a given line and column. -/
def place (line column : Nat) : List Char → List Glyph
  | [] => []
  | c :: rest =>
    ⟨c, line, column⟩ :: if isBreak c then place (line + 1) 0 rest else place line (column + 1) rest

/-- **The glyphs of a text**, if each of its characters may stand in a file. -/
def glyphs? (text : String) : Option (List Glyph) :=
  let cs := text.toList
  if cs.all isAllowed then some (place 0 0 (unifyBreaks (blankOrderMark cs))) else none

end Yaml

end Tariff
