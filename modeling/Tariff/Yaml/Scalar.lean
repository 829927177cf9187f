import Tariff.Text.Digits
import Tariff.Yaml.Glyph

/-!
# Scalars

A scalar is written in quotes or plainly. Either may go on over several lines, and
the run of blanks and line breaks between two of its words is then **folded**: one
line break stands for a blank, each further one for itself (`foldGap`). In double
quotes a backslash begins an escape sequence; before a line break it keeps the
break from standing for anything.
-/

namespace Tariff

namespace Yaml

/-- The line breaks of a gap. -/
def breaksOf (gap : List Glyph) : List Char := (gap.map (·.char)).filter isBreak

/-- **What a gap within a scalar stands for.** Without a line break it stands for
itself; otherwise its blanks drop out, and the first break is a blank unless others
follow or it is a character of its own. -/
def foldGap (gap : List Glyph) : List Char :=
  match breaksOf gap with
  | [] => gap.map (·.char)
  | c :: more => if c ≠ '\n' then c :: more else if more.isEmpty then [' '] else more

/-! ## Scalars in quotes -/

/-- A code point in a given number of hexadecimal digits. -/
def readCode (width : Nat) (gs : List Glyph) : Option (Char × List Glyph) := do
  let digits := (gs.take width).map (·.char)
  if digits.length = width then
    let n ← Text.wholeNumber? 16 digits
    let c ← Text.scalar? n
    some (c, gs.drop width)
  else none

/-- The characters that an escape letter stands for. -/
def escapes : List (Char × Nat) :=
  [('0', 0x00), ('a', 0x07), ('b', 0x08), ('t', 0x09), ('\t', 0x09), ('n', 0x0A), ('v', 0x0B),
    ('f', 0x0C), ('r', 0x0D), ('e', 0x1B), (' ', 0x20), ('\x22', 0x22), ('/', 0x2F), ('\\', 0x5C),
    ('N', 0x85), ('_', 0xA0), ('L', 0x2028), ('P', 0x2029)]

/-- An escape sequence, after its backslash. -/
def readEscape : List Glyph → Option (Char × List Glyph)
  | [] => none
  | g :: rest =>
    match g.char with
    | 'x' => readCode 2 rest
    | 'u' => readCode 4 rest
    | 'U' => readCode 8 rest
    | c => (escapes.lookup c).map fun n => (Char.ofNat n, rest)

/-- **The rest of a scalar in quotes**, up to the closing quote, and what follows
it. A line of it must not look like the start or end of a document. `fuel` bounds
the number of characters. -/
def readQuoted (quote : Char) : Nat → List Glyph → Option (List Char × List Glyph)
  | 0, _ => none
  | _, [] => none
  | fuel + 1, g :: rest => do
    let isDouble := quote == '\x22'
    let next := (rest.head?.map (·.char)).getD ' '
    if !isDouble && g.char == quote && next == quote then
      let (s, rest) ← readQuoted quote fuel (rest.drop 1)
      some (quote :: s, rest)
    else if g.char = quote then some ([], rest)
    else if isGap g.char then
      let (gap, rest) := spanGap (g :: rest)
      if isDocumentMark rest then none
      else
        let (s, rest) ← readQuoted quote fuel rest
        some (foldGap gap ++ s, rest)
    else if isDouble && g.char == '\\' then
      if isBreak next then
        let (gap, rest) := spanGap (rest.drop 1)
        if isDocumentMark rest then none
        else
          let (s, rest) ← readQuoted quote fuel rest
          some (breaksOf gap ++ s, rest)
      else
        let (c, rest) ← readEscape rest
        let (s, rest) ← readQuoted quote fuel rest
        some (c :: s, rest)
    else
      let (s, rest) ← readQuoted quote fuel rest
      some (g.char :: s, rest)

/-! ## Plain scalars -/

/-- A character that separates the parts of a flow collection. -/
def isFlowMark (c : Char) : Bool := [',', '[', ']', '\x7b', '\x7d'].contains c

/-- A character that no plain scalar begins with. -/
def isIndicator (c : Char) : Bool :=
  isFlowMark c || ['#', '&', '*', '!', '|', '>', '\x27', '\x22', '%', '@', '\x60'].contains c

/-- Whether a plain scalar begins with a character, given what follows it. A dash
begins one before anything but a blank, a question mark or a colon only outside of
flow collections. -/
def beginsPlain (inFlow : Bool) (c : Char) (rest : List Glyph) : Bool :=
  if c = '-' then !atGap rest
  else if c = '?' ∨ c = ':' then !inFlow && !atGap rest
  else !isIndicator c && !isGap c

/-- **A word of a plain scalar**: the characters up to a gap, to a colon before a
gap or, in a flow collection, to a separator. There a colon right before a separator
or a question mark is refused. -/
def readWord (inFlow : Bool) : List Glyph → Option (List Char × List Glyph)
  | [] => some ([], [])
  | g :: rest =>
    let next := (rest.head?.map (·.char)).getD ' '
    if isGap g.char || (g.char == ':' && isGap next) then some ([], g :: rest)
    else if inFlow && g.char == ':' && (isFlowMark next || next == '?') then none
    else if inFlow && isFlowMark g.char then some ([], g :: rest)
    else (readWord inFlow rest).map fun (s, rest) => (g.char :: s, rest)

/-- **A plain scalar that has been read.** -/
structure Plain where
  text : List Char
  /-- What follows it and the gap after it. -/
  rest : List Glyph
  /-- Whether the gap after it has a line break. -/
  broken : Bool

/-- Whether a line of a gap is indented by a tab where blanks are due. -/
def hasTabbedIndent (margin : Nat) (gap : List Glyph) : Bool :=
  (gap.dropWhile fun g => isBlank g.char).any fun g => g.char == '\t' && g.column < margin

/-- **A plain scalar**, word after word. It ends before a comment, before the start or
end of a document and, outside of flow collections, before a line that is not indented
to the margin. `fuel` bounds the number of words. -/
def readPlain (inFlow : Bool) (margin : Nat) : Nat → List Glyph → Option Plain
  | 0, _ => none
  | fuel + 1, gs => do
    let (word, rest) ← readWord inFlow gs
    let (gap, rest) := spanGap rest
    if hasTabbedIndent margin gap then none
    else
      let whole : Plain := ⟨word, rest, !(breaksOf gap).isEmpty⟩
      match rest with
      | [] => some whole
      | g :: _ =>
        let ends := gap.isEmpty || (!inFlow && g.column < margin) || isDocumentMark rest
          || g.char == '#'
        if ends then some whole
        else
          let more ← readPlain inFlow margin fuel rest
          if more.text.isEmpty then some whole
          else some { more with text := word ++ foldGap gap ++ more.text }

end Yaml

end Tariff
