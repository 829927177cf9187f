import Tariff.Yaml.Scalar

/-!
# Tokens

A file is a list of **tokens**: its scalars and marks in order, and among them the
starts and ends of blocks, which no character shows. `tokens?` finds them in one
pass over the glyphs. Two things have to be remembered on the way.

* A block is open as long as no line begins left of its column. The columns of the
  open blocks are a stack, innermost first; outside of flow collections each token
  closes the blocks to the right of it.
* Whether a scalar or a flow collection is a key shows only at the colon after it.
  Until then it is a `PossibleKey`, one for each level of flow collections, and the
  colon puts the tokens that a key needs in front of it. A key and its colon stand on
  one line, not more than 1024 characters apart.
-/

namespace Tariff

namespace Yaml

/-- **A token of a file.** -/
inductive Token where
  | blockSequence
  | blockMapping
  /-- The end of a block. -/
  | blockEnd
  /-- The dash of an item of a block sequence. -/
  | item
  | key
  | value
  | openSequence
  | closeSequence
  | openMapping
  | closeMapping
  /-- The comma between the parts of a flow collection. -/
  | separator
  | scalar (isPlain : Bool) (text : String)
  | documentStart
  | documentEnd
deriving DecidableEq

/-- **What may turn out to be a key.** -/
structure PossibleKey where
  /-- The number of tokens before it. -/
  position : Nat
  line : Nat
  column : Nat
  /-- Whether it must be a key, since it begins where its block does. -/
  isDue : Bool

/-- The number of characters from the beginning of a key to its colon, at most. -/
def keyLength : Nat := 1024

/-- Whether a colon at a place would still belong to the candidate. -/
def PossibleKey.reaches (c : PossibleKey) (colon : Glyph) : Bool :=
  c.line == colon.line && colon.column ≤ c.column + keyLength

/-- **What is known of a file** up to some place. -/
structure Scan where
  tokens : Array Token := #[]
  /-- The columns of the open blocks, innermost first. -/
  blocks : List Nat := []
  /-- Whether a key may begin here. -/
  keyAllowed : Bool := true
  /-- What began last, among the open flow collections in the innermost, and may turn
  out to be a key. -/
  candidate : Option PossibleKey := none
  /-- The candidates before the open flow collections, innermost first. -/
  outer : List (Option PossibleKey) := []

namespace Scan

/-- Whether a flow collection is open. -/
def inFlow (s : Scan) : Bool := !s.outer.isEmpty

/-- Appends a token, after which a key may begin or not. -/
def push (s : Scan) (t : Token) (keyAllowed : Bool) : Scan :=
  { s with tokens := s.tokens.push t, keyAllowed }

/-- Puts a token in front of those from a position on. -/
def insert (s : Scan) (position : Nat) (t : Token) : Scan :=
  { s with tokens := s.tokens.insertIdxIfInBounds position t }

/-! ## Blocks -/

/-- Whether a block may be opened at a column: it lies to the right of the innermost
one. -/
def opensAt (s : Scan) (column : Nat) : Bool := !s.inFlow && s.blocks.head?.all (· < column)

/-- Opens a block at a column, if one may be opened there; its token goes in front of
those from a position on. -/
def openBlock (s : Scan) (column position : Nat) (t : Token) : Scan :=
  if s.opensAt column then { s with blocks := column :: s.blocks }.insert position t else s

/-- Closes the innermost blocks, as long as their columns say so. -/
def closeBlocks (s : Scan) (closes : Nat → Bool) : Scan :=
  if s.inFlow then s
  else
    let ends := (s.blocks.takeWhile closes).map fun _ => Token.blockEnd
    let blocks := s.blocks.dropWhile closes
    { s with tokens := s.tokens ++ ends, blocks }

/-- The column at which the content of the innermost block may go on. -/
def margin (s : Scan) : Nat :=
  match s.blocks with
  | [] => 0
  | column :: _ => column + 1

/-! ## Keys -/

/-- Gives up the candidate of this level. One that had to be a key is refused. -/
def dropCandidate (s : Scan) : Option Scan :=
  match s.candidate with
  | some c => if c.isDue then none else some { s with candidate := none }
  | none => some s

/-- Notes a candidate at a place, if a key may begin there. -/
def noteCandidate (s : Scan) (g : Glyph) : Option Scan :=
  if s.keyAllowed then
    (s.dropCandidate).map fun s => { s with
      candidate := some
        ⟨s.tokens.size, g.line, g.column, !s.inFlow && s.blocks.head? == some g.column⟩ }
  else some s

/-- **The colon after a key.** If the candidate reaches it, that was the key.
Otherwise the key is a longer one, after a question mark, or missing. -/
def colon (s : Scan) (g : Glyph) : Option Scan :=
  match s.candidate with
  | some c =>
    if c.reaches g then
      let s := { s with candidate := none }
      some (((s.insert c.position .key).openBlock c.column c.position .blockMapping).push .value
        false)
    else if c.isDue then none
    else lone { s with candidate := none }
  | none => lone s
where
  /-- A colon without a candidate. -/
  lone (s : Scan) : Option Scan :=
    if s.inFlow then some (s.push .value false)
    else if s.keyAllowed then
      some ((s.openBlock g.column s.tokens.size .blockMapping).push .value true)
    else none

/-- The question mark before a key. -/
def questionMark (s : Scan) (g : Glyph) : Option Scan :=
  if s.inFlow then s.dropCandidate.map (·.push .key false)
  else if s.keyAllowed then
    (s.openBlock g.column s.tokens.size .blockMapping).dropCandidate.map (·.push .key true)
  else none

/-- The dash before an item. -/
def dash (s : Scan) (g : Glyph) : Option Scan :=
  if s.inFlow then s.dropCandidate.map (·.push .item true)
  else if s.keyAllowed then
    (s.openBlock g.column s.tokens.size .blockSequence).dropCandidate.map (·.push .item true)
  else none

/-! ## Flow collections -/

/-- The beginning of a flow collection. -/
def openFlow (s : Scan) (g : Glyph) (t : Token) : Option Scan :=
  (s.noteCandidate g).map fun s =>
    { s with candidate := none, outer := s.candidate :: s.outer }.push t true

/-- The end of a flow collection. -/
def closeFlow (s : Scan) (t : Token) : Option Scan :=
  s.dropCandidate.map fun s =>
    match s.outer with
    | [] => s.push t false
    | candidate :: outer => { s with candidate, outer }.push t false

/-- A comma. -/
def comma (s : Scan) : Option Scan := s.dropCandidate.map (·.push .separator true)

/-! ## Token after token -/

/-- The start or end of a document, which closes every block. -/
def documentMark (s : Scan) (t : Token) : Option Scan :=
  (s.closeBlocks fun _ => true).dropCandidate.map (·.push t false)

/-- A scalar that begins at a glyph. `fuel` bounds the number of its characters. -/
def scalar (s : Scan) (fuel : Nat) (g : Glyph) (rest : List Glyph) :
    Option (Scan × List Glyph) := do
  let s ← s.noteCandidate g
  if g.char = '\x22' ∨ g.char = '\x27' then
    let (text, rest) ← readQuoted g.char fuel rest
    some (s.push (.scalar false (String.ofList text)) false, rest)
  else if beginsPlain s.inFlow g.char rest then
    let plain ← readPlain s.inFlow s.margin fuel (g :: rest)
    some (s.push (.scalar true (String.ofList plain.text)) plain.broken, plain.rest)
  else none

/-- **The token that begins at a glyph**, and what follows it. `fuel` bounds the number
of its characters. -/
def next (s : Scan) (fuel : Nat) (g : Glyph) (rest : List Glyph) : Option (Scan × List Glyph) :=
  let s := s.closeBlocks (g.column < ·)
  let goingOn (s : Option Scan) : Option (Scan × List Glyph) := s.map fun s => (s, rest)
  if isDocumentMark (g :: rest) then
    (s.documentMark (if g.char = '-' then .documentStart else .documentEnd)).map fun s =>
      (s, rest.drop 2)
  else match g.char with
    | '[' => goingOn (s.openFlow g .openSequence)
    | '\x7b' => goingOn (s.openFlow g .openMapping)
    | ']' => goingOn (s.closeFlow .closeSequence)
    | '\x7d' => goingOn (s.closeFlow .closeMapping)
    | ',' => goingOn s.comma
    | '-' => if atGap rest then goingOn (s.dash g) else s.scalar fuel g rest
    | '?' => if s.inFlow || atGap rest then goingOn (s.questionMark g) else s.scalar fuel g rest
    | ':' => if s.inFlow || atGap rest then goingOn (s.colon g) else s.scalar fuel g rest
    | _ => s.scalar fuel g rest

/-- **Skips blanks, comments and line breaks**, and says whether a key may begin after
them. Outside of flow collections one may on every new line, and where one may, a tab
is no blank. -/
def skip (inFlow : Bool) : (inComment keyAllowed : Bool) → List Glyph → Bool × List Glyph
  | _, keyAllowed, [] => (keyAllowed, [])
  | inComment, keyAllowed, g :: rest =>
    if isBreak g.char then skip inFlow false (keyAllowed || !inFlow) rest
    else if inComment || g.char == '#' then skip inFlow true keyAllowed rest
    else if g.char == ' ' || (g.char == '\t' && (inFlow || !keyAllowed)) then
      skip inFlow false keyAllowed rest
    else (keyAllowed, g :: rest)

/-- The tokens up to the end of the file. `fuel` bounds the number of characters, and
each token takes at least one of them. -/
def run : Nat → Scan → List Glyph → Option Scan
  | 0, _, _ => none
  | fuel + 1, s, gs =>
    let (keyAllowed, gs) := skip s.inFlow false s.keyAllowed gs
    let s := { s with keyAllowed }
    match gs with
    | [] => (s.closeBlocks fun _ => true).dropCandidate
    | g :: rest => do
      let (s, rest) ← s.next fuel g rest
      run fuel s rest

end Scan

/-- **The tokens of a file.** -/
def tokens? (gs : List Glyph) : Option (List Token) :=
  (Scan.run (gs.length + 1) {} gs).map (·.tokens.toList)

end Yaml

end Tariff
