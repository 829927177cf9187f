import Tariff.Document

/-!
# YAML nodes

A configuration file is a tree of **nodes**: scalars, sequences and mappings. A
scalar keeps its text and whether it was written plainly, since only a plain
scalar can mean something other than its text – a number, a truth value or
nothing. `plainValue?` is that meaning. Where a text or a name is expected any
scalar serves, whatever it would mean elsewhere; an empty plain scalar serves as
an empty sequence or mapping.

The keys of a mapping are nodes like any other. Only where a record or a value is
read from the mapping must they be scalars.
-/

namespace Tariff

namespace Yaml

/-- **A node of a configuration file.** -/
inductive Node where
  | scalar (isPlain : Bool) (text : String)
  | sequence (items : List Node)
  | mapping (entries : List (Node × Node))
deriving Inhabited

/-- The node for which nothing is written. -/
def Node.empty : Node := .scalar true ""

/-! ## What a plain scalar means -/

/-- Whether a plain text stands for nothing. -/
def isNullText (s : String) : Bool :=
  s.isEmpty || ["null", "Null", "NULL", "~"].contains s

/-- The truth value a plain text stands for. -/
def boolText? (s : String) : Option Bool :=
  if ["true", "True", "TRUE"].contains s then some true
  else if ["false", "False", "FALSE"].contains s then some false
  else none

/-- Whether the text is a run of digits with a zero in front, perhaps signed.
Such a text is not a number. -/
def hasLeadingZero (cs : List Char) : Bool :=
  let cs := match cs with
    | '-' :: rest => rest
    | '+' :: rest => rest
    | _ => cs
  match cs with
  | '0' :: rest => !rest.isEmpty && rest.all Char.isDigit
  | _ => false

/-- Digits in base ten, or after `0x`, `0o` or `0b` in another base. -/
def magnitude? : List Char → Option Nat
  | '0' :: 'x' :: rest => Text.wholeNumber? 16 rest
  | '0' :: 'o' :: rest => Text.wholeNumber? 8 rest
  | '0' :: 'b' :: rest => Text.wholeNumber? 2 rest
  | cs => Text.wholeNumber? 10 cs

/-- The integer a plain text stands for. -/
def intText? (cs : List Char) : Option Int :=
  if hasLeadingZero cs then none
  else match cs with
    | '-' :: rest => (magnitude? rest).map fun n => -(n : Int)
    | '+' :: rest => (magnitude? rest).map fun n => (n : Int)
    | _ => (magnitude? cs).map fun n => (n : Int)

/-- The floating-point number a plain text stands for: digits with at most one
point, and perhaps an exponent. -/
def doubleText? (cs : List Char) : Option Binary64 := do
  let (negative, cs) := match cs with
    | '-' :: rest => (true, rest)
    | '+' :: rest => (false, rest)
    | _ => (false, cs)
  let whole := cs.takeWhile Char.isDigit
  let cs := cs.dropWhile Char.isDigit
  let (fraction, cs) := match cs with
    | '.' :: rest => (rest.takeWhile Char.isDigit, rest.dropWhile Char.isDigit)
    | _ => ([], cs)
  let exponent ← match cs with
    | [] => some (0 : Int)
    | e :: rest =>
      if e = 'e' ∨ e = 'E' then
        match rest with
        | '-' :: rest => (Text.wholeNumber? 10 rest).map fun n => -(n : Int)
        | '+' :: rest => (Text.wholeNumber? 10 rest).map fun n => (n : Int)
        | _ => (Text.wholeNumber? 10 rest).map fun n => (n : Int)
      else none
  let digits := whole ++ fraction
  if digits.isEmpty then none
  else Binary64.ofDigits? negative (Text.digitsValue digits) (exponent - fraction.length)

/-- Whether the text names an infinity or an indefinite number, which no document
value can hold. -/
def isBeyondNumbers (s : String) : Bool :=
  [".inf", ".Inf", ".INF", "+.inf", "+.Inf", "+.INF", "-.inf", "-.Inf", "-.INF", ".nan", ".NaN",
    ".NAN"].contains s

/-- **The meaning of a plain scalar**: nothing, a truth value, a number, or else
the text itself. An integer of more than 64 but at most 128 bits has none. -/
def plainValue? (s : String) : Option Json :=
  if isNullText s then some .null
  else match boolText? s with
    | some b => some (.bool b)
    | none =>
      let other :=
        if isBeyondNumbers s then some Json.null
        else if hasLeadingZero s.toList then some (.string s)
        else match doubleText? s.toList with
          | some x => some (.number (.double x))
          | none => some (.string s)
      match intText? s.toList with
      | some n =>
        if h : -2 ^ 63 ≤ n ∧ n < 2 ^ 64 then some (.number (.int n h))
        else if -2 ^ 127 ≤ n ∧ n < 2 ^ 128 then none
        else other
      | none => other

/-! ## Nodes as documents -/

namespace Node

/-- The text of a scalar, however written. -/
def text? : Node → Option String
  | .scalar _ s => some s
  | _ => none

mutual

/-- The node as a JSON value, if its sequences and mappings are not nested deeper
than a number of levels. -/
def value? : (levels : Nat) → Node → Option Json
  | _, .scalar isPlain s => if isPlain then plainValue? s else some (.string s)
  | 0, _ => none
  | levels + 1, .sequence items => (values? levels items).map .array
  | levels + 1, .mapping entries => (members? levels entries).map Json.ofMembers

/-- The items of a sequence as JSON values. -/
def values? : (levels : Nat) → List Node → Option (List Json)
  | _, [] => some []
  | levels, n :: rest => do
    let j ← n.value? levels
    let js ← values? levels rest
    some (j :: js)

/-- The entries of a mapping as members of an object. -/
def members? : (levels : Nat) → List (Node × Node) → Option (List (String × Json))
  | _, [] => some []
  | levels, (k, n) :: rest => do
    let name ← k.text?
    let j ← n.value? levels
    let js ← members? levels rest
    some ((name, j) :: js)

end

/-- How deep a value may be nested. A file is read to 128 levels, and the value of
a setting stands in a mapping in a sequence in a mapping. -/
def valueLevels : Nat := 128 - 3

/-- Whether the node stands for an absent value. -/
def isNull : Node → Bool
  | .scalar isPlain s => isPlain && isNullText s
  | _ => false

/-- Whether nothing was written for the node. -/
def isEmpty : Node → Bool
  | .scalar isPlain s => isPlain && s.isEmpty
  | _ => false

/-- The integer that a plain scalar stands for. One without a sign has no minus in
its text. -/
def integer? (signed : Bool) : Node → Option Int
  | .scalar true s => if signed || !s.startsWith "-" then intText? s.toList else none
  | _ => none

/-- The items of a sequence. -/
def items? (n : Node) : Option (List Node) :=
  match n with
  | .sequence items => some items
  | _ => if n.isEmpty then some [] else none

/-- The fields of a record: the entries of a mapping, whose keys are scalars, with
none of the names twice. -/
def fields? (names : List String) (n : Node) : Option (String → Option Node) :=
  match n with
  | .mapping entries => do
    let fields ← entries.mapM fun (k, v) => k.text?.map (·, v)
    if names.any fun name => 1 < (fields.filter fun (k, _) => k == name).length then none
    else some fun name => fields.lookup name
  | _ => if n.isEmpty then some fun _ => none else none

instance : Document Node where
  isNull := isNull
  text? := text?
  name? := text?
  integer? := integer?
  items? := items?
  fields? reached omissible := fields? (reached ++ omissible)
  value? := value? valueLevels

end Node

end Yaml

end Tariff
