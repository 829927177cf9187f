import Tariff.Decimal.Text
import Tariff.Instant.Text
import Tariff.Json.Printer
import Tariff.Uuid

/-!
# Reading records from documents

Scopes, rules and configuration arrive as trees: JSON values, or nodes of a YAML
file. The two differ in what counts as a text, as an integer, as a name among
several, as an empty list or as a missing value, and in nothing else that matters
here. `Document` is what a reader needs to know about a tree, and every reader of
a record is written once, over it.

A reader answers `none` when the tree has not the shape of the record. Why it
has not is not recorded.
-/

namespace Tariff

/-- **A tree from which records are read.** -/
class Document (τ : Type) where
  /-- Whether the tree stands for an absent value. -/
  isNull : τ → Bool
  /-- The text, where a text is expected. -/
  text? : τ → Option String
  /-- The name, where one of several names is expected. -/
  name? : τ → Option String
  /-- The integer, where one is expected, with a sign or without. -/
  integer? : (signed : Bool) → τ → Option Int
  /-- The items, where a list is expected. -/
  items? : τ → Option (List τ)
  /-- The fields, where a record is expected. Its fields have names and an order:
  first the names up to the last one that a list of values must reach, then the
  names before which it may end. -/
  fields? : (reached omissible : List String) → τ → Option (String → Option τ)
  /-- The tree as a JSON value. -/
  value? : τ → Option Json

/-! ## JSON values as documents -/

/-- The fields of a record: the members of an object, or the items of an array in
the order of the names. -/
def Json.fields? (reached omissible : List String) : Json → Option (String → Option Json)
  | .object members => some fun name => members.lookup name
  | .array items =>
    let names := reached ++ omissible
    if reached.length ≤ items.length ∧ items.length ≤ names.length then
      some fun name => (names.zip items).lookup name
    else none
  | _ => none

/-- A name among several: a text, or an object whose only member has the name and
holds nothing. -/
def Json.name? : Json → Option String
  | .string s => some s
  | .object [(name, .null)] => some name
  | _ => none

instance : Document Json where
  isNull := Json.isNull
  text? | .string s => some s
        | _ => none
  name? := Json.name?
  integer? signed
    | .number (.int n _) => if signed ∨ 0 ≤ n then some n else none
    | _ => none
  items? | .array items => some items
         | _ => none
  fields? := Json.fields?
  value? := some

/-! ## Simple values -/

/-- **A number of a document as a decimal**, read from its text on its own. -/
def Json.Number.decimal? (n : Json.Number) : Option Decimal := Decimal.parse? n.plainText

/-- A decimal: a number, or a text that is one. -/
def Json.decimal? : Json → Option Decimal
  | .number n => n.decimal?
  | .string s => Decimal.parse? s
  | _ => none

namespace Document

variable {τ α : Type} [Document τ]

/-- A truth value. -/
def bool? (d : τ) : Option Bool :=
  match value? d with
  | some (.bool b) => some b
  | _ => none

/-- An integer from `lo` up to and including `hi`; it has a sign if `lo` is
negative. -/
def int? (lo hi : Int) (d : τ) : Option Int :=
  match integer? (lo < 0) d with
  | some n => if lo ≤ n ∧ n ≤ hi then some n else none
  | none => none

/-- An unsigned integer of 32 bits. -/
def uint32? (d : τ) : Option UInt32 :=
  (int? 0 (2 ^ 32 - 1) d).map fun n => UInt32.ofNat n.toNat

/-- An unsigned integer of 64 bits. -/
def uint64? (d : τ) : Option UInt64 :=
  (int? 0 (2 ^ 64 - 1) d).map fun n => UInt64.ofNat n.toNat

/-- A signed integer of 32 bits. -/
def int32? (d : τ) : Option Int32 := (int? (-2 ^ 31) (2 ^ 31 - 1) d).map Int32.ofInt

/-- A signed integer of 64 bits. -/
def int64? (d : τ) : Option Int64 := (int? (-2 ^ 63) (2 ^ 63 - 1) d).map Int64.ofInt

/-- A decimal. -/
def decimal? (d : τ) : Option Decimal := (value? d).bind Json.decimal?

/-- An instant. -/
def instant? (d : τ) : Option Instant := (text? d).bind Instant.parse?

/-- An identifier. -/
def uuid? (d : τ) : Option Uuid := (text? d).bind Uuid.parse?

/-- A list, each item read alike. -/
def list? (item? : τ → Option α) (d : τ) : Option (List α) := (items? d).bind (·.mapM item?)

/-! ## Fields -/

/-- A field that must be there. -/
def required (fields : String → Option τ) (name : String) (read? : τ → Option α) : Option α :=
  (fields name).bind read?

/-- A field that may be missing or stand for an absent value. -/
def optional (fields : String → Option τ) (name : String) (read? : τ → Option α) :
    Option (Option α) :=
  match fields name with
  | none => some none
  | some d => if isNull d then some none else (read? d).map some

/-- A field that may be missing, but not absent. -/
def withDefault (fields : String → Option τ) (name : String) (default : α)
    (read? : τ → Option α) : Option α :=
  match fields name with
  | none => some default
  | some d => read? d

end Document

end Tariff
