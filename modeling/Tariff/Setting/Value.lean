import Tariff.Document

/-!
# Setting values

A setting holds a typed **value**: a number, a truth value, a text, an array or
a JSON value of any shape. Numbers are decimals and are written to documents as
texts, so that no digit is lost.

A value has two forms in documents. `Value.toJson` is the one stored in
snapshots, which keeps the scale of a number; `Value.toPlainJson` writes the
number normalized. Reading takes the data type along, since a text may be a
number, and is `Value.ofJson`.
-/

namespace Tariff

/-- **The type of a setting value.** -/
inductive DataType where
  | number
  | boolean
  | string
  | json
  | array
deriving DecidableEq

namespace DataType

/-- Every data type. -/
def all : List DataType := [.number, .boolean, .string, .json, .array]

/-- The name in documents. -/
def name : DataType → String
  | .number => "number"
  | .boolean => "boolean"
  | .string => "string"
  | .json => "json"
  | .array => "array"

/-- The name in messages. -/
def label : DataType → String
  | .number => "Number"
  | .boolean => "Boolean"
  | .string => "String"
  | .json => "Json"
  | .array => "Array"

/-- The data type with a name. -/
def ofName? (s : String) : Option DataType := all.find? (·.name == s)

/-- Reads a data type. -/
def ofDocument? {τ : Type} [Document τ] (d : τ) : Option DataType :=
  (Document.name? d).bind ofName?

end DataType

/-- **The value of a setting.** -/
inductive Value where
  | number (value : Decimal)
  | boolean (value : Bool)
  | text (value : String)
  | json (value : Json)
  | array (items : List Json)
deriving Inhabited

namespace Value

/-- The data type of a value. -/
def dataType : Value → DataType
  | .number _ => .number
  | .boolean _ => .boolean
  | .text _ => .string
  | .json _ => .json
  | .array _ => .array

/-- The number, if the value is one. -/
def decimal? : Value → Option Decimal
  | .number d => some d
  | _ => none

/-- The truth value, if the value is one. -/
def bool? : Value → Option Bool
  | .boolean b => some b
  | _ => none

/-- The text, if the value is one. -/
def text? : Value → Option String
  | .text s => some s
  | _ => none

/-- **The value in snapshots**: a number is a text with all its fraction
digits. -/
def toJson : Value → Json
  | .number d => .string d.toText
  | .boolean b => .bool b
  | .text s => .string s
  | .json j => j
  | .array items => .array items

/-- The value with a number normalized. -/
def toPlainJson : Value → Json
  | .number d => .string d.normalize.toText
  | v => v.toJson

/-- Why a JSON value is no value of a data type. -/
inductive Refusal where
  /-- A number beyond the limits of decimals. -/
  | number (refusal : Decimal.Refusal)
  /-- A text that is not a number. -/
  | notNumber (text : String)
  /-- A value of another shape. -/
  | shape (expected : DataType) (value : Json)

/-- The refusal in words. -/
def Refusal.message : Refusal → String
  | .number r => r.message
  | .notNumber s => s!"'{s}' is not a number"
  | .shape expected j => s!"expected {expected.label} value, got {j.text}"

/-- **Reads a value of a data type.** A number may be written as a number, which
is read from its text in documents, or as a text, with blanks around it. -/
def ofJson (type : DataType) (raw : Json) : Except Refusal Value :=
  match type, raw with
  | .number, .number n =>
    match Decimal.ofNotation n.text with
    | .ok d => .ok (.number d)
    | .error r => .error (.number r)
  | .number, .string s =>
    match Decimal.parse? (Text.trimBlanks s) with
    | some d => .ok (.number d)
    | none => .error (.notNumber s)
  | .boolean, .bool b => .ok (.boolean b)
  | .string, .string s => .ok (.text s)
  | .array, .array items => .ok (.array items)
  | .json, j => .ok (.json j)
  | expected, j => .error (.shape expected j)

end Value

end Tariff
