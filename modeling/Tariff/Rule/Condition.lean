import Tariff.Document

/-!
# Conditions

A rule applies to a request when its conditions hold. A **condition** compares
one field of the request with an operand: a number, a text, or a list of
operands for the membership comparisons.

This module has the vocabulary: fields, comparisons, operands, and their forms
in documents and messages. What a condition says about a request is
`Condition.evaluate`, and which conditions may be stored is
`Condition.validate`.
-/

namespace Tariff

/-- **A field of a request** that a condition can look at. -/
inductive Field where
  | outletId
  | cylinderType
  | customerTier
  | operationType
  | quantity
  | cylinderSize
deriving DecidableEq

namespace Field

/-- Every field. -/
def all : List Field :=
  [.outletId, .cylinderType, .customerTier, .operationType, .quantity, .cylinderSize]

/-- The name in documents and messages. -/
def name : Field → String
  | .outletId => "outlet_id"
  | .cylinderType => "cylinder_type"
  | .customerTier => "customer_tier"
  | .operationType => "operation_type"
  | .quantity => "quantity"
  | .cylinderSize => "cylinder_size"

/-- The field with a name. -/
def ofName? (s : String) : Option Field := all.find? (·.name == s)

/-- Whether the field holds numbers. -/
def isNumeric : Field → Bool
  | .outletId | .quantity | .cylinderSize => true
  | .cylinderType | .customerTier | .operationType => false

end Field

/-- **How a condition compares.** -/
inductive Comparison where
  | eq
  | ne
  | gt
  | gte
  | lt
  | lte
  | isIn
  | notIn
deriving DecidableEq

namespace Comparison

/-- Every comparison. -/
def all : List Comparison := [.eq, .ne, .gt, .gte, .lt, .lte, .isIn, .notIn]

/-- The name in documents. -/
def name : Comparison → String
  | .eq => "eq"
  | .ne => "ne"
  | .gt => "gt"
  | .gte => "gte"
  | .lt => "lt"
  | .lte => "lte"
  | .isIn => "in"
  | .notIn => "not_in"

/-- The name in messages. -/
def label : Comparison → String
  | .eq => "Eq"
  | .ne => "Ne"
  | .gt => "Gt"
  | .gte => "Gte"
  | .lt => "Lt"
  | .lte => "Lte"
  | .isIn => "In"
  | .notIn => "NotIn"

/-- The comparison with a name. -/
def ofName? (s : String) : Option Comparison := all.find? (·.name == s)

/-- Whether the comparison orders numbers. -/
def isOrdering : Comparison → Bool
  | .gt | .gte | .lt | .lte => true
  | _ => false

/-- Whether the comparison asks for membership in a list. -/
def isMembership : Comparison → Bool
  | .isIn | .notIn => true
  | _ => false

end Comparison

/-- **What a field is compared with.** -/
inductive Operand where
  | number (value : Decimal)
  | text (value : String)
  | list (items : List Operand)
deriving Inhabited

namespace Operand

/-- The operand as a number: a number itself, or a text that is one but for blanks
around it. -/
def decimal? : Operand → Option Decimal
  | .number d => some d
  | .text s => Decimal.parse? (Text.trimBlanks s)
  | .list _ => none

/-- Whether the operand is a list. -/
def isList : Operand → Bool
  | .list _ => true
  | _ => false

mutual

/-- The operand in a message. -/
def display : Operand → String
  | .number d => d.normalize.toText
  | .text s => s!"'{s}'"
  | .list items => "[" ++ ", ".intercalate (displayAll items) ++ "]"

/-- The operands of a list in a message. -/
def displayAll : List Operand → List String
  | [] => []
  | o :: rest => o.display :: displayAll rest

end

/-! ## Operands in documents -/

mutual

/-- The operand as a JSON value; a number becomes its text. -/
def toJson : Operand → Json
  | .number d => .string d.toText
  | .text s => .string s
  | .list items => .array (toJsons items)

/-- The operands of a list as JSON values. -/
def toJsons : List Operand → List Json
  | [] => []
  | o :: rest => o.toJson :: toJsons rest

end

/-- Why a JSON value is no operand. -/
inductive Refusal where
  /-- A number beyond the limits of decimals. -/
  | number (refusal : Decimal.Refusal)
  /-- A value that is neither number nor text nor list. -/
  | shape (value : Json)

/-- The refusal in words. -/
def Refusal.message : Refusal → String
  | .number r => r.message
  | .shape j => s!"condition value must be a number, string or list, got {j.text}"

mutual

/-- **Reads an operand.** Numbers are read from their text in documents, so
`100.0` keeps its fraction digit; of several faults the first counts. -/
def ofJson : Json → Except Refusal Operand
  | .number n =>
    match Decimal.ofNotation n.text with
    | .ok d => .ok (.number d)
    | .error r => .error (.number r)
  | .string s => .ok (.text s)
  | .array items =>
    match ofJsons items with
    | .ok operands => .ok (.list operands)
    | .error r => .error r
  | .null => .error (.shape .null)
  | .bool b => .error (.shape (.bool b))
  | .object members => .error (.shape (.object members))

/-- Reads the operands of a list. -/
def ofJsons : List Json → Except Refusal (List Operand)
  | [] => .ok []
  | j :: rest =>
    match ofJson j with
    | .error r => .error r
    | .ok o =>
      match ofJsons rest with
      | .error r => .error r
      | .ok operands => .ok (o :: operands)

end

end Operand

/-- **A condition**: a field, a comparison and an operand. -/
structure Condition where
  field : Field
  comparison : Comparison
  operand : Operand

namespace Condition

/-- The condition as a JSON value. -/
def toJson (c : Condition) : Json :=
  .object [("field", .string c.field.name), ("operator", .string c.comparison.name),
    ("value", c.operand.toJson)]

/-- Reads a condition. -/
def ofDocument? {τ : Type} [Document τ] (d : τ) : Option Condition := do
  let fields ← Document.fields? ["field", "operator", "value"] [] d
  let field ← Document.required fields "field" fun d => (Document.name? d).bind Field.ofName?
  let comparison ← Document.required fields "operator" fun d =>
    (Document.name? d).bind Comparison.ofName?
  let operand ← Document.required fields "value" fun d =>
    (Document.value? d).bind fun j => (Operand.ofJson j).toOption
  some ⟨field, comparison, operand⟩

end Condition

end Tariff
