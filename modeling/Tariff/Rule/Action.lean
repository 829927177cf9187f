import Tariff.Document

/-!
# Actions

An **action** is one adjustment of a running price: an arithmetic step with a
fixed operand, a percentage of the price itself, or a fixed price in its place.

This module has the vocabulary; what an action does to a price is
`Action.apply`.
-/

namespace Tariff

/-- **The kind of an adjustment.** -/
inductive Adjustment where
  | add
  | subtract
  | multiply
  | divide
  | percentageDiscount
  | percentageMarkup
  | setFixed
deriving DecidableEq

namespace Adjustment

/-- Every kind. -/
def all : List Adjustment :=
  [.add, .subtract, .multiply, .divide, .percentageDiscount, .percentageMarkup, .setFixed]

/-- The name in documents and messages. -/
def name : Adjustment → String
  | .add => "add"
  | .subtract => "subtract"
  | .multiply => "multiply"
  | .divide => "divide"
  | .percentageDiscount => "percentage_discount"
  | .percentageMarkup => "percentage_markup"
  | .setFixed => "set_fixed"

/-- The kind with a name. -/
def ofName? (s : String) : Option Adjustment := all.find? (·.name == s)

end Adjustment

/-- **An action**: a kind of adjustment and its operand. -/
structure Action where
  kind : Adjustment
  value : Decimal
deriving DecidableEq

namespace Action

/-- The action in the explanation of a price. -/
def describe (a : Action) : String :=
  let value := a.value.normalize.toText
  match a.kind with
  | .add => s!"add {value}"
  | .subtract => s!"subtract {value}"
  | .multiply => s!"multiply by {value}"
  | .divide => s!"divide by {value}"
  | .percentageDiscount => s!"{value}% discount"
  | .percentageMarkup => s!"{value}% markup"
  | .setFixed => s!"set to {value}"

/-- The action as a JSON value. -/
def toJson (a : Action) : Json :=
  .object [("type", .string a.kind.name), ("value", .string a.value.toText)]

/-- Reads an action. -/
def ofDocument? {τ : Type} [Document τ] (d : τ) : Option Action := do
  let fields ← Document.fields? ["type", "value"] [] d
  let kind ← Document.required fields "type" fun d => (Document.name? d).bind Adjustment.ofName?
  let value ← Document.required fields "value" Document.decimal?
  some ⟨kind, value⟩

end Action

end Tariff
