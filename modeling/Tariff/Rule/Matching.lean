import Tariff.Rule.Basic

/-!
# When a rule applies

A condition on a field that the request does not carry is false, whatever the
comparison. Otherwise numbers compare as numbers and texts as texts, and a
number equals a text that is the same number. A comparison that its operand does
not suit is an error.

A rule applies if the operation and the outlet are among those it is limited to
and all its conditions hold. The limit on outlets binds only requests that name
one.
-/

namespace Tariff

/-- What a request has in a field, as an operand. -/
def Request.operand? (r : Request) : Field → Option Operand
  | .outletId => r.outletId.map fun n => .number (.ofInt64 n)
  | .cylinderType => r.cylinderType.map .text
  | .customerTier => r.customerTier.map .text
  | .operationType => r.operationType.map fun op => .text op.name
  | .quantity => r.quantity.map fun n => .number (.ofUInt32 n)
  | .cylinderSize => r.cylinderSize.map .number

/-- Whether two operands are the same number. -/
def Operand.sameNumber (a b : Operand) : Bool :=
  match a.decimal?, b.decimal? with
  | some x, some y => x.SameNumber y
  | _, _ => false

/-- **Whether two operands are equal**: two texts exactly, anything else as
numbers. A list equals nothing. -/
def Operand.looselyEqual : Operand → Operand → Bool
  | .text a, .text b => a == b
  | a, b => a.sameNumber b

namespace Condition

/-- The operand, if it is not a list. -/
def single (c : Condition) : Except Problem Operand :=
  if c.operand.isList then .error (.operandInUse c.field (.singleExpected c.comparison))
  else .ok c.operand

/-- The items of the operand, if it is a list. -/
def items (c : Condition) : Except Problem (List Operand) :=
  match c.operand with
  | .list items => .ok items
  | o => .error (.operandInUse c.field (.listExpected c.comparison o))

/-- Both sides of an ordering comparison as numbers. -/
def sides (c : Condition) (actual : Operand) : Except Problem (Decimal × Decimal) := do
  let left ← match actual.decimal? with
    | some d => pure d
    | none => throw (.notNumeric c.field actual)
  let right ← match (← c.single).decimal? with
    | some d => pure d
    | none => throw (.operandInUse c.field (.numberExpected c.comparison c.operand))
  return (left, right)

/-- Whether a condition holds of a field that has a value. -/
def test (c : Condition) (actual : Operand) : Except Problem Bool :=
  match c.comparison with
  | .eq => do return actual.looselyEqual (← c.single)
  | .ne => do return !actual.looselyEqual (← c.single)
  | .gt => do let (a, b) ← c.sides actual; return b < a
  | .gte => do let (a, b) ← c.sides actual; return b ≤ a
  | .lt => do let (a, b) ← c.sides actual; return a < b
  | .lte => do let (a, b) ← c.sides actual; return a ≤ b
  | .isIn => do return (← c.items).any actual.looselyEqual
  | .notIn => do return !(← c.items).any actual.looselyEqual

/-- **Whether a condition holds of a request.** -/
def evaluate (c : Condition) (r : Request) : Except Problem Bool :=
  match r.operand? c.field with
  | none => .ok false
  | some actual => c.test actual

/-- **Whether all conditions hold**, looked at in order until one does not. -/
def allHold (r : Request) : List Condition → Except Problem Bool
  | [] => .ok true
  | c :: rest => do if ← c.evaluate r then allHold r rest else return false

end Condition

namespace Rule

/-- **Whether a rule applies to an operation on request.** Its conditions see the
operation that is priced. -/
def appliesTo (rule : Rule) (op : Operation) (r : Request) : Except Problem Bool :=
  if !rule.operationTypes.isEmpty && !rule.operationTypes.contains op then .ok false
  else
    let outletAdmitted := match rule.outletIds, r.outletId with
      | some allowed, some outlet => allowed.contains outlet
      | _, _ => true
    if !outletAdmitted then .ok false
    else Condition.allHold (r.withOperation op) rule.conditions

end Rule

end Tariff
