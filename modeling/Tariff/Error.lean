import Tariff.Rule.Action
import Tariff.Rule.Condition
import Tariff.Setting.Value

/-!
# Errors

Whatever can go wrong is named by its cause, with the data that the cause speaks
of; the wording is in one place per type, `message`. An `Error` is what a caller
gets. Most are a `Problem`: a value or definition that was not acceptable, which
knows the field it was found in.

A `Fault` is not an error of the caller's. It is an arithmetic overflow where
the library computes without a check, and ends the computation; `Failure` joins
the two.
-/

namespace Tariff

/-- **What is wrong with the operand of a condition.** -/
inductive OperandProblem where
  /-- A membership comparison without a list. -/
  | listExpected (comparison : Comparison) (operand : Operand)
  /-- A list where the comparison takes one value. -/
  | singleExpected (comparison : Comparison)
  /-- An ordering comparison with something that is not a number. -/
  | numberExpected (comparison : Comparison) (operand : Operand)

/-- The problem in words. -/
def OperandProblem.message : OperandProblem → String
  | .listExpected c o => s!"{c.label} needs a list, got {o.display}"
  | .singleExpected c => s!"{c.label} needs a single value, got a list"
  | .numberExpected c o => s!"{c.label} needs a numeric operand, got {o.display}"

/-- **What was not acceptable**, and why. -/
inductive Problem where
  | unknownOperation (text : String)
  | unknownTaxMode (text : String)
  /-- A raw value that does not suit its data type. -/
  | value (refusal : Value.Refusal)
  /-- Specificity weights that do not outrank one another. -/
  | weights (operation tier cylinder outlet : UInt32)
  /-- An operand found unfit while a rule was written. -/
  | operand (field : Field) (problem : OperandProblem)
  | nestedList (field : Field)
  /-- An ordering comparison on a field that holds texts. -/
  | textField (field : Field) (comparison : Comparison)
  /-- An operand found unfit while a rule was applied. -/
  | operandInUse (field : Field) (problem : OperandProblem)
  /-- A field of a request whose text is not a number. -/
  | notNumeric (field : Field) (actual : Operand)
  | blankRuleName
  | noActions
  | zeroDivisor
  | negativePercentage (value : Decimal)
  | negativeFixedPrice (value : Decimal)
  | closedWindow (validFrom : Instant)
  | blankCategoryName
  | categoryExists (name : String)
  | blankKey
  | declaredType (key : String) (declared actual : DataType)
  | expiryTooEarly (effective : Instant)
  | blankActor
  | zeroQuantity
  | priceNotNumber (key : String) (found : DataType)
  | taxRateNotNumber
  | taxModeNotText
  | negativeRate (rate : Decimal)
  | negativeAmount (amount : Decimal)
  | emptyOrder
  | emptyLine (cylinderType : String)
  | tooManyCylinders
  /-- A problem in a caller's own words. -/
  | other (field message : String)

namespace Problem

/-- The field or definition that the problem was found in. -/
def field : Problem → String
  | .unknownOperation _ => "operation_type"
  | .unknownTaxMode _ | .taxModeNotText => "tax.mode"
  | .value _ => "value"
  | .weights .. => "specificity"
  | .operand f _ | .nestedList f | .textField f _ | .operandInUse f _ | .notNumeric f _ => f.name
  | .blankRuleName | .blankCategoryName | .categoryExists _ => "name"
  | .noActions | .zeroDivisor | .negativePercentage _ | .negativeFixedPrice _ => "actions"
  | .closedWindow _ => "valid_until"
  | .blankKey => "key"
  | .declaredType key _ _ | .priceNotNumber key _ => key
  | .expiryTooEarly _ => "expiry_date"
  | .blankActor => "actor"
  | .zeroQuantity => "quantity"
  | .taxRateNotNumber | .negativeRate _ => "tax.rate"
  | .negativeAmount _ => "amount"
  | .emptyOrder | .emptyLine _ | .tooManyCylinders => "items"
  | .other field _ => field

/-- The problem in words. -/
def message : Problem → String
  | .unknownOperation s => s!"unknown operation type '{s}'"
  | .unknownTaxMode s => s!"expected 'inclusive' or 'exclusive', got '{s}'"
  | .value r => r.message
  | .weights a b c d =>
    "weights must satisfy operation_type > customer_tier > cylinder_type > outlet_id > 0 "
      ++ s!"with each exceeding the sum of those below, got {a}/{b}/{c}/{d}"
  | .operand _ p => p.message
  | .nestedList _ => "nested lists are not supported"
  | .textField _ c => s!"{c.label} only applies to numeric fields"
  | .operandInUse _ p => s!"operator {p.message}"
  | .notNumeric _ o => s!"value {o.display} is not numeric"
  | .blankRuleName => "rule name must not be empty"
  | .noActions => "a rule needs at least one action"
  | .zeroDivisor => "divide action with a zero operand"
  | .negativePercentage d => s!"percentage must not be negative, got {d.toText}"
  | .negativeFixedPrice d => s!"fixed price must not be negative, got {d.toText}"
  | .closedWindow t => s!"must be after valid_from ({t.display})"
  | .blankCategoryName => "category name must not be empty"
  | .categoryExists s => s!"category '{s}' already exists"
  | .blankKey => "setting key must not be empty"
  | .declaredType _ a b => s!"declared {a.label} but value is {b.label}"
  | .expiryTooEarly t => s!"must be after the effective date {t.display}"
  | .blankActor => "every mutation must name an actor"
  | .zeroQuantity => "quantity must be at least 1"
  | .priceNotNumber _ t => s!"expected a number, found a {t.label} value"
  | .taxRateNotNumber => "tax rate must be a number"
  | .taxModeNotText => "tax mode must be a string"
  | .negativeRate d => s!"rate must not be negative, got {d.toText}"
  | .negativeAmount d => s!"taxable amount must not be negative, got {d.toText}"
  | .emptyOrder => "a bulk order needs at least one line"
  | .emptyLine s => s!"line for '{s}' has zero quantity"
  | .tooManyCylinders => "total quantity exceeds the supported range"
  | .other _ message => message

end Problem

/-- **A computation without a result.** -/
inductive Miscalculation where
  | zeroDivisor
  | action (kind : Adjustment) (value price : Decimal)
  | size (fee size : Decimal)
  | quantity (unitPrice : Decimal) (quantity : UInt32)
  | tax (amount rate : Decimal)
  /-- A miscalculation in a caller's own words. -/
  | other (message : String)

/-- The miscalculation in words. -/
def Miscalculation.message : Miscalculation → String
  | .zeroDivisor => "divide action with a zero operand"
  | .action k v p => s!"{k.name} by {v.toText} overflowed on price {p.toText}"
  | .size f s => s!"{f.toText} x {s.toText}kg overflowed"
  | .quantity p q => s!"{p.toText} x {q} overflowed"
  | .tax a r => s!"tax on {a.toText} at {r.toText}% overflowed"
  | .other message => message

/-- **Why a change could not be recorded.** -/
inductive AuditProblem where
  /-- A change without any record of it. -/
  | unrecorded
  /-- A record of a change from nothing to nothing. -/
  | noSubject
  /-- The log refused the records, for the reason given. -/
  | refused (reason : String)
deriving DecidableEq

/-- The problem in words. -/
def AuditProblem.message : AuditProblem → String
  | .unrecorded => "mutation staged without an audit record"
  | .noSubject => "audit record has neither an old nor a new value"
  | .refused reason => reason

/-- **What a caller is told when a call fails.** -/
inductive Error where
  /-- No setting resolved for a key that a price needs. -/
  | configurationMissing (key : String)
  | invalid (problem : Problem)
  | persistence (message : String)
  | auditWrite (problem : AuditProblem)
  | settingNotFound (id : Uuid)
  | ruleNotFound (id : Uuid)
  /-- No category with the given name, or identifier. -/
  | categoryNotFound (name : String)
  /-- The stored version is another than the caller expected; it is 0 where
  nothing is stored. -/
  | versionConflict (key : String) (expected found : UInt32)
  | calculation (cause : Miscalculation)
  | configNotFound (path : String)
  | configUnreadable (path message : String)

/-- **The error in words.** -/
def Error.message : Error → String
  | .configurationMissing key => s!"Configuration missing for key: {key}"
  | .invalid p => s!"Validation failed for '{p.field}': {p.message}"
  | .persistence m => s!"Persistence error: {m}"
  | .auditWrite p => s!"Audit write failed: {p.message}"
  | .settingNotFound id => s!"Setting not found: {id}"
  | .ruleNotFound id => s!"Pricing rule not found: {id}"
  | .categoryNotFound name => s!"Category not found: {name}"
  | .versionConflict key e f => s!"Version conflict on '{key}': expected version {e}, found {f}"
  | .calculation c => s!"Calculation error: {c.message}"
  | .configNotFound path => s!"Configuration file not found: {path}"
  | .configUnreadable path m => s!"Failed to parse configuration file '{path}': {m}"

/-- The result of a check, as a caller is told it. -/
def Error.ofCheck {α : Type} (result : Except Problem α) : Except Error α :=
  result.mapError .invalid

/-! ## Faults -/

/-- **An overflow in arithmetic without a check.** -/
inductive Fault where
  | addition
  | subtraction
  | division
deriving DecidableEq

/-- The fault in words. -/
def Fault.message : Fault → String
  | .addition => "Addition overflowed"
  | .subtraction => "Subtraction overflowed"
  | .division => "Division overflowed"

/-- **How a computation ends without a result**: in an error that the caller is
told, or in a fault. -/
inductive Failure where
  | error (error : Error)
  | fault (fault : Fault)

/-- The result of a checked operation, or the given fault. -/
def Fault.check {α : Type} (fault : Fault) : Option α → Except Failure α
  | some a => .ok a
  | none => .error (.fault fault)

end Tariff
