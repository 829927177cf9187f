import Tariff.Rule.Basic

/-!
# Which rules may be stored

A draft is checked before it is stored, so that applying the rule cannot fail on
its conditions: a membership comparison has a flat list, an ordering one has a
number on either side. Of the actions, a division by zero is refused, and a
percentage or fixed price below zero. A negative zero counts as below zero here,
since the check is of the sign.
-/

namespace Tariff

namespace Condition

/-- Whether the operand of a condition suits its field and comparison. -/
def validate (c : Condition) : Except Problem Unit :=
  if c.comparison.isMembership then
    match c.operand with
    | .list items => if items.any Operand.isList then .error (.nestedList c.field) else .ok ()
    | o => .error (.operand c.field (.listExpected c.comparison o))
  else if c.operand.isList then .error (.operand c.field (.singleExpected c.comparison))
  else if c.comparison.isOrdering then
    if !c.field.isNumeric then .error (.textField c.field c.comparison)
    else if c.operand.decimal?.isNone then
      .error (.operand c.field (.numberExpected c.comparison c.operand))
    else .ok ()
  else .ok ()

end Condition

namespace Action

/-- Whether an action makes sense on every price. -/
def validate (a : Action) : Except Problem Unit :=
  match a.kind with
  | .divide => if a.value.isZero then .error .zeroDivisor else .ok ()
  | .percentageDiscount | .percentageMarkup =>
    if a.value.isSignNegative then .error (.negativePercentage a.value) else .ok ()
  | .setFixed => if a.value.isSignNegative then .error (.negativeFixedPrice a.value) else .ok ()
  | _ => .ok ()

end Action

namespace Draft

/-- Whether the window of validity has an instant in it. -/
def validateWindow (d : Draft) : Except Problem Unit :=
  match d.validFrom, d.validUntil with
  | some start, some stop => if stop ≤ start then .error (.closedWindow start) else .ok ()
  | _, _ => .ok ()

/-- **Whether a draft may be stored.** The first problem counts: the name, then
whether there are actions, then the conditions, the actions and the window. -/
def validate (d : Draft) : Except Problem Unit := do
  if Text.isBlank d.name then throw .blankRuleName
  if d.actions.isEmpty then throw .noActions
  d.conditions.forM Condition.validate
  d.actions.forM Action.validate
  d.validateWindow

end Draft

end Tariff
