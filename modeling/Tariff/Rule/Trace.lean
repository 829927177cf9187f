import Tariff.Rule.Matching

/-!
# Applying rules to a price

The rules that apply to a request are carried out one after the other on a
running price, in the order of `Rule.order`. The **trace** records every step:
the price before and after and the reason in words. A rule that cannot be
applied is left out and recorded with the cause; the running price stays as it
was before that rule. At the end a price below zero becomes zero, and the trace
says so.
-/

namespace Tariff

/-! ## What actions do -/

namespace Action

/-- One plus or minus a percentage, as a fraction. -/
def percentageFactor (percent : Decimal) (isMarkup : Bool) : Option Decimal := do
  let fraction ← percent.div .hundred
  if isMarkup then Decimal.one.add fraction else Decimal.one.sub fraction

/-- **What an action makes of a price.** Percentages are of that price; the result
may be negative. -/
def apply (a : Action) (price : Decimal) : Except Miscalculation Decimal :=
  let checked (result : Option Decimal) : Except Miscalculation Decimal :=
    match result with
    | some d => .ok d
    | none => .error (.action a.kind a.value price)
  match a.kind with
  | .add => checked (price.add a.value)
  | .subtract => checked (price.sub a.value)
  | .multiply => checked (price.mul a.value)
  | .divide => if a.value.isZero then .error .zeroDivisor else checked (price.div a.value)
  | .percentageDiscount => checked ((percentageFactor a.value false).bind price.mul)
  | .percentageMarkup => checked ((percentageFactor a.value true).bind price.mul)
  | .setFixed => .ok a.value

/-- What a list of actions makes of a price, in order, up to the first that
fails. -/
def applyAll (actions : List Action) (price : Decimal) : Except Miscalculation Decimal :=
  actions.foldlM (fun running a => a.apply running) price

end Action

/-! ## The trace -/

/-- **One rule carried out.** -/
structure Step where
  /-- The number of the step, from 1. -/
  number : Nat
  ruleId : Uuid
  ruleName : String
  ruleType : RuleType
  before : Decimal
  after : Decimal
  /-- The step in words. -/
  reasoning : String

/-- **A rule that could not be carried out.** -/
structure FailedRule where
  ruleId : Uuid
  ruleName : String
  /-- Why it could not. -/
  cause : Error

/-- **What rules made of a price.** -/
structure Trace where
  basePrice : Decimal
  /-- The price at the end, at least zero. -/
  adjustedPrice : Decimal
  steps : List Step
  failed : List FailedRule
  /-- Whether the price went below zero and was raised to it. -/
  clamped : Bool

/-- **Which rules take part**, by their type. -/
inductive RuleFilter where
  | all
  | only (type : RuleType)
  | except (type : RuleType)
deriving DecidableEq

/-- Whether rules of a type take part. -/
def RuleFilter.admits : RuleFilter → RuleType → Bool
  | .all, _ => true
  | .only t, type => t == type
  | .except t, type => t != type

namespace Trace

/-- The trace of a price that nothing was done to. -/
def start (price : Decimal) : Trace := ⟨price, price, [], [], false⟩

/-- The identifiers of the rules that were carried out, in order. -/
def appliedRuleIds (t : Trace) : List Uuid := t.steps.map (·.ruleId)

/-- What a rule makes of a price, if it applies; or why it cannot be carried
out. -/
def outcome (rule : Rule) (op : Operation) (r : Request) (price : Decimal) :
    Except Error (Option Decimal) :=
  match rule.appliesTo op r with
  | .error p => .error (.invalid p)
  | .ok false => .ok none
  | .ok true =>
    match Action.applyAll rule.actions price with
    | .ok d => .ok (some d)
    | .error m => .error (.calculation m)

/-- A step in words. -/
def reasoning (rule : Rule) (before after : Decimal) : String :=
  let actions := ", then ".intercalate (rule.actions.map Action.describe)
  s!"{rule.name} ({rule.ruleType.name}): {actions}, ${before.toText} -> ${after.toText}"

/-- **One more rule.** -/
def extend (op : Operation) (r : Request) (t : Trace) (rule : Rule) : Trace :=
  match outcome rule op r t.adjustedPrice with
  | .error e => { t with failed := t.failed ++ [⟨rule.id, rule.name, e⟩] }
  | .ok none => t
  | .ok (some after) =>
    { t with
      adjustedPrice := after
      steps := t.steps ++ [{
        number := t.steps.length + 1
        ruleId := rule.id
        ruleName := rule.name
        ruleType := rule.ruleType
        before := t.adjustedPrice
        after := after
        reasoning := reasoning rule t.adjustedPrice after }] }

/-- The end of a trace: a price below zero becomes zero. -/
def clamp (t : Trace) : Trace :=
  if t.adjustedPrice.isNegative then { t with adjustedPrice := .zero, clamped := true } else t

/-- **What rules make of a price.** The order of the list does not matter; that
the rules are in force is for the caller to see to. -/
def evaluate (rules : List Rule) (price : Decimal) (op : Operation) (r : Request)
    (filter : RuleFilter) : Trace :=
  ((Rule.inOrder (rules.filter fun rule => filter.admits rule.ruleType)).foldl (extend op r)
    (start price)).clamp

end Trace

/-! ## Traces in documents -/

/-- The step as a JSON value. -/
def Step.toJson (s : Step) : Json :=
  .object [("price_after", Json.ofDecimal s.after), ("price_before", Json.ofDecimal s.before),
    ("reasoning", .string s.reasoning), ("rule_id", Json.ofUuid s.ruleId),
    ("rule_name", .string s.ruleName), ("rule_type", .string s.ruleType.name),
    ("step_number", Json.ofNat s.number)]

/-- The failed rule as a JSON value, with the cause in words. -/
def FailedRule.toJson (f : FailedRule) : Json :=
  .object [("reason", .string f.cause.message), ("rule_id", Json.ofUuid f.ruleId),
    ("rule_name", .string f.ruleName)]

/-- The trace as a JSON value. -/
def Trace.toJson (t : Trace) : Json :=
  .object [("adjusted_price", Json.ofDecimal t.adjustedPrice),
    ("base_price", Json.ofDecimal t.basePrice), ("clamped", .bool t.clamped),
    ("failed", Json.ofList FailedRule.toJson t.failed),
    ("steps", Json.ofList Step.toJson t.steps)]

end Tariff
