import Tariff.BasePrice
import Tariff.Rule.Trace
import Tariff.Tax

/-!
# Prices and quotes

The price of an operation is its base price after the rules in force. A
**quote** adds the tax, at the rate and in the mode that the settings give for
the request. Without a rate there is no tax; without a mode the engine's own
applies.
-/

namespace Tariff

/-- **A price worked out in full.** -/
structure Quote where
  operation : Operation
  /-- The setting key that the price per unit comes from. -/
  priceKey : String
  unitPrice : Decimal
  /-- The price before rules. -/
  basePrice : Decimal
  /-- The price after rules, before tax is split off or added. -/
  adjustedPrice : Decimal
  /-- In percent. -/
  taxRate : Decimal
  tax : TaxBreakdown
  /-- What the rules did. -/
  trace : Trace

/-- The setting key of the tax rate. -/
def taxRateKey : String := "tax.rate"

/-- The setting key of the tax mode. -/
def taxModeKey : String := "tax.mode"

namespace View

/-- **What the rules in force make of a price.** -/
def applyRules (v : View) (price : Decimal) (op : Operation) (r : Request)
    (filter : RuleFilter) : Trace :=
  Trace.evaluate (v.store.liveRules v.now) price op r filter

/-- **The price of an operation**, before tax. -/
def price (v : View) (op : Operation) (r : Request) : Pricing Decimal := do
  let base ← v.basePrice op r
  return (v.applyRules base.amount op r .all).adjustedPrice

/-- The tax rate for a request; zero if none is set. -/
def taxRate (v : View) (r : Request) : Pricing Decimal := do
  match ← v.resolve taxRateKey r with
  | none => return .zero
  | some value => Pricing.check (.invalid .taxRateNotNumber) value.decimal?

/-- The tax mode for a request; `usual` if none is set. -/
def taxMode (v : View) (usual : TaxMode) (r : Request) : Pricing TaxMode := do
  match ← v.resolve taxModeKey r with
  | none => return usual
  | some value =>
    let text ← Pricing.check (.invalid .taxModeNotText) value.text?
    match TaxMode.parse text with
    | .ok mode => return mode
    | .error p => Pricing.fail (.invalid p)

/-- **The quote for an operation.** -/
def quote (v : View) (usual : TaxMode) (op : Operation) (r : Request) : Pricing Quote := do
  let base ← v.basePrice op r
  let trace := v.applyRules base.amount op r .all
  let rate ← v.taxRate (r.withOperation op)
  let mode ← v.taxMode usual (r.withOperation op)
  match TaxBreakdown.compute trace.adjustedPrice rate mode with
  | .error f => throw f
  | .ok tax =>
    return ⟨op, base.key, base.unitPrice, base.amount, trace.adjustedPrice, rate, tax, trace⟩

end View

/-- The quote as a JSON value. -/
def Quote.toJson (q : Quote) : Json :=
  .object [("adjusted_price", Json.ofDecimal q.adjustedPrice),
    ("base_price", Json.ofDecimal q.basePrice), ("evaluation", q.trace.toJson),
    ("operation_type", q.operation.toJson), ("price_key", .string q.priceKey),
    ("tax", q.tax.toJson), ("tax_rate", Json.ofDecimal q.taxRate),
    ("unit_price", Json.ofDecimal q.unitPrice)]

end Tariff
