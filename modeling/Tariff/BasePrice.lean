import Tariff.Resolution

/-!
# Base prices

The price of an operation before any rule: a price per unit times the quantity.
The price per unit is a setting of the operation; where no such setting applies
and the request gives the size of a cylinder, it is the operation's fee per
kilogram times that size.

Settings are looked up for the operation being priced, whatever operation the
request itself names.
-/

namespace Tariff

/-- **A base price** and how it came about. -/
structure BasePrice where
  /-- The setting key that the price per unit comes from. -/
  key : String
  unitPrice : Decimal
  quantity : UInt32
  /-- The price per unit times the quantity. -/
  amount : Decimal
deriving DecidableEq

/-- **A computation of a price.** It may fail, and uses the cache. -/
abbrev Pricing (α : Type) : Type := ExceptT Failure (StateM (Option Cache)) α

namespace Pricing

/-- Fails with an error. -/
def fail {α : Type} (e : Error) : Pricing α := throw (.error e)

/-- The result of a checked operation, or an error. -/
def check {α : Type} (e : Error) : Option α → Pricing α
  | some a => pure a
  | none => fail e

/-- The result of a checked operation, or a fault. -/
def checkFault {α : Type} (fault : Fault) (result : Option α) : Pricing α :=
  match fault.check result with
  | .ok a => pure a
  | .error f => throw f

end Pricing

namespace View

/-- The value of a key as a price, if there is one. -/
def price? (v : View) (key : String) (r : Request) : Pricing (Option Decimal) := do
  match ← v.resolve key r with
  | none => return none
  | some value =>
    let price ← Pricing.check (.invalid (.priceNotNumber key value.dataType)) value.decimal?
    return some price

/-- The price per unit from the fee per kilogram, with its key, if there is a fee
and the request gives the size. -/
def pricePerSize? (v : View) (op : Operation) (r : Request) :
    Pricing (Option (String × Decimal)) := do
  match r.cylinderSize with
  | none => return none
  | some size =>
    match ← v.price? op.feePerKgKey r with
    | none => return none
    | some fee =>
      let price ← Pricing.check (.calculation (.size fee size)) (fee.mul size)
      return some (op.feePerKgKey, price)

/-- The price per unit for a request of the operation, with its key. -/
def unitPrice (v : View) (op : Operation) (r : Request) : Pricing (String × Decimal) := do
  match ← v.price? op.basePriceKey r with
  | some price => return (op.basePriceKey, price)
  | none =>
    match ← v.pricePerSize? op r with
    | some found => return found
    | none => Pricing.fail (.configurationMissing op.basePriceKey)

/-- **The base price of an operation.** Without a quantity it is for one unit. -/
def basePrice (v : View) (op : Operation) (r : Request) : Pricing BasePrice := do
  let quantity := r.quantity.getD 1
  if quantity = 0 then Pricing.fail (.invalid .zeroQuantity)
  let (key, unitPrice) ← v.unitPrice op (r.withOperation op)
  let amount ← Pricing.check (.calculation (.quantity unitPrice quantity))
    (unitPrice.mul (.ofUInt32 quantity))
  return ⟨key, unitPrice, quantity, amount⟩

end View

/-- The base price as a JSON value. -/
def BasePrice.toJson (p : BasePrice) : Json :=
  .object [("base_price", Json.ofDecimal p.amount), ("price_key", .string p.key),
    ("quantity", Json.ofNat p.quantity.toNat), ("unit_price", Json.ofDecimal p.unitPrice)]

end Tariff
