import Tariff.Quote

/-!
# Orders of several lines

Each line of an order is priced on its own, by every rule but the volume
discounts. The lines are added up, and the volume discounts are then applied
once to the sum, with the number of cylinders in all lines as the quantity. So a
volume discount counts all cylinders of the order and is never given both on a
line and on the sum.
-/

namespace Tariff

namespace Order

/-- **A line of an order.** -/
structure Line where
  cylinderType : String
  quantity : UInt32
  /-- The capacity of a cylinder in kilograms, where prices go by it. -/
  cylinderSize : Option Decimal := none

/-- **A line with its price.** -/
structure PricedLine where
  cylinderType : String
  quantity : UInt32
  unitPrice : Decimal
  /-- The price of the line after rules. -/
  total : Decimal
  appliedRules : List Uuid

end Order

/-- **An order with its price.** -/
structure PricedOrder where
  lines : List Order.PricedLine
  /-- The number of cylinders in all lines. -/
  quantity : UInt32
  /-- The sum of the lines. -/
  subtotal : Decimal
  /-- What the volume discounts took off. -/
  discount : Decimal
  total : Decimal
  /-- What the volume discounts did. -/
  volumeTrace : Trace

namespace Order

/-- The sum so far. -/
structure Tally where
  /-- The lines so far, the first one first. -/
  lines : List PricedLine := []
  subtotal : Decimal := .zero
  quantity : Nat := 0

/-- The request of a line: the shared one, with what the line says. -/
def Line.request (line : Line) (shared : Request) : Request :=
  { shared with
    cylinderType := some line.cylinderType
    quantity := some line.quantity
    cylinderSize := line.cylinderSize.or shared.cylinderSize }

/-- **The price of one line.** -/
def priceLine (v : View) (op : Operation) (shared : Request) (line : Line) :
    Pricing PricedLine := do
  let r := line.request shared
  let base ← v.basePrice op r
  let trace := v.applyRules base.amount op r (.except .volumeDiscount)
  return ⟨line.cylinderType, line.quantity, base.unitPrice, trace.adjustedPrice,
    trace.appliedRuleIds⟩

/-- Adds a priced line. More cylinders than 32 bits can count are refused. -/
def Tally.add (t : Tally) (line : PricedLine) : Pricing Tally := do
  let subtotal ← Pricing.checkFault .addition (t.subtotal.add line.total)
  let quantity := t.quantity + line.quantity.toNat
  if 2 ^ 32 ≤ quantity then Pricing.fail (.invalid .tooManyCylinders)
  return ⟨t.lines ++ [line], subtotal, quantity⟩

/-- Prices lines and adds them up, in order. -/
def addLines (v : View) (op : Operation) (shared : Request) (lines : List Line) :
    Pricing Tally :=
  lines.foldlM (fun t line => do t.add (← priceLine v op shared line)) {}

/-- Refuses an order without lines or with an empty line. -/
def validate (lines : List Line) : Except Problem Unit :=
  if lines.isEmpty then .error .emptyOrder
  else
    match lines.find? fun line => line.quantity = 0 with
    | some line => .error (.emptyLine line.cylinderType)
    | none => .ok ()

end Order

/-- **The price of an order.** `shared` is what its lines have in common. -/
def View.order (v : View) (op : Operation) (lines : List Order.Line) (shared : Request) :
    Pricing PricedOrder := do
  if let .error p := Order.validate lines then Pricing.fail (.invalid p)
  let tally ← Order.addLines v op shared lines
  let quantity := UInt32.ofNat tally.quantity
  let trace := v.applyRules tally.subtotal op { shared with quantity := some quantity }
    (.only .volumeDiscount)
  let discount ← Pricing.checkFault .subtraction (tally.subtotal.sub trace.adjustedPrice)
  return ⟨tally.lines, quantity, tally.subtotal, discount, trace.adjustedPrice, trace⟩

/-! ## Orders in documents -/

namespace Order

/-- Reads a line. -/
def Line.ofDocument? {τ : Type} [Document τ] (d : τ) : Option Line := do
  let fields ← Document.fields? ["cylinder_type", "quantity"] ["cylinder_size"] d
  let cylinderType ← Document.required fields "cylinder_type" Document.text?
  let quantity ← Document.required fields "quantity" Document.uint32?
  let cylinderSize ← Document.optional fields "cylinder_size" Document.decimal?
  some ⟨cylinderType, quantity, cylinderSize⟩

/-- The line as a JSON value. -/
def Line.toJson (line : Line) : Json :=
  .object [("cylinder_size", Json.ofOption Json.ofDecimal line.cylinderSize),
    ("cylinder_type", .string line.cylinderType),
    ("quantity", Json.ofNat line.quantity.toNat)]

/-- The priced line as a JSON value. -/
def PricedLine.toJson (line : PricedLine) : Json :=
  .object [("applied_rules", Json.ofList Json.ofUuid line.appliedRules),
    ("cylinder_type", .string line.cylinderType),
    ("quantity", Json.ofNat line.quantity.toNat), ("total_price", Json.ofDecimal line.total),
    ("unit_price", Json.ofDecimal line.unitPrice)]

end Order

/-- The priced order as a JSON value. -/
def PricedOrder.toJson (o : PricedOrder) : Json :=
  .object [("discount", Json.ofDecimal o.discount),
    ("item_prices", Json.ofList Order.PricedLine.toJson o.lines),
    ("subtotal", Json.ofDecimal o.subtotal), ("total_price", Json.ofDecimal o.total),
    ("total_quantity", Json.ofNat o.quantity.toNat),
    ("volume_evaluation", o.volumeTrace.toJson)]

end Tariff
