import Tariff.Scope

/-!
# Tax

A price either has the tax **added** to it or **contains** it. The computation
carries all digits and rounds to money at the end, and the subtotal is what the
rounded tax leaves of the total. So the three shown amounts always add up.

The sums and differences here are not checked: the library relies on them to
fit, and an amount so large that one does not is a fault.
-/

namespace Tariff

/-- **Whether a price contains the tax.** -/
inductive TaxMode where
  | inclusive
  | exclusive
deriving DecidableEq

namespace TaxMode

/-- Both modes. -/
def all : List TaxMode := [.inclusive, .exclusive]

/-- The name in documents and messages. -/
def name : TaxMode → String
  | .inclusive => "inclusive"
  | .exclusive => "exclusive"

/-- The mode with a name. -/
def ofName? (s : String) : Option TaxMode := all.find? (·.name == s)

/-- Reads a mode as people write it: in any case, with blanks around. -/
def parse (text : String) : Except Problem TaxMode :=
  let s := Text.lowercaseAscii (Text.trimBlanks text)
  match ofName? s with
  | some mode => .ok mode
  | none => .error (.unknownTaxMode s)

/-- Reads a mode of a document. -/
def ofDocument? {τ : Type} [Document τ] (d : τ) : Option TaxMode :=
  (Document.name? d).bind ofName?

end TaxMode

/-- **A price split into its parts**, each rounded to money. -/
structure TaxBreakdown where
  subtotal : Decimal
  taxAmount : Decimal
  total : Decimal
deriving DecidableEq

namespace TaxBreakdown

/-- The tax on an amount and the part of the amount before tax, with all
digits. -/
def parts (amount rate : Decimal) (mode : TaxMode) : Except Failure (Decimal × Decimal) := do
  let checked (result : Option Decimal) : Except Failure Decimal :=
    match result with
    | some d => .ok d
    | none => .error (.error (.calculation (.tax amount rate)))
  let fraction ← Fault.division.check (rate.div .hundred)
  match mode with
  | .exclusive =>
    let tax ← checked (amount.mul fraction)
    return (amount, tax)
  | .inclusive =>
    let divisor ← Fault.addition.check (Decimal.one.add fraction)
    let subtotal ← checked (amount.div divisor)
    let tax ← Fault.subtraction.check (amount.sub subtotal)
    return (subtotal, tax)

/-- **The tax on an amount** at a rate in percent. Neither may be below zero. -/
def compute (amount rate : Decimal) (mode : TaxMode) : Except Failure TaxBreakdown := do
  if rate.isNegative then throw (.error (.invalid (.negativeRate rate)))
  if amount.isNegative then throw (.error (.invalid (.negativeAmount amount)))
  let (subtotal, tax) ← parts amount rate mode
  let taxAmount := tax.roundMoney
  let total ← match mode with
    | .exclusive => Fault.addition.check (subtotal.roundMoney.add taxAmount)
    | .inclusive => pure amount.roundMoney
  let rest ← Fault.subtraction.check (total.sub taxAmount)
  return ⟨rest, taxAmount, total⟩

/-- The parts as a JSON value. -/
def toJson (b : TaxBreakdown) : Json :=
  .object [("subtotal", Json.ofDecimal b.subtotal), ("tax_amount", Json.ofDecimal b.taxAmount),
    ("total", Json.ofDecimal b.total)]

end TaxBreakdown

end Tariff
