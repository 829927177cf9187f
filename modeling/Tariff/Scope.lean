import Tariff.Error
import Tariff.Text.Lowercase

/-!
# Scopes

A price is asked for in a context: the **request** names the outlet, the
cylinder type, the customer tier and the operation, and may give a quantity and
a cylinder size. A stored setting is restricted by a **scope**, which constrains
some of the first four – the *dimensions* – and leaves the others open.

A scope **covers** a request if every dimension it constrains has that value in the
request. A dimension that the request leaves out satisfies no constraint.
`Request.dimensions` is all of a request that a scope can see.
-/

namespace Tariff

/-- **The kind of operation being priced.** -/
inductive Operation where
  | lease
  | refill
  | swap
  | transfer
  | registration
deriving DecidableEq

namespace Operation

/-- Every operation. -/
def all : List Operation := [.lease, .refill, .swap, .transfer, .registration]

/-- The name in documents, messages and setting keys. -/
def name : Operation → String
  | .lease => "lease"
  | .refill => "refill"
  | .swap => "swap"
  | .transfer => "transfer"
  | .registration => "registration"

/-- The operation with a name. -/
def ofName? (s : String) : Option Operation := all.find? (·.name == s)

/-- Reads an operation as people write it: in any case, with blanks around. -/
def parse (text : String) : Except Error Operation :=
  let s := Text.lowercase (Text.trimBlanks text)
  match ofName? s with
  | some op => .ok op
  | none => .error (.invalid (.unknownOperation s))

/-- Reads an operation of a document. -/
def ofDocument? {τ : Type} [Document τ] (d : τ) : Option Operation :=
  (Document.name? d).bind ofName?

/-- The setting key of the operation's price per unit. -/
def basePriceKey (op : Operation) : String := op.name ++ ".base_price"

/-- The setting key of the operation's fee per kilogram. -/
def feePerKgKey (op : Operation) : String := op.name ++ ".fee_per_kg"

end Operation

/-- **What a setting is restricted to.** An absent dimension is open. -/
structure Scope where
  outletId : Option Int64 := none
  cylinderType : Option String := none
  customerTier : Option String := none
  operationType : Option Operation := none
deriving DecidableEq

/-- **The context of a price.** -/
structure Request where
  outletId : Option Int64 := none
  cylinderType : Option String := none
  customerTier : Option String := none
  operationType : Option Operation := none
  /-- The number of cylinders. -/
  quantity : Option UInt32 := none
  /-- The capacity of a cylinder in kilograms. -/
  cylinderSize : Option Decimal := none
deriving DecidableEq

namespace Request

/-- The request, for an operation. -/
def withOperation (r : Request) (op : Operation) : Request := { r with operationType := some op }

/-- What scopes can see of a request. -/
def dimensions (r : Request) : Scope :=
  ⟨r.outletId, r.cylinderType, r.customerTier, r.operationType⟩

end Request

namespace Scope

/-- The scope that is open in every dimension. -/
def global : Scope := {}

/-- Whether every dimension is open. -/
def isGlobal (s : Scope) : Bool :=
  s.outletId.isNone && s.cylinderType.isNone && s.customerTier.isNone && s.operationType.isNone

/-- Whether a dimension admits what the request has there. -/
def admits {α : Type} [DecidableEq α] (constraint requested : Option α) : Bool :=
  match constraint with
  | none => true
  | some a => requested = some a

@[simp] theorem admits_none {α : Type} [DecidableEq α] (requested : Option α) :
    admits none requested = true := rfl

@[simp] theorem admits_self {α : Type} [DecidableEq α] (requested : Option α) :
    admits requested requested = true := by
  cases requested <;> simp [admits]

/-- **Whether the scope covers a request.** -/
def covers (s : Scope) (r : Request) : Bool :=
  admits s.outletId r.outletId && admits s.cylinderType r.cylinderType
    && admits s.customerTier r.customerTier && admits s.operationType r.operationType

/-- The dimensions that are constrained, by name. -/
def constrained (s : Scope) : List String :=
  (if s.operationType.isSome then ["operation_type"] else [])
    ++ (if s.customerTier.isSome then ["customer_tier"] else [])
    ++ (if s.cylinderType.isSome then ["cylinder_type"] else [])
    ++ (if s.outletId.isSome then ["outlet"] else [])

/-- The level of the scope, as statistics count it. -/
def level (s : Scope) : String :=
  if s.isGlobal then "global" else "+".intercalate s.constrained

end Scope

/-! ## Scopes and requests in documents -/

/-- A text as a JSON value. -/
def Json.ofText? (s : Option String) : Json := Json.ofOption Json.string s

/-- A decimal as a JSON value: its text. -/
def Json.ofDecimal (d : Decimal) : Json := .string d.toText

/-- An instant as a JSON value. -/
def Json.ofInstant (t : Instant) : Json := .string t.toText

/-- An identifier as a JSON value. -/
def Json.ofUuid (id : Uuid) : Json := .string id.toText

/-- A signed integer of 64 bits as a JSON value. -/
def Json.ofInt64 (n : Int64) : Json := Json.ofInt n.toInt

/-- An operation as a JSON value. -/
def Operation.toJson (op : Operation) : Json := .string op.name

namespace Scope

/-- The scope as a JSON value. -/
def toJson (s : Scope) : Json :=
  .object [("customer_tier", Json.ofText? s.customerTier),
    ("cylinder_type", Json.ofText? s.cylinderType),
    ("operation_type", Json.ofOption Operation.toJson s.operationType),
    ("outlet_id", Json.ofOption Json.ofInt64 s.outletId)]

/-- Reads a scope. -/
def ofDocument? {τ : Type} [Document τ] (d : τ) : Option Scope := do
  let fields ← Document.fields? []
    ["outlet_id", "cylinder_type", "customer_tier", "operation_type"] d
  let outletId ← Document.optional fields "outlet_id" Document.int64?
  let cylinderType ← Document.optional fields "cylinder_type" Document.text?
  let customerTier ← Document.optional fields "customer_tier" Document.text?
  let operationType ← Document.optional fields "operation_type" Operation.ofDocument?
  some ⟨outletId, cylinderType, customerTier, operationType⟩

end Scope

namespace Request

/-- The request as a JSON value. -/
def toJson (r : Request) : Json :=
  .object [("customer_tier", Json.ofText? r.customerTier),
    ("cylinder_size", Json.ofOption Json.ofDecimal r.cylinderSize),
    ("cylinder_type", Json.ofText? r.cylinderType),
    ("operation_type", Json.ofOption Operation.toJson r.operationType),
    ("outlet_id", Json.ofOption Json.ofInt64 r.outletId),
    ("quantity", Json.ofOption (fun n => Json.ofNat n.toNat) r.quantity)]

/-- Reads a request. -/
def ofDocument? {τ : Type} [Document τ] (d : τ) : Option Request := do
  let fields ← Document.fields? [] ["outlet_id", "cylinder_type", "customer_tier",
    "operation_type", "quantity", "cylinder_size"] d
  let outletId ← Document.optional fields "outlet_id" Document.int64?
  let cylinderType ← Document.optional fields "cylinder_type" Document.text?
  let customerTier ← Document.optional fields "customer_tier" Document.text?
  let operationType ← Document.optional fields "operation_type" Operation.ofDocument?
  let quantity ← Document.optional fields "quantity" Document.uint32?
  let cylinderSize ← Document.optional fields "cylinder_size" Document.decimal?
  some ⟨outletId, cylinderType, customerTier, operationType, quantity, cylinderSize⟩

end Request

end Tariff
