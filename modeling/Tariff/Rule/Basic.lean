import Tariff.Scope

/-!
# Pricing rules

A **rule** adjusts prices: its conditions say when it applies, its actions what
it does. People write a `Draft`; storing it adds an identifier, a version and
who wrote it when. `Rule.toDraft` takes these away again, so a stored rule can
be written anew.

A rule is live at `t` if it is active and `validFrom ≤ t < validUntil`, where
either end may be open.
-/

namespace Tariff

/-- **The type of a rule**, by which evaluations select. -/
inductive RuleType where
  | volumeDiscount
  | customerDiscount
  | surcharge
  | promotion
  | fixedPrice
deriving DecidableEq

namespace RuleType

/-- Every type. -/
def all : List RuleType := [.volumeDiscount, .customerDiscount, .surcharge, .promotion, .fixedPrice]

/-- The name in documents and messages. -/
def name : RuleType → String
  | .volumeDiscount => "volume_discount"
  | .customerDiscount => "customer_discount"
  | .surcharge => "surcharge"
  | .promotion => "promotion"
  | .fixedPrice => "fixed_price"

/-- The type with a name. -/
def ofName? (s : String) : Option RuleType := all.find? (·.name == s)

/-- Reads a rule type. -/
def ofDocument? {τ : Type} [Document τ] (d : τ) : Option RuleType :=
  (Document.name? d).bind ofName?

end RuleType

/-- **A rule as people write it.** -/
structure Draft where
  name : String
  description : Option String := none
  ruleType : RuleType
  /-- All of them must hold. -/
  conditions : List Condition := []
  /-- Carried out in order. -/
  actions : List Action
  /-- The operations the rule is limited to; if empty, it is not. -/
  operationTypes : List Operation := []
  /-- The outlets the rule is limited to, if it is. -/
  outletIds : Option (List Int64) := none
  /-- Rules of higher priority come first. -/
  priority : Int32 := 0
  active : Bool := true
  validFrom : Option Instant := none
  validUntil : Option Instant := none

/-- **A stored rule.** -/
structure Rule where
  id : Uuid
  name : String
  description : Option String
  ruleType : RuleType
  conditions : List Condition
  actions : List Action
  operationTypes : List Operation
  outletIds : Option (List Int64)
  priority : Int32
  active : Bool
  validFrom : Option Instant
  validUntil : Option Instant
  /-- Starts at 1 and is raised by every revision. -/
  version : UInt32
  createdBy : String
  updatedBy : String
  createdAt : Instant
  updatedAt : Instant

namespace Rule

/-- A new rule. -/
def ofDraft (d : Draft) (id : Uuid) (actor : String) (t : Instant) : Rule where
  id := id
  name := d.name
  description := d.description
  ruleType := d.ruleType
  conditions := d.conditions
  actions := d.actions
  operationTypes := d.operationTypes
  outletIds := d.outletIds
  priority := d.priority
  active := d.active
  validFrom := d.validFrom
  validUntil := d.validUntil
  version := 1
  createdBy := actor
  updatedBy := actor
  createdAt := t
  updatedAt := t

/-- The rule written anew: its identifier, its age and its author stay. -/
def revise (r : Rule) (d : Draft) (actor : String) (t : Instant) : Rule :=
  { ofDraft d r.id r.createdBy r.createdAt with
    version := r.version + 1
    updatedBy := actor
    updatedAt := t }

/-- What people wrote of the rule. -/
def toDraft (r : Rule) : Draft where
  name := r.name
  description := r.description
  ruleType := r.ruleType
  conditions := r.conditions
  actions := r.actions
  operationTypes := r.operationTypes
  outletIds := r.outletIds
  priority := r.priority
  active := r.active
  validFrom := r.validFrom
  validUntil := r.validUntil

/-- Whether the rule is in force at an instant. -/
def isLiveAt (r : Rule) (t : Instant) : Bool :=
  r.active && (r.validFrom.all fun start => start ≤ t) && r.validUntil.all fun stop => t < stop

/-- **The order in which rules are applied**: higher priority first, then the
older one, then the smaller identifier. -/
def order (a b : Rule) : Ordering :=
  (compare b.priority.toInt a.priority.toInt).then
    ((compare a.createdAt b.createdAt).then (compare a.id b.id))

/-- The rules in the order in which they are applied. -/
def inOrder (rules : List Rule) : List Rule := rules.mergeSort fun a b => (order a b).isLE

theorem inOrder_perm (rules : List Rule) : (inOrder rules).Perm rules := List.mergeSort_perm _ _

end Rule

/-! ## Rules in documents -/

namespace Draft

/-- The draft as a JSON value. -/
def toJson (d : Draft) : Json :=
  .object [("actions", Json.ofList Action.toJson d.actions), ("active", .bool d.active),
    ("conditions", Json.ofList Condition.toJson d.conditions),
    ("description", Json.ofText? d.description), ("name", .string d.name),
    ("operation_types", Json.ofList Operation.toJson d.operationTypes),
    ("outlet_ids", Json.ofOption (Json.ofList Json.ofInt64) d.outletIds),
    ("priority", Json.ofInt d.priority.toInt), ("rule_type", .string d.ruleType.name),
    ("valid_from", Json.ofOption Json.ofInstant d.validFrom),
    ("valid_until", Json.ofOption Json.ofInstant d.validUntil)]

/-- Reads a draft. -/
def ofDocument? {τ : Type} [Document τ] (d : τ) : Option Draft := do
  let fields ← Document.fields? ["name", "description", "rule_type", "conditions", "actions"]
    ["operation_types", "outlet_ids", "priority", "active", "valid_from", "valid_until"] d
  let name ← Document.required fields "name" Document.text?
  let description ← Document.optional fields "description" Document.text?
  let ruleType ← Document.required fields "rule_type" RuleType.ofDocument?
  let conditions ← Document.withDefault fields "conditions" []
    (Document.list? Condition.ofDocument?)
  let actions ← Document.required fields "actions" (Document.list? Action.ofDocument?)
  let operationTypes ← Document.withDefault fields "operation_types" []
    (Document.list? Operation.ofDocument?)
  let outletIds ← Document.optional fields "outlet_ids" (Document.list? Document.int64?)
  let priority ← Document.withDefault fields "priority" 0 Document.int32?
  let active ← Document.withDefault fields "active" true Document.bool?
  let validFrom ← Document.optional fields "valid_from" Document.instant?
  let validUntil ← Document.optional fields "valid_until" Document.instant?
  some ⟨name, description, ruleType, conditions, actions, operationTypes, outletIds, priority,
    active, validFrom, validUntil⟩

end Draft

/-- **The rule as a JSON value**, its snapshot in the audit log. -/
def Rule.toJson (r : Rule) : Json :=
  .object [("actions", Json.ofList Action.toJson r.actions), ("active", .bool r.active),
    ("conditions", Json.ofList Condition.toJson r.conditions),
    ("created_at", Json.ofInstant r.createdAt), ("created_by", .string r.createdBy),
    ("description", Json.ofText? r.description), ("id", Json.ofUuid r.id),
    ("name", .string r.name),
    ("operation_types", Json.ofList Operation.toJson r.operationTypes),
    ("outlet_ids", Json.ofOption (Json.ofList Json.ofInt64) r.outletIds),
    ("priority", Json.ofInt r.priority.toInt), ("rule_type", .string r.ruleType.name),
    ("updated_at", Json.ofInstant r.updatedAt), ("updated_by", .string r.updatedBy),
    ("valid_from", Json.ofOption Json.ofInstant r.validFrom),
    ("valid_until", Json.ofOption Json.ofInstant r.validUntil),
    ("version", Json.ofNat r.version.toNat)]

end Tariff
