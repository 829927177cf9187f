import Tariff.Setting.Basic

/-!
# The most specific setting

Of several settings that cover a request, the most specific one applies. Each
dimension has a **weight**, and a setting scores the weights of the dimensions
that it constrains. The weights are valid when each exceeds the sum of those
below it; then no combination of lower dimensions outranks a higher one.

Among equal scores the higher priority decides, then the older setting, then the
smaller identifier. `rank` lists all candidates in that order and `best?` picks
the first.
-/

namespace Tariff

/-- **How much each dimension counts.** -/
structure Weights where
  operationType : UInt32 := 8
  customerTier : UInt32 := 4
  cylinderType : UInt32 := 2
  outletId : UInt32 := 1
deriving DecidableEq

namespace Weights

/-- **Whether each weight exceeds the sum of those below it.** A sum beyond 32
bits is exceeded by none. -/
def isValid (w : Weights) : Bool :=
  let outlet := w.outletId.toNat
  let cylinder := w.cylinderType.toNat
  let tier := w.customerTier.toNat
  let operation := w.operationType.toNat
  0 < outlet && outlet < cylinder && cylinder + outlet < tier
    && tier + cylinder + outlet < operation

/-- Refuses weights that are not valid. -/
def validate (w : Weights) : Except Problem Unit :=
  if w.isValid then .ok ()
  else .error (.weights w.operationType w.customerTier w.cylinderType w.outletId)

/-- The weight of a dimension, if it is constrained. -/
def weigh (weight : UInt32) (isConstrained : Bool) : Nat := if isConstrained then weight.toNat else 0

/-- The weights of the dimensions that a scope constrains, added up. -/
def total (w : Weights) (s : Scope) : Nat :=
  weigh w.operationType s.operationType.isSome + weigh w.customerTier s.customerTier.isSome
    + weigh w.cylinderType s.cylinderType.isSome + weigh w.outletId s.outletId.isSome

/-- **The score of a scope** for a request, if it covers it. -/
def score? (w : Weights) (s : Scope) (r : Request) : Option Nat :=
  if s.covers r then some (w.total s) else none

/-- The weights as a JSON value. -/
def toJson (w : Weights) : Json :=
  .object [("customer_tier", Json.ofNat w.customerTier.toNat),
    ("cylinder_type", Json.ofNat w.cylinderType.toNat),
    ("operation_type", Json.ofNat w.operationType.toNat),
    ("outlet_id", Json.ofNat w.outletId.toNat)]

/-- Reads weights, all four of them. -/
def ofDocument? {τ : Type} [Document τ] (d : τ) : Option Weights := do
  let fields ← Document.fields? ["operation_type", "customer_tier", "cylinder_type", "outlet_id"]
    [] d
  let operationType ← Document.required fields "operation_type" Document.uint32?
  let customerTier ← Document.required fields "customer_tier" Document.uint32?
  let cylinderType ← Document.required fields "cylinder_type" Document.uint32?
  let outletId ← Document.required fields "outlet_id" Document.uint32?
  some ⟨operationType, customerTier, cylinderType, outletId⟩

end Weights

/-- **A setting in the running**, with all that its rank depends on. -/
structure Candidate where
  settingId : Uuid
  score : Nat
  priority : Int32
  createdAt : Instant
deriving DecidableEq

namespace Candidate

/-- **The order of candidates**, the best first. -/
def order (a b : Candidate) : Ordering :=
  (compare b.score a.score).then
    ((compare b.priority.toInt a.priority.toInt).then
      ((compare a.createdAt b.createdAt).then (compare a.settingId b.settingId)))

/-- A setting as a candidate for a request, if it covers it. -/
def of? (w : Weights) (r : Request) (s : Setting) : Option Candidate :=
  (w.score? s.scope r).map fun score => ⟨s.id, score, s.priority, s.createdAt⟩

/-- **The settings that cover a request, the best first.** -/
def rank (w : Weights) (r : Request) (settings : List Setting) : List Candidate :=
  (settings.filterMap (of? w r)).mergeSort fun a b => (order a b).isLE

/-- **The setting that applies to a request**, if any covers it. -/
def best? (w : Weights) (r : Request) (settings : List Setting) : Option Setting :=
  match rank w r settings with
  | [] => none
  | best :: _ => settings.find? fun s => s.id = best.settingId

/-- The candidate as a JSON value. -/
def toJson (c : Candidate) : Json :=
  .object [("created_at", Json.ofInstant c.createdAt), ("priority", Json.ofInt c.priority.toInt),
    ("score", Json.ofNat c.score), ("setting_id", Json.ofUuid c.settingId)]

end Candidate

end Tariff
