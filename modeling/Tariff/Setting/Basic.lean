import Tariff.Scope

/-!
# Settings

A **setting** is one value under a key, restricted to a scope and to a window of
time. Several settings may share a key; which of them applies to a request is
the subject of `Resolution`. Every change of a setting raises its version and
names the actor.

The window of a setting is `effective ≤ t < expiry`, without upper end if there
is no expiry. At any instant an active setting is exactly one of effective,
scheduled or expired, unless its expiry lies before its beginning.
-/

namespace Tariff

/-- **A stored setting.** -/
structure Setting where
  id : Uuid
  key : String
  value : Value
  dataType : DataType
  categoryId : Option Uuid
  description : Option String
  scope : Scope
  /-- The higher one wins among equally specific settings. -/
  priority : Int32
  /-- From when on the setting applies. -/
  effectiveDate : Instant
  /-- From when on it no longer does. -/
  expiryDate : Option Instant
  /-- An inactive setting never applies. -/
  active : Bool
  /-- Starts at 1 and is raised by every change. -/
  version : UInt32
  createdBy : String
  updatedBy : String
  createdAt : Instant
  updatedAt : Instant

namespace Setting

/-- Whether the setting applies at an instant. -/
def isEffectiveAt (s : Setting) (t : Instant) : Bool :=
  s.active && s.effectiveDate ≤ t && s.expiryDate.all fun expiry => t < expiry

/-- Whether the setting is active but its window has not begun. -/
def isScheduledAt (s : Setting) (t : Instant) : Bool := s.active && t < s.effectiveDate

/-- Whether the window of the setting has ended. -/
def isExpiredAt (s : Setting) (t : Instant) : Bool := s.expiryDate.any fun expiry => expiry ≤ t

/-- **The setting as a JSON value**, its snapshot in the audit log. -/
def toJson (s : Setting) : Json :=
  .object [("active", .bool s.active), ("category_id", Json.ofOption Json.ofUuid s.categoryId),
    ("created_at", Json.ofInstant s.createdAt), ("created_by", .string s.createdBy),
    ("data_type", .string s.dataType.name), ("description", Json.ofText? s.description),
    ("effective_date", Json.ofInstant s.effectiveDate),
    ("expiry_date", Json.ofOption Json.ofInstant s.expiryDate), ("id", Json.ofUuid s.id),
    ("key", .string s.key), ("priority", Json.ofInt s.priority.toInt), ("scope", s.scope.toJson),
    ("updated_at", Json.ofInstant s.updatedAt), ("updated_by", .string s.updatedBy),
    ("value", s.value.toJson), ("version", Json.ofNat s.version.toNat)]

end Setting

/-- **A category**, under which settings are filed. -/
structure Category where
  id : Uuid
  name : String
  description : Option String
deriving DecidableEq

namespace Category

/-- The category as a JSON value. -/
def toJson (c : Category) : Json :=
  .object [("description", Json.ofText? c.description), ("id", Json.ofUuid c.id),
    ("name", .string c.name)]

/-- Reads a category. -/
def ofDocument? {τ : Type} [Document τ] (d : τ) : Option Category := do
  let fields ← Document.fields? ["id", "name", "description"] [] d
  let id ← Document.required fields "id" Document.uuid?
  let name ← Document.required fields "name" Document.text?
  let description ← Document.optional fields "description" Document.text?
  some ⟨id, name, description⟩

end Category

end Tariff
