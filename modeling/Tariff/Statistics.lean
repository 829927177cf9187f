import Tariff.Audit
import Tariff.Text.Sorted

/-!
# Statistics

How many settings there are, of which kinds and in which state, for those that a
filter accepts; and how many rules and audit records there are in all. An active
setting whose window does not end before it begins is counted as exactly one of
effective, scheduled and expired.
-/

namespace Tariff

namespace Statistics

/-- **Which settings are counted.** Without constraints all of them are. -/
structure Filter where
  categoryId : Option Uuid := none
  /-- What the key begins with. -/
  keyPrefix : Option String := none
  /-- The outlet that the scope names; settings open to every outlet do not
  count. -/
  outletId : Option Int64 := none

/-- Whether a setting is counted. -/
def Filter.accepts (f : Filter) (s : Setting) : Bool :=
  (f.categoryId.all fun id => s.categoryId = some id)
    && (f.keyPrefix.all fun text => text.toList.isPrefixOf s.key.toList)
    && f.outletId.all fun outlet => s.scope.outletId = some outlet

/-- Reads a filter. -/
def Filter.ofDocument? {τ : Type} [Document τ] (d : τ) : Option Filter := do
  let fields ← Document.fields? [] ["category_id", "key_prefix", "outlet_id"] d
  let categoryId ← Document.optional fields "category_id" Document.uuid?
  let keyPrefix ← Document.optional fields "key_prefix" Document.text?
  let outletId ← Document.optional fields "outlet_id" Document.int64?
  some ⟨categoryId, keyPrefix, outletId⟩

/-- How often each text occurs, in order. -/
def countEach (texts : List String) : List (String × Nat) :=
  (Text.sortDistinct texts).map fun text => (text, texts.count text)

/-- The name of the category that a setting is filed under; a setting without one, or
with one that is not known, is uncategorised. -/
def categoryName (categories : List Category) (s : Setting) : String :=
  let category := s.categoryId.bind fun id => categories.find? fun c => c.id = id
  (category.map (·.name)).getD "uncategorised"

end Statistics

/-- **Counts of what is stored.** -/
structure Statistics where
  settings : Nat
  active : Nat
  effective : Nat
  scheduled : Nat
  expired : Nat
  distinctKeys : Nat
  byScopeLevel : List (String × Nat)
  byCategory : List (String × Nat)
  rules : Nat
  liveRules : Nat
  auditRecords : Nat

namespace Statistics

/-- **The statistics at an instant.** -/
def compute (settings : List Setting) (rules : List Rule) (categories : List Category)
    (auditRecords : Nat) (filter : Filter) (t : Instant) : Statistics :=
  let accepted := settings.filter filter.accepts
  { settings := accepted.length
    active := accepted.countP (·.active)
    effective := accepted.countP (·.isEffectiveAt t)
    scheduled := accepted.countP (·.isScheduledAt t)
    expired := accepted.countP (·.isExpiredAt t)
    distinctKeys := (accepted.map (·.key)).eraseDups.length
    byScopeLevel := countEach (accepted.map (·.scope.level))
    byCategory := countEach (accepted.map (categoryName categories))
    rules := rules.length
    liveRules := rules.countP (·.isLiveAt t)
    auditRecords := auditRecords }

/-- Counts by name as a JSON value. -/
def countsToJson (counts : List (String × Nat)) : Json :=
  .ofMembers (counts.map fun (name, n) => (name, Json.ofNat n))

/-- The statistics as a JSON value. -/
def toJson (s : Statistics) : Json :=
  .object [("active_settings", Json.ofNat s.active), ("audit_records", Json.ofNat s.auditRecords),
    ("by_category", countsToJson s.byCategory),
    ("by_scope_level", countsToJson s.byScopeLevel),
    ("distinct_keys", Json.ofNat s.distinctKeys),
    ("effective_settings", Json.ofNat s.effective), ("expired_settings", Json.ofNat s.expired),
    ("live_rules", Json.ofNat s.liveRules), ("scheduled_settings", Json.ofNat s.scheduled),
    ("total_rules", Json.ofNat s.rules), ("total_settings", Json.ofNat s.settings)]

end Statistics

end Tariff
