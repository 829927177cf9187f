import Tariff.Audit
import Tariff.Store.Table
import Tariff.Text.Sorted

/-!
# The store

The store holds the settings, the categories and the rules. Some of its queries
answer in an order that leaves no tie: the settings that apply at an instant by
age and identifier, the rules in force as they are applied. How the rows stand in
their tables makes no difference to them.

The lists of everything that is stored are sorted by what a reader looks for:
settings by key and age, categories by name, rules by priority and name. Here two
rows may be tied, and tied rows come in the order in which they stand in their
table. This order is not a promise. It is that of one enumeration of the table, and
another enumeration may give another one; so what is said of these lists, and of
what is made of them, has to be said for every order of the rows.
-/

namespace Tariff

/-- **What is stored.** -/
structure Store where
  settings : Table Setting := .empty
  categories : Table Category := .empty
  rules : Table Rule := .empty

namespace Store

/-- The store without rows. -/
def empty : Store := {}

instance : Inhabited Store := ⟨empty⟩

/-! ## Settings -/

/-- Settings by age, and those of one age by identifier. -/
def ageOrder (a b : Setting) : Ordering :=
  (compare a.createdAt b.createdAt).then (compare a.id b.id)

/-- Settings by key, then by age. Settings of one key and one age are tied. -/
def keyOrder (a b : Setting) : Ordering :=
  (compare a.key b.key).then (compare a.createdAt b.createdAt)

/-- **The settings under some keys that apply at an instant**, the oldest
first. -/
def effectiveSettings (s : Store) (keys : List String) (t : Instant) : List Setting :=
  (s.settings.values.filter fun setting =>
    keys.contains setting.key && setting.isEffectiveAt t).mergeSort
      fun a b => (ageOrder a b).isLE

/-- Every setting, by key and then by age, and where they are tied as they stand. -/
def allSettings (s : Store) : List Setting :=
  s.settings.values.mergeSort fun a b => (keyOrder a b).isLE

/-- The setting with an identifier. -/
def setting? (s : Store) (id : Uuid) : Option Setting := s.settings.find? id

/-- **The active setting with exactly this key and scope.** -/
def exactSetting? (s : Store) (key : String) (scope : Scope) : Option Setting :=
  s.settings.values.find? fun setting =>
    setting.active && setting.key = key && setting.scope = scope

/-! ## Categories -/

/-- The category with an identifier. -/
def category? (s : Store) (id : Uuid) : Option Category := s.categories.find? id

/-- The category with a name. -/
def categoryNamed? (s : Store) (name : String) : Option Category :=
  s.categories.values.find? fun c => c.name = name

/-- Every category, by name. -/
def allCategories (s : Store) : List Category :=
  s.categories.values.mergeSort fun a b => (compare a.name b.name).isLE

/-- The keys of the settings filed under a category, each once, sorted. -/
def keysInCategory (s : Store) (id : Uuid) : List String :=
  Text.sortDistinct
    ((s.settings.values.filter fun setting => setting.categoryId = some id).map (·.key))

/-! ## Rules -/

/-- The rule with an identifier. -/
def rule? (s : Store) (id : Uuid) : Option Rule := s.rules.find? id

/-- **The rules in force at an instant**, in the order in which they are
applied. -/
def liveRules (s : Store) (t : Instant) : List Rule :=
  Rule.inOrder (s.rules.values.filter fun rule => rule.isLiveAt t)

/-- Rules in force are stored. -/
theorem mem_values_of_mem_liveRules {s : Store} {t : Instant} {rule : Rule}
    (h : rule ∈ s.liveRules t) : rule ∈ s.rules.values :=
  (List.mem_filter.1 ((Rule.inOrder_perm _).mem_iff.1 h)).1

/-- Every rule, in the order in which rules are applied. -/
def rulesInOrder (s : Store) : List Rule := Rule.inOrder s.rules.values

/-- Rules by priority, the highest first, then by name. Rules of one name and one
priority are tied. -/
def nameOrder (a b : Rule) : Ordering :=
  (compare b.priority.toInt a.priority.toInt).then (compare a.name b.name)

/-- **Every rule**, by priority and then by name, and where they are tied as they
stand. -/
def allRules (s : Store) : List Rule :=
  s.rules.values.mergeSort fun a b => (nameOrder a b).isLE

end Store

end Tariff
