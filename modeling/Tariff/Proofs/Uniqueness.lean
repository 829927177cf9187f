import Tariff.Proofs.Run
import Tariff.Proofs.Table

/-!
# One row for each name

People do not name rows by identifier. A setting is written under its key and
exact scope, and a category is asked for by its name. The store looks through its
rows for the first that fits, and nothing in a table forbids that there be
several.

There are not: of the active settings at most one has a given key and scope, and
at most one category a given name. Inactive settings are not looked at and there
may be many of them, so the argument is about what a call does to the active ones.
A setting that is written takes the place of the active one under its key and
scope, if there is one; so it is not a second one, whether it is active itself or
not. That every row sits under its own identifier makes sure that it is this row
whose place is taken.

`WellFormed` is the invariant and `Step.wellFormed` its step. What follows is that
the look-ups do not depend on the order of the rows.
-/

namespace Tariff

namespace Store

/-- **What holds of the stores that calls build.** The first three fields say that a row is found
under its identifier. The other two are what people rely on who do not know identifiers. -/
structure WellFormed (s : Store) : Prop where
  settings_keyed : s.settings.Keyed Setting.id
  categories_keyed : s.categories.Keyed Category.id
  rules_keyed : s.rules.Keyed Rule.id
  /-- Active settings with the same key and scope are the same. -/
  active_unique : ∀ a ∈ s.settings.values, ∀ b ∈ s.settings.values, a.active = true →
    b.active = true → a.key = b.key → a.scope = b.scope → a = b
  /-- Categories with the same name are the same. -/
  name_unique : ∀ a ∈ s.categories.values, ∀ b ∈ s.categories.values, a.name = b.name → a = b

/-- **The same rows in another order.** It is how statements say that something does not depend on
the order in which a table happens to be enumerated. -/
structure Reordering (s s' : Store) : Prop where
  settings : s.settings.rows.Perm s'.settings.rows
  categories : s.categories.rows.Perm s'.categories.rows
  rules : s.rules.rows.Perm s'.rules.rows

/-- Whether a store is well-formed does not depend on the order of its rows. -/
theorem Reordering.wellFormed {s s' : Store} (h : s.Reordering s') (hs : s.WellFormed) :
    s'.WellFormed where
  settings_keyed := fun id a ha =>
    hs.settings_keyed id a (by rwa [Table.find?_eq_of_rows_perm h.settings] at ha)
  categories_keyed := fun id c hc =>
    hs.categories_keyed id c (by rwa [Table.find?_eq_of_rows_perm h.categories] at hc)
  rules_keyed := fun id r hr =>
    hs.rules_keyed id r (by rwa [Table.find?_eq_of_rows_perm h.rules] at hr)
  active_unique := fun a ha b hb =>
    hs.active_unique a ((h.settings.map _).mem_iff.2 ha) b ((h.settings.map _).mem_iff.2 hb)
  name_unique := fun a ha b hb =>
    hs.name_unique a ((h.categories.map _).mem_iff.2 ha) b ((h.categories.map _).mem_iff.2 hb)

/-- In an empty store there are no two rows to compare. -/
theorem wellFormed_empty : WellFormed {} where
  settings_keyed := .empty
  categories_keyed := .empty
  rules_keyed := .empty
  active_unique := by simp [Table.values, Table.empty]
  name_unique := by simp [Table.values, Table.empty]

/-- Where no active setting is found under a key and scope, there is none. -/
theorem not_active_of_exactSetting?_eq_none {s : Store} {key : String} {scope : Scope}
    (h : s.exactSetting? key scope = none) {a : Setting} (ha : a ∈ s.settings.values)
    (hactive : a.active = true) (hkey : a.key = key) : a.scope ≠ scope := by
  intro hscope
  have hnone := List.find?_eq_none.1 h a ha
  simp [hactive, hkey, hscope] at hnone

/-- Where no category is found by a name, there is none. -/
theorem ne_of_categoryNamed?_eq_none {s : Store} {name : String}
    (h : s.categoryNamed? name = none) {c : Category} (hc : c ∈ s.categories.values) :
    c.name ≠ name := by
  simpa using List.find?_eq_none.1 h c hc

namespace WellFormed

variable {s : Store}

/-- **A setting may be put where it takes the place of the only active one that has its key and
scope.** If the new one is active, it is then the only one; if it is not, there is none left. -/
theorem putSetting (hs : s.WellFormed) (new : Setting)
    (hnew : ∀ a ∈ s.settings.values, a.active = true → a.key = new.key → a.scope = new.scope →
      a.id = new.id) :
    WellFormed { s with settings := s.settings.insert new.id new } where
  settings_keyed := hs.settings_keyed.insert new
  categories_keyed := hs.categories_keyed
  rules_keyed := hs.rules_keyed
  active_unique := by
    intro a ha b hb hactive hactive' hkey hscope
    -- If one of the two is the new setting, the other one has lost its place to it.
    rcases (hs.settings_keyed.mem_values_insert _ _).1 ha with rfl | ⟨hold, hid⟩
    · rcases (hs.settings_keyed.mem_values_insert _ _).1 hb with rfl | ⟨hold', hid'⟩
      · rfl
      · exact absurd (hnew b hold' hactive' hkey.symm hscope.symm) hid'
    · rcases (hs.settings_keyed.mem_values_insert _ _).1 hb with rfl | ⟨hold', -⟩
      · exact absurd (hnew a hold hactive hkey hscope) hid
      · exact hs.active_unique a hold b hold' hactive hactive' hkey hscope
  name_unique := hs.name_unique

/-- A setting may always be taken out, since what is left was unique before. -/
theorem removeSetting (hs : s.WellFormed) (id : Uuid) :
    WellFormed { s with settings := s.settings.erase id } where
  settings_keyed := hs.settings_keyed.erase id
  categories_keyed := hs.categories_keyed
  rules_keyed := hs.rules_keyed
  active_unique := by
    intro a ha b hb
    have ha := ((hs.settings_keyed.mem_values_erase id a).1 ha).1
    have hb := ((hs.settings_keyed.mem_values_erase id b).1 hb).1
    exact hs.active_unique a ha b hb
  name_unique := hs.name_unique

/-- A category may be put where none has its name. -/
theorem putCategory (hs : s.WellFormed) (new : Category)
    (hnew : ∀ c ∈ s.categories.values, c.name ≠ new.name) :
    WellFormed { s with categories := s.categories.insert new.id new } where
  settings_keyed := hs.settings_keyed
  categories_keyed := hs.categories_keyed.insert new
  rules_keyed := hs.rules_keyed
  active_unique := hs.active_unique
  name_unique := by
    intro a ha b hb hname
    rcases (hs.categories_keyed.mem_values_insert _ _).1 ha with rfl | ⟨hold, -⟩
    · rcases (hs.categories_keyed.mem_values_insert _ _).1 hb with rfl | ⟨hold', -⟩
      · rfl
      · exact absurd hname.symm (hnew b hold')
    · rcases (hs.categories_keyed.mem_values_insert _ _).1 hb with rfl | ⟨hold', -⟩
      · exact absurd hname (hnew a hold)
      · exact hs.name_unique a hold b hold' hname

/-- Of rules nothing is asked but that they sit under their identifiers. -/
theorem putRule (hs : s.WellFormed) (new : Rule) :
    WellFormed { s with rules := s.rules.insert new.id new } :=
  { hs with rules_keyed := hs.rules_keyed.insert new }

theorem removeRule (hs : s.WellFormed) (id : Uuid) :
    WellFormed { s with rules := s.rules.erase id } :=
  { hs with rules_keyed := hs.rules_keyed.erase id }

end WellFormed

end Store

namespace Engine

/-- **A setting that is written takes the place of the active one under its key and
scope.** -/
theorem id_written_of_active {s : Store} (hs : s.WellFormed) {options : SettingOptions}
    {key : String} {value : Value} {o : Occasion} {a : Setting} (ha : a ∈ s.settings.values)
    (hactive : a.active = true) (hkey : a.key = key) (hscope : a.scope = options.scope) :
    a.id = (options.written key value (s.exactSetting? key options.scope) o).id := by
  cases hold : s.exactSetting? key options.scope with
  | none => exact absurd hscope (Store.not_active_of_exactSetting?_eq_none hold ha hactive hkey)
  | some old =>
    obtain ⟨hmem, hactive', hkey', hscope'⟩ := Store.exactSetting?_eq_some hold
    show a.id = old.id
    rw [hs.active_unique a ha old hmem hactive hactive' (hkey.trans hkey'.symm)
      (hscope.trans hscope'.symm)]

/-- **Every step keeps the store well-formed.** One case for each kind of step, and each comes down
to one row that is put or taken out. A category is created only where there is none of its name. -/
theorem Step.wellFormed {e e' : Engine} {ids : List Uuid} {ts : List Instant}
    (h : Step e ids ts e') (he : e.store.WellFormed) : e'.store.WellFormed := by
  cases h with
  | @setSetting key value options o new e' h =>
    obtain ⟨-, rfl, rfl⟩ := setSetting_eq_ok_iff.1 h
    refine he.putSetting _ (fun a ha hactive hkey hscope => ?_)
    rw [SettingOptions.written_key] at hkey
    rw [SettingOptions.written_scope] at hscope
    exact id_written_of_active he ha hactive hkey hscope
  | deleteSetting h =>
    obtain ⟨old, -, -, -, rfl⟩ := deleteSetting_eq_ok_iff.1 h
    exact he.removeSetting _
  | createCategory h =>
    obtain ⟨-, hnone, rfl, rfl⟩ := createCategory_eq_ok_iff.1 h
    exact he.putCategory _ (fun c hc => Store.ne_of_categoryNamed?_eq_none hnone hc)
  | createRule h =>
    obtain ⟨-, -, -, -, rfl⟩ := createRule_eq_ok_iff.1 h
    exact he.putRule _
  | updateRule h =>
    obtain ⟨-, old, -, -, -, -, rfl⟩ := updateRule_eq_ok_iff.1 h
    exact he.putRule _
  | deleteRule h =>
    obtain ⟨old, -, -, -, rfl⟩ := deleteRule_eq_ok_iff.1 h
    exact he.removeRule _
  | clearCache => exact he
  | lookUp key r t => exact he

/-- The stores of all runs of new engines are well-formed. -/
theorem wellFormed_run {config : EngineConfig} {e : Engine} (h : Engine.create config = .ok e)
    (calls : List Call) : (e.run calls).store.WellFormed := by
  obtain ⟨-, rfl⟩ := create_eq_ok_iff.1 h
  exact run_keeps (P := fun e => e.store.WellFormed) Step.wellFormed calls Store.wellFormed_empty

end Engine

/-! ## Look-ups

That there is one row at most is now used. Whoever looks for it finds it, in any order of the
rows. -/

namespace Store.WellFormed

variable {s : Store}

/-- At most one setting is active under a key and exact scope. -/
theorem countP_active_le_one (hs : s.WellFormed) (key : String) (scope : Scope) :
    s.settings.values.countP (fun a => a.active && a.key = key && a.scope = scope) ≤ 1 := by
  refine countP_le_one_of_unique hs.settings_keyed.nodup_values (fun a ha b hb hpa hpb => ?_)
  simp only [Bool.and_eq_true, decide_eq_true_eq] at hpa hpb
  exact hs.active_unique a ha b hb hpa.1.1 hpb.1.1 (hpa.1.2.trans hpb.1.2.symm)
    (hpa.2.trans hpb.2.symm)

theorem countP_named_le_one (hs : s.WellFormed) (name : String) :
    s.categories.values.countP (fun c => c.name = name) ≤ 1 := by
  refine countP_le_one_of_unique hs.categories_keyed.nodup_values (fun a ha b hb hpa hpb => ?_)
  simp only [decide_eq_true_eq] at hpa hpb
  exact hs.name_unique a ha b hb (hpa.trans hpb.symm)

/-- **The active setting in a place is found** in whatever order the settings stand. -/
theorem exactSetting?_eq_of_perm (hs : s.WellFormed) {s' : Store}
    (h : s.settings.rows.Perm s'.settings.rows) (key : String) (scope : Scope) :
    s'.exactSetting? key scope = s.exactSetting? key scope :=
  find?_eq_of_perm (h.map Prod.snd) (hs.countP_active_le_one key scope)

end Store.WellFormed

/-- **Rows are found by name whatever order they are looked through in.** After any run of a new
engine at most one active setting has a given key and exact scope, at most one category has a given
name, and every row sits under its own identifier. So a store with the same rows in another order
finds the same.

Of rules nothing of the kind is true: several may have one name, and which of them is found first
depends on the order. -/
theorem lookups_run_eq_of_reordering {config : EngineConfig} {e : Engine}
    (h : Engine.create config = .ok e) (calls : List Call) :
    (∀ key scope, (e.run calls).store.settings.values.countP
        (fun a => a.active && a.key = key && a.scope = scope) ≤ 1)
      ∧ (∀ name, (e.run calls).store.categories.values.countP (fun c => c.name = name) ≤ 1)
      ∧ (e.run calls).store.settings.Keyed Setting.id
      ∧ (e.run calls).store.categories.Keyed Category.id
      ∧ (e.run calls).store.rules.Keyed Rule.id
      ∧ ∀ s, (e.run calls).store.Reordering s →
        (∀ key scope, s.exactSetting? key scope = (e.run calls).store.exactSetting? key scope)
        ∧ (∀ id, s.category? id = (e.run calls).store.category? id)
        ∧ ∀ name, s.categoryNamed? name = (e.run calls).store.categoryNamed? name := by
  have hs := Engine.wellFormed_run h calls
  refine ⟨hs.countP_active_le_one, hs.countP_named_le_one, hs.settings_keyed,
    hs.categories_keyed, hs.rules_keyed, fun s hperm => ⟨?_, ?_, ?_⟩⟩
  · exact hs.exactSetting?_eq_of_perm hperm.settings
  · intro id
    exact Table.find?_eq_of_rows_perm hperm.categories id
  · intro name
    exact find?_eq_of_perm (hperm.categories.map _) (hs.countP_named_le_one name)

/-- A setting that is created inactive does not take the place of the next one under its key
and scope. There are two rows then, and the order in which they come does not matter. -/
theorem lookups_run_eq_of_reordering_two_rows :
    Engine.create {} = .ok Engine.initial
      ∧ ∃ e, e = Engine.initial.run
          [.setSetting "a" (.boolean true) { active := some false, author := ⟨"ann", none⟩ }
            (.number 1),
          .setSetting "a" (.boolean false) { author := ⟨"ann", none⟩ } (.number 2)]
        ∧ e.store.settings.values.length = 2
        ∧ ∀ s, e.store.Reordering s →
          (s.exactSetting? "a" {}).map (·.value) = some (.boolean false) := by
  obtain ⟨-, -, -, -, -, hlookups⟩ := lookups_run_eq_of_reordering Engine.create_initial
    [.setSetting "a" (.boolean true) { active := some false, author := ⟨"ann", none⟩ } (.number 1),
      .setSetting "a" (.boolean false) { author := ⟨"ann", none⟩ } (.number 2)]
  refine ⟨rfl, _, rfl, rfl, fun s hs => ?_⟩
  rw [(hlookups s hs).1 "a" {}]
  rfl

end Tariff
