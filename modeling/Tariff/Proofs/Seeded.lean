import Mathlib.Data.List.Dedup
import Tariff.Proofs.SeededRules
import Tariff.Proofs.SeededSettings

/-!
# An empty engine seeded

A file of settings and rules is seeded on an engine that holds nothing. What is stored afterwards
can be read off the file: one category for each name, one setting for each key and exact scope,
and one rule for each draft. Where a name, or a key and scope, comes several times in the file,
the first of them creates and the others find what it has created. Rules are not looked for
among those that the same seed has created, so that two drafts of one name are two rules.

Seeded once more with the same file, the engine finds everything in its place. No category,
setting or rule is created. The settings are what they were, except for their versions and
the records of their last writing. Of the rules this cannot be said where several have one name.
-/

namespace Tariff

namespace Engine

variable {e e' : Engine} {o : Occasion} {occasion : Nat → Occasion} {n k : Nat}

/-! ## Categories

A category is found by its name and is never changed by a seed. So the entries of one name come to
one category. -/

/-- **A category is created** if there is none of its name, and its name is not blank. If there is
one, the entry is left out, and its description is not looked at. -/
theorem seedCategory_eq_ok_iff {x : Seed.CategoryEntry} {result : Option Engine} :
    seedCategory x e o = .ok result
      ↔ (e.store.categoryNamed? x.name).isSome = true ∧ result = none
        ∨ e.store.categoryNamed? x.name = none ∧ Text.isBlank x.name = false
          ∧ result = some (e.withCategory ⟨o.rowId, x.name, x.description⟩) := by
  unfold seedCategory
  cases hnamed : e.store.categoryNamed? x.name with
  | some c =>
    constructor
    · intro h
      cases h
      exact .inl ⟨rfl, rfl⟩
    · rintro (⟨-, rfl⟩ | ⟨hnone, -⟩)
      · rfl
      · cases hnone
  | none =>
    simp only [Option.isSome_none, Bool.false_eq_true, if_false, false_and, false_or, true_and,
      bind_eq_ok_iff]
    constructor
    · rintro ⟨⟨c, e₁⟩, hcreate, hresult⟩
      obtain ⟨hblank, -, rfl, rfl⟩ := createCategory_eq_ok_iff.1 hcreate
      cases hresult
      exact ⟨hblank, rfl⟩
    · rintro ⟨hblank, rfl⟩
      exact ⟨_, createCategory_eq_ok_iff.2 ⟨hblank, hnamed, rfl, rfl⟩, rfl⟩

/-- A category that is written takes a step. -/
theorem step_of_seedCategory (x : Seed.CategoryEntry) (e : Engine) (o : Occasion) (e' : Engine)
    (h : seedCategory x e o = .ok (some e')) :
    ∃ ids, Step e ids [] e' ∧ ids.Sublist [o.rowId] := by
  obtain ⟨c, hc⟩ := createCategory_of_seedCategory h
  exact ⟨_, .createCategory hc, List.Sublist.refl _⟩

/-- The categories of a seed touch neither settings nor rules. -/
theorem Wrote.eq_of_seedCategory {entries : List Seed.CategoryEntry}
    (h : Wrote occasion seedCategory e n entries k e') :
    e'.store.settings = e.store.settings ∧ e'.store.rules = e.store.rules := by
  induction h with
  | nil => exact ⟨rfl, rfl⟩
  | skip before h ih => exact ih
  | write before h ih =>
    obtain ⟨-, heq⟩ | ⟨-, -, heq⟩ := seedCategory_eq_ok_iff.1 h
    · cases heq
    · cases heq
      exact ih

/-- Whether there is a category of a name. -/
theorem isSome_categoryNamed?_iff {s : Store} {name : String} :
    (s.categoryNamed? name).isSome = true ↔ name ∈ s.categories.values.map Category.name := by
  unfold Store.categoryNamed?
  rw [List.find?_isSome, List.mem_map]
  simp

/-- **What the categories of a seed come to** where there were none: as many as were written, with
the names of the entries and identifiers of theirs. Nothing else is touched. Where the identifiers
come from is asked for since a new category must not take the place of another one. -/
structure CategoriesSeeded (e : Engine) (occasion : Nat → Occasion) (n : Nat)
    (entries : List Seed.CategoryEntry) (count : Nat) (e' : Engine) : Prop where
  others : e' = { e with store := { e.store with categories := e'.store.categories } }
  names : ∀ name, name ∈ e'.store.categories.values.map Category.name
    ↔ name ∈ entries.map Seed.CategoryEntry.name
  count : e'.store.categories.values.length = count
  ids : ∀ c ∈ e'.store.categories.values,
    ∃ i, n ≤ i ∧ i < n + entries.length ∧ c.id = (occasion i).rowId

namespace CategoriesSeeded

variable {entries : List Seed.CategoryEntry} {e₁ : Engine}

/-- No entries make no categories. -/
theorem nil (h : e.store.categories = .empty) : e.CategoriesSeeded occasion n [] 0 e where
  others := rfl
  names name := by
    rw [h]
    rfl
  count := by
    rw [h]
    rfl
  ids c hc := by
    rw [h] at hc
    cases hc

/-- **A category of a name that is there is left out.** No name is new then. -/
theorem concat_named (h : e.CategoriesSeeded occasion n entries k e₁) {x : Seed.CategoryEntry}
    (hx : (e₁.store.categoryNamed? x.name).isSome = true) :
    e.CategoriesSeeded occasion n (entries ++ [x]) k e₁ where
  others := h.others
  names name := by
    have hx' := (h.names x.name).1 (isSome_categoryNamed?_iff.1 hx)
    rw [h.names, List.map_append, List.mem_append, List.map_singleton, List.mem_singleton]
    exact (or_iff_left_of_imp fun hname => hname ▸ hx').symm
  count := h.count
  ids c hc := by
    obtain ⟨i, hle, hlt, hid⟩ := h.ids c hc
    exact ⟨i, hle, by rw [List.length_append]; omega, hid⟩

/-- **A category of another name is created**, after the others. Its identifier belongs to its
entry, and those before it have identifiers of other entries. -/
theorem concat_new (h : e.CategoriesSeeded occasion n entries k e₁) (x : Seed.CategoryEntry)
    (he₁ : e₁.store.categories.Keyed Category.id)
    (hdistinct : ∀ i, n ≤ i → i < n + entries.length →
      (occasion i).rowId ≠ (occasion (n + entries.length)).rowId) :
    e.CategoriesSeeded occasion n (entries ++ [x]) (k + 1)
      (e₁.withCategory ⟨(occasion (n + entries.length)).rowId, x.name, x.description⟩) := by
  -- What is stored has identifiers of earlier entries, so this one is not in use.
  have hunused : e₁.store.categories.find? (occasion (n + entries.length)).rowId = none := by
    refine Option.eq_none_iff_forall_ne_some.2 fun c hc => ?_
    obtain ⟨i, hle, hlt, hid⟩ := h.ids c ((Table.mem_values_iff _ c).2 ⟨_, hc⟩)
    exact hdistinct i hle hlt (hid.symm.trans (he₁ _ c hc))
  have hvalues : (e₁.withCategory ⟨(occasion (n + entries.length)).rowId, x.name,
      x.description⟩).store.categories.values = e₁.store.categories.values
        ++ [⟨(occasion (n + entries.length)).rowId, x.name, x.description⟩] :=
    Table.values_insert_of_find?_eq_none _ hunused _
  refine ⟨?_, fun name => ?_, ?_, fun c hc => ?_⟩
  · unfold withCategory
    rw [h.others]
  · rw [hvalues, List.map_append, List.map_append, List.mem_append, List.mem_append, h.names]
    rfl
  · rw [hvalues, List.length_append, h.count]
    rfl
  · rw [hvalues] at hc
    rw [List.length_append, List.length_singleton]
    rcases List.mem_append.1 hc with hc | hc
    · obtain ⟨i, hle, hlt, hid⟩ := h.ids c hc
      exact ⟨i, hle, by omega, hid⟩
    · rw [List.mem_singleton.1 hc]
      exact ⟨n + entries.length, by omega, by omega, rfl⟩

/-- There is one category for each name. No two categories of a store have one name, so it is enough
to know which names there are. -/
theorem map_name_perm (h : e.CategoriesSeeded occasion n entries k e')
    (he' : e'.store.WellFormed) : (e'.store.categories.values.map Category.name).Perm
      (entries.map Seed.CategoryEntry.name).dedup := by
  refine (List.perm_ext_iff_of_nodup ?_ (List.nodup_dedup _)).2 fun name => ?_
  · exact he'.categories_keyed.nodup_values.map_on he'.name_unique
  · rw [h.names, List.mem_dedup]

end CategoriesSeeded

/-- **The loop over the categories**, by induction on the entries that are done. -/
theorem Wrote.categoriesSeeded {entries : List Seed.CategoryEntry}
    (h : Wrote occasion seedCategory e n entries k e') (hempty : e.store.categories = .empty)
    (he : e.store.WellFormed) (hfresh : e.Fresh occasion n (n + entries.length)) :
    e.CategoriesSeeded occasion n entries k e' := by
  induction h with
  | nil => exact .nil hempty
  | @skip done count e₁ x before h ih =>
    have hdone := ih (hfresh.mono (Nat.le_refl _) (by rw [List.length_append]; omega))
    obtain ⟨hnamed, -⟩ | ⟨-, -, heq⟩ := seedCategory_eq_ok_iff.1 h
    · exact hdone.concat_named hnamed
    · cases heq
  | @write done count e₁ e₂ x before h ih =>
    have hdone := ih (hfresh.mono (Nat.le_refl _) (by rw [List.length_append]; omega))
    have hwell := before.wellFormed step_of_seedCategory he
    obtain ⟨-, heq⟩ | ⟨-, -, heq⟩ := seedCategory_eq_ok_iff.1 h
    · cases heq
    · cases heq
      refine hdone.concat_new x hwell.categories_keyed fun i hle hlt => ?_
      exact hfresh.distinct i _ hle hlt (by rw [List.length_append]; simp)

/-- Where all names are there, no category is created. -/
theorem wrote_of_named {entries : List Seed.CategoryEntry}
    (h : ∀ x ∈ entries, (e.store.categoryNamed? x.name).isSome = true) :
    Wrote occasion seedCategory e n entries 0 e := by
  induction entries using List.reverseRecOn with
  | nil => exact .nil
  | append_singleton done x ih =>
    refine (ih fun y hy => h y (List.mem_append_left _ hy)).skip ?_
    exact seedCategory_eq_ok_iff.2
      (.inl ⟨h x (List.mem_append_right _ (List.mem_singleton_self x)), rfl⟩)

end Engine

/-! ## Settings where there were none

Where nothing was stored before, what the entries make of a setting is told without reference to an
earlier one. -/

/-- **A setting as the entries for its key and scope describe it.** Value and priority are those of
the last entry. The description and the category are the last ones that are given, which need not be
in the last entry. The version counts the entries. -/
structure Seed.Describes (named : String → Option Uuid) (entries : List Seed.SettingEntry)
    (s : Setting) : Prop where
  last : ∃ x, entries.getLast? = some x ∧ Value.ofJson x.dataType x.value = .ok s.value
    ∧ s.priority = x.priority
  description : s.description = Seed.lastGiven Seed.SettingEntry.description entries
  category : s.categoryId = (Seed.lastGiven Seed.SettingEntry.category entries).bind named
  named : ∀ name, Seed.lastGiven Seed.SettingEntry.category entries = some name →
    (named name).isSome = true
  version : s.version = UInt32.ofNat entries.length

/-- What entries make where nothing is, they describe. -/
theorem Seed.Turns.describes {named : String → Option Uuid} {entries : List Seed.SettingEntry}
    {s : Setting} (h : Seed.Turns named entries none (some s)) :
    Seed.Describes named entries s where
  last := by
    cases hlast : entries.getLast? with
    | none => exact absurd (h.unwritten (List.getLast?_eq_none_iff.1 hlast)) nofun
    | some x =>
      obtain ⟨_, hs, hvalue, hpriority, -⟩ := h.last x hlast
      cases hs
      exact ⟨x, rfl, hvalue, hpriority⟩
  description := h.description.trans Option.or_none
  category := h.category.trans Option.or_none
  named := h.named
  version := h.version.trans (UInt32.zero_add _)

namespace Engine

/-- **Settings seeded where there were none** are active, one for each key and scope, as its entries
describe it. No two active settings have one key and scope, so there are no more of them than the
places that the file names; and each of these has one, since its entries have written it. -/
theorem SettingsSeeded.of_empty {e e' : Engine} {entries : List Seed.SettingEntry}
    (h : e.SettingsSeeded entries e') (hempty : e.store.settings = .empty)
    (he' : e'.store.WellFormed) :
    (∀ s ∈ e'.store.settings.values, s.active = true)
      ∧ (e'.store.settings.values.map fun s => (s.key, s.scope)).Perm
        (entries.map fun x => (x.key, x.scope)).dedup
      ∧ ∀ s ∈ e'.store.settings.values,
        Seed.Describes e.store.categoryIdNamed? (entries.filter (·.isFor s.key s.scope)) s := by
  have hactive : ∀ s ∈ e'.store.settings.values, s.active = true := by
    intro s hs
    by_contra hinactive
    rw [h.inactive s (Bool.eq_false_iff.2 hinactive), hempty] at hs
    cases hs
  -- All settings are active, and so each is the one that is found in its place, where there was
  -- none.
  have hturns : ∀ s ∈ e'.store.settings.values, Seed.Turns e.store.categoryIdNamed?
      (entries.filter (·.isFor s.key s.scope)) none (some s) := by
    intro s hs
    have hexact : e'.store.exactSetting? s.key s.scope = some s :=
      he'.exactSetting?_eq_some_iff.2
        ⟨(he'.settings_keyed.mem_values_iff s).1 hs, hactive s hs, rfl, rfl⟩
    have hnone : e.store.exactSetting? s.key s.scope = none :=
      Store.exactSetting?_congr (s := .empty) hempty s.key s.scope
    exact hnone ▸ hexact ▸ h.turns s.key s.scope
  refine ⟨hactive, (List.perm_ext_iff_of_nodup ?_ (List.nodup_dedup _)).2 fun place => ?_,
    fun s hs => (hturns s hs).describes⟩
  · -- No two settings have one place.
    refine he'.settings_keyed.nodup_values.map_on fun s hs s' hs' heq => ?_
    exact he'.active_unique s hs s' hs' (hactive s hs) (hactive s' hs') (congrArg Prod.fst heq)
      (congrArg Prod.snd heq)
  · rw [List.mem_dedup, List.mem_map, List.mem_map]
    constructor
    · -- A setting has been written by an entry.
      rintro ⟨s, hs, rfl⟩
      obtain ⟨x, hx, -⟩ := (hturns s hs).describes.last
      obtain ⟨hmem, hfor⟩ := List.mem_filter.1 (List.mem_of_getLast? hx)
      obtain ⟨hkey, hscope⟩ := Seed.SettingEntry.isFor_iff.1 hfor
      exact ⟨x, hmem, by rw [hkey, hscope]⟩
    · -- And an entry has a setting.
      rintro ⟨x, hx, rfl⟩
      obtain ⟨s, hs⟩ := Option.isSome_iff_exists.1 (h.isSome_of_mem hx)
      obtain ⟨hmem, -, hkey, hscope⟩ := Store.exactSetting?_eq_some hs
      exact ⟨s, hmem, by rw [hkey, hscope]⟩

/-- **Rules seeded where there were none** are the drafts, in their order, and the log tells of the
creation of each. -/
theorem RulesSeeded.of_empty {e e' : Engine} {drafts : List Draft} {kept created : List Rule}
    (h : e.RulesSeeded [] drafts e' kept created) (hempty : e.store.rules = .empty) :
    e'.store.rules.values.map Rule.toDraft = drafts
      ∧ ∃ records, e'.log.records = e.log.records ++ records
        ∧ records.map AuditRecord.subject
          = e'.store.rules.values.map fun rule => .rule rule.id := by
  have hkept : kept = [] := by
    have hrevised := h.revised
    rw [hempty] at hrevised
    exact List.forall₂_nil_left_iff.1 hrevised
  have hvalues : e'.store.rules.values = created := by
    rw [h.values, hkept, List.nil_append]
  have hdrafts : created.map Rule.toDraft = drafts :=
    h.drafted.trans (List.filter_eq_self.2 fun _ _ => rfl)
  obtain ⟨records, hlog, hlength, hsubjects⟩ := h.told
  -- There are as many creations as drafts, so there is no other record.
  have hall : records.filter (fun r => r.change = .created) = records := by
    refine List.filter_eq_self.2 (List.length_filter_eq_length_iff.1 ?_)
    rw [hlength, ← hdrafts, List.length_map, ← List.length_map AuditRecord.subject, hsubjects,
      List.length_map]
  rw [hall] at hsubjects
  rw [hvalues]
  exact ⟨hdrafts, records, hlog, hsubjects⟩

/-! ## A seed, and the same seed again

The three loops are put together here. What one of them needs of the others is that they leave alone
what it is about. -/

/-- **The engine holds what a file says**, and nothing else: one active setting for each key and
scope of the file, as its entries describe it; one category for each name; and the drafts, in their
order. To the log that there was before are added a record for each entry of the file, about the
setting that it was written to, and then one for each draft, about its rule.

Settings and categories are listed up to order, since where they stand is left to the store. The
rules stand in the order of the file. -/
structure HoldsSeed (e : Engine) (before : AuditLog) (settings : Seed.Settings)
    (rules : Seed.Rules) : Prop where
  active : ∀ s ∈ e.store.settings.values, s.active = true
  places : (e.store.settings.values.map fun s => (s.key, s.scope)).Perm
    (settings.settings.map fun x => (x.key, x.scope)).dedup
  described : ∀ s ∈ e.store.settings.values, Seed.Describes e.store.categoryIdNamed?
    (settings.settings.filter (·.isFor s.key s.scope)) s
  categories : (e.store.categories.values.map Category.name).Perm
    (settings.categories.map Seed.CategoryEntry.name).dedup
  rules : e.store.rules.values.map Rule.toDraft = rules.rules
  told : ∃ ofSettings ofRules, e.log.records = before.records ++ ofSettings ++ ofRules
    ∧ List.Forall₂ (fun x r => ∃ s, e.store.exactSetting? x.key x.scope = some s
      ∧ r.subject = .setting s.id) settings.settings ofSettings
    ∧ ofRules.map AuditRecord.subject = e.store.rules.values.map fun rule => .rule rule.id

/-- **Nothing new is stored**, and of each setting only the version and the record of its last
writing are different. Of the rules it is said only that they are the same ones: what is in them may
have changed, where several have one name. -/
structure SettingsKept (e e' : Engine) : Prop where
  categories : e'.store.categories = e.store.categories
  settingIds : e'.store.settings.values.map Setting.id = e.store.settings.values.map Setting.id
  ruleIds : e'.store.rules.values.map Rule.id = e.store.rules.values.map Rule.id
  settings : ∀ s ∈ e.store.settings.values, ∃ s', e'.store.setting? s.id = some s'
    ∧ s' = { s with
      version := s'.version, updatedBy := s'.updatedBy, updatedAt := s'.updatedAt }

/-- **The stages of a seed**: when its categories are done, when its settings are done, and when its
rules are done. The list of rules that may be replaced is that of the second stage, and is the same
for all drafts. -/
structure Stages (e : Engine) (occasion : Nat → Occasion) (settings : Seed.Settings)
    (rules : Seed.Rules) (report : SeedReport) (e₁ e₂ e₃ : Engine) : Prop where
  wellFormed : e.store.WellFormed
  first : Wrote occasion seedCategory e 0 settings.categories report.categories e₁
  second : Wrote occasion seedSetting e₁ settings.categories.length settings.settings
    report.settings e₂
  third : Wrote occasion (seedRule e₂.store.allRules) e₂
    (settings.categories.length + settings.settings.length) rules.rules report.rules e₃

namespace Stages

variable {settings : Seed.Settings} {rules : Seed.Rules} {occasion : Nat → Occasion}
  {report : SeedReport} {e e₁ e₂ e₃ : Engine} (h : e.Stages occasion settings rules report e₁ e₂ e₃)
include h

/-- All three stages are well formed, since each entry is a step. -/
theorem wellFormed₁ : e₁.store.WellFormed :=
  h.first.wellFormed step_of_seedCategory h.wellFormed

theorem wellFormed₂ : e₂.store.WellFormed :=
  h.second.wellFormed step_of_seedSetting h.wellFormed₁

theorem wellFormed₃ : e₃.store.WellFormed :=
  h.third.wellFormed (step_of_seedRule _) h.wellFormed₂

/-- After the categories the identifiers of the other entries are still fresh. -/
theorem fresh₁ (hfresh : e.Fresh occasion 0 (Call.entryCount settings rules)) :
    e₁.Fresh occasion settings.categories.length (Call.entryCount settings rules) := by
  have hleft := h.first.fresh step_of_seedCategory h.wellFormed hfresh
  rwa [Nat.zero_add] at hleft

/-- **What the settings come to**, if each of them is there or identifiers are fresh. The first case
is that of a second seed, where nothing need be known of identifiers, as none is drawn. -/
theorem settingsSeeded
    (hplaces : (∀ x ∈ settings.settings, (e.store.exactSetting? x.key x.scope).isSome = true)
      ∨ e.Fresh occasion 0 (Call.entryCount settings rules)) :
    e₁.SettingsSeeded settings.settings e₂ := by
  refine h.second.settingsSeeded h.wellFormed₁ (hplaces.imp (fun hall x hx => ?_) fun hfresh => ?_)
  · rw [Store.exactSetting?_congr h.first.eq_of_seedCategory.1]
    exact hall x hx
  · exact (h.fresh₁ hfresh).mono (Nat.le_refl _) (Nat.le_add_right _ _)

/-- **What the rules come to**, if each draft replaces one or identifiers are fresh. -/
theorem exists_rulesSeeded
    (hplaces : (∀ draft ∈ rules.rules,
        (Seed.replaced? e₂.store.allRules draft.name).isSome = true)
      ∨ e.Fresh occasion 0 (Call.entryCount settings rules)) :
    ∃ kept created, e₂.RulesSeeded e₂.store.allRules rules.rules e₃ kept created :=
  h.third.exists_rulesSeeded h.wellFormed₂ (fun _ => Store.mem_allRules_iff.1) <|
    hplaces.imp id fun hfresh =>
      h.second.fresh step_of_seedSetting h.wellFormed₁ (h.fresh₁ hfresh)

variable (hfresh : e.Fresh occasion 0 (Call.entryCount settings rules))
include hfresh

/-- **After the seed each draft finds a rule of its name**, in whatever order the rules stand. -/
theorem isSome_replaced? {s : Store} (hs : e₃.store.rules.rows.Perm s.rules.rows) :
    ∀ draft ∈ rules.rules, (Seed.replaced? s.allRules draft.name).isSome = true := by
  obtain ⟨kept, created, hseeded⟩ := h.exists_rulesSeeded (.inr hfresh)
  exact fun draft hdraft => hseeded.isSome_replaced? h.wellFormed₃.rules_keyed
    (fun _ => Store.mem_allRules_iff.1) hs hdraft

/-! ### A second seed of the same file

It begins with an engine `d` that holds what the first seed has left, its rows perhaps in another
order. -/

section Again

variable {occasion' : Nat → Occasion} {report' : SeedReport} {a b c d : Engine}
  (hd : e₃.store.Reordering d.store) (h' : d.Stages occasion' settings rules report' a b c)
include hd h'

omit hfresh in
/-- The settings that the second seed finds are those that the first one has left. -/
theorem settings_rows_again : e₂.store.settings.rows.Perm a.store.settings.rows := by
  rw [h'.first.eq_of_seedCategory.1, ← h.third.eq_of_seedRule.1]
  exact hd.settings

/-- The second time every setting is there. -/
theorem settingsSeeded_again : a.SettingsSeeded settings.settings b := by
  refine h'.second.settingsSeeded h'.wellFormed₁ (.inl fun x hx => ?_)
  rw [h.wellFormed₂.exactSetting?_eq_of_perm (h.settings_rows_again hd h')]
  exact (h.settingsSeeded (.inr hfresh)).isSome_of_mem hx

/-- The rules that may be replaced in the second seed are those that the first one has left. -/
theorem rules_eq_again : b.store.rules = d.store.rules :=
  (h.settingsSeeded_again hfresh hd h').rules.trans h'.first.eq_of_seedCategory.2

/-- The second time every draft replaces a rule. -/
theorem isSome_replaced?_again :
    ∀ draft ∈ rules.rules, (Seed.replaced? b.store.allRules draft.name).isSome = true := by
  refine h.isSome_replaced? hfresh ?_
  rw [h.rules_eq_again hfresh hd h']
  exact hd.rules

/-- So it is known what the rules come to the second time. -/
theorem exists_rulesSeeded_again :
    ∃ kept created, b.RulesSeeded b.store.allRules rules.rules c kept created :=
  h'.exists_rulesSeeded (.inl (h.isSome_replaced?_again hfresh hd h'))

end Again

/-- **No setting and no rule is created the second time**, and settings are as they were, but for
their versions and the records of their last writing, if no category is created either. -/
theorem settingsKept_again {occasion' : Nat → Occasion} {report' : SeedReport} {a b c : Engine}
    (h' : e₃.clearCache.Stages occasion' settings rules report' a b c) (ha : a = e₃.clearCache) :
    e₃.clearCache.SettingsKept c.clearCache := by
  have hd : e₃.store.Reordering e₃.clearCache.store := .refl _
  have hsets := h.settingsSeeded (.inr hfresh)
  have hsets' := h.settingsSeeded_again hfresh hd h'
  obtain ⟨kept, created, hrules⟩ := h.exists_rulesSeeded_again hfresh hd h'
  obtain ⟨hsettings, hcategories⟩ := h.third.eq_of_seedRule
  obtain ⟨hsettings', hcategories'⟩ := h'.third.eq_of_seedRule
  have hnamed : a.store.categoryIdNamed? = e₁.store.categoryIdNamed? :=
    Store.categoryIdNamed?_congr (ha ▸ hcategories.trans hsets.categories)
  have hsame := h.settings_rows_again hd h'
  refine ⟨(hcategories'.trans hsets'.categories).trans (ha ▸ rfl), ?_, ?_, fun s hs => ?_⟩
  · show c.store.settings.values.map Setting.id = e₃.store.settings.values.map Setting.id
    rw [hsettings', hsets.map_id_again hsets' h.wellFormed₂ hsame, ha]
    rfl
  · show c.store.rules.values.map Rule.id = e₃.store.rules.values.map Rule.id
    rw [(hrules.of_replaced (h.isSome_replaced?_again hfresh hd h')).1, hrules.map_id_kept,
      h.rules_eq_again hfresh hd h']
    rfl
  · obtain ⟨s', hs', hkept⟩ := hsets.exists_again hsets' hsame h.wellFormed₂ h'.wellFormed₂
      (hsettings ▸ hs)
    refine ⟨s', (congrArg (Table.find? · s.id) hsettings').trans hs', ?_⟩
    obtain rfl | ⟨entries, old, hturns, hturns'⟩ := hkept
    · rfl
    · exact hturns.again (hnamed ▸ hturns')

/-! ### An engine that holds nothing -/

variable (hempty : e.store = .empty)
include hempty

/-- The categories of an engine that holds nothing. -/
theorem categoriesSeeded :
    e.CategoriesSeeded occasion 0 settings.categories report.categories e₁ := by
  refine h.first.categoriesSeeded (by rw [hempty]; rfl) h.wellFormed
    (hfresh.mono (Nat.le_refl _) ?_)
  unfold Call.entryCount
  omega

/-- **What an engine that held nothing holds after a seed**, put together from what its three loops
come to. Later loops do not touch what the earlier ones have written. -/
theorem holdsSeed : e₃.HoldsSeed e.log settings rules := by
  -- What the three loops come to, one after the other, with nothing there before each of them.
  have hcats := h.categoriesSeeded hfresh hempty
  have hsets := h.settingsSeeded (.inr hfresh)
  obtain ⟨hsettings, hcategories⟩ := h.third.eq_of_seedRule
  have hcategories₁ : e₃.store.categories = e₁.store.categories :=
    hcategories.trans hsets.categories
  have hempty₁ : e₁.store.settings = .empty := by
    rw [hcats.others, hempty]
    rfl
  have hempty₂ : e₂.store.rules = .empty := by
    rw [hsets.rules, hcats.others, hempty]
    rfl
  have hexisting : e₂.store.allRules = [] := by
    unfold Store.allRules
    rw [hempty₂]
    exact List.mergeSort_nil
  have hlog₁ : e₁.log = e.log := by
    rw [hcats.others]
  obtain ⟨hactive, hplaces, hdescribed⟩ := hsets.of_empty hempty₁ h.wellFormed₂
  obtain ⟨kept, created, hseeded⟩ := h.exists_rulesSeeded (.inr hfresh)
  rw [hexisting] at hseeded
  obtain ⟨hdrafts, ofRules, hlog₃, hrules⟩ := hseeded.of_empty hempty₂
  obtain ⟨ofSettings, hlog₂, htold⟩ := hsets.told
  rw [← hsettings] at hactive hplaces hdescribed
  rw [← Store.categoryIdNamed?_congr hcategories₁] at hdescribed
  refine ⟨hactive, hplaces, hdescribed, ?_, hdrafts, ofSettings, ofRules, ?_, ?_, hrules⟩
  · rw [hcategories₁]
    exact hcats.map_name_perm h.wellFormed₁
  · rw [hlog₃, hlog₂, hlog₁]
  · simp only [Store.exactSetting?_congr hsettings]
    exact htold

/-- **The same file can be seeded again**, if the log accepts records. No category is created. Each
entry has succeeded once, and what it needs is there still: the value has its type, the category its
name, and the draft passes its check. -/
theorem exists_again {occasion' : Nat → Occasion}
    (haccepts : ∀ i < Call.entryCount settings rules, (occasion' i).refusal = none) :
    ∃ b c, e₃.clearCache.Stages occasion' settings rules
      ⟨0, settings.settings.length, rules.rules.length⟩ e₃.clearCache b c := by
  have hsets := h.settingsSeeded (.inr hfresh)
  obtain ⟨hsettings, hcategories⟩ := h.third.eq_of_seedRule
  have hcategories₁ : e₃.store.categories = e₁.store.categories :=
    hcategories.trans hsets.categories
  have hconfig : e₃.config = e₁.config :=
    (h.third.config_eq (step_of_seedRule _)).trans (h.second.config_eq step_of_seedSetting)
  have hwell : e₃.clearCache.store.WellFormed := h.wellFormed₃
  -- All categories are left out, as their names are there.
  have hwrote₁ : Wrote occasion' seedCategory e₃.clearCache 0 settings.categories 0
      e₃.clearCache := by
    refine wrote_of_named fun x hx => ?_
    rw [isSome_categoryNamed?_iff]
    show x.name ∈ e₃.store.categories.values.map Category.name
    rw [hcategories₁, (h.categoriesSeeded hfresh hempty).names]
    exact List.mem_map_of_mem hx
  have haccepts₂ : ∀ i < settings.categories.length + settings.settings.length,
      (occasion' i).refusal = none :=
    fun i hi => haccepts i (Nat.lt_of_lt_of_le hi (Nat.le_add_right _ _))
  obtain ⟨b, hwrote₂, hseeded⟩ := h.second.exists_settings_again h.wellFormed₁
    ((h.fresh₁ hfresh).mono (Nat.le_refl _) (Nat.le_add_right _ _)) hwell
    hsettings hconfig hcategories₁ haccepts₂
  obtain ⟨c, hwrote₃⟩ := h.third.exists_rules_again
    (hwrote₂.wellFormed step_of_seedSetting hwell)
    ((hwrote₂.config_eq step_of_seedSetting).trans (h.third.config_eq (step_of_seedRule _)))
    (h.isSome_replaced? hfresh (.of_eq (congrArg Table.rows hseeded.rules).symm)) haccepts
  exact ⟨b, c, hwell, hwrote₁, hwrote₂, hwrote₃⟩

end Stages

end Engine

/-- **An empty engine seeded.** After any run of a new engine, let it hold nothing, and let a seed
succeed that is given no identifier twice. Then the engine holds what the file says, and nothing
else, with one record in the log for each setting and each draft of the file; and the report counts
the categories stored, the settings and the drafts. Seeded once more with the same file, whenever
the log accepts records, it creates nothing, and of each setting only the version and the record of
its last writing are different.

It is asked that the engine hold nothing, and not that it be new: what was created in the run has
been deleted, and the log still tells of it. -/
theorem holdsSeed_seed_run {config : EngineConfig} {e : Engine} (h : Engine.create config = .ok e)
    (calls : List Call) (hempty : (e.run calls).store = .empty) {settings : Seed.Settings}
    {rules : Seed.Rules} {occasion : Nat → Occasion}
    (hids : ((calls ++ [Call.seed settings rules occasion]).flatMap Call.rowIds).Nodup)
    {report : SeedReport} {e₁ : Engine}
    (hseed : (e.run calls).seed settings rules occasion = (.ok report, e₁)) :
    e₁.HoldsSeed (e.run calls).log settings rules
      ∧ report = ⟨(settings.categories.map Seed.CategoryEntry.name).dedup.length,
        settings.settings.length, rules.rules.length⟩
      ∧ ∀ occasion' : Nat → Occasion,
        (∀ i < Call.entryCount settings rules, (occasion' i).refusal = none) →
        ∃ e₂, e₁.seed settings rules occasion'
            = (.ok ⟨0, settings.settings.length, rules.rules.length⟩, e₂)
          ∧ e₁.SettingsKept e₂ := by
  have hwell := Engine.wellFormed_run h calls
  have hfresh := Engine.fresh_run h calls hids
  obtain ⟨e₂, e₃, e₄, hfirst, hsecond, hthird, rfl⟩ := Engine.seed_eq_ok_iff.1 hseed
  have hstages : (e.run calls).Stages occasion settings rules report e₂ e₃ e₄ :=
    ⟨hwell, hfirst, hsecond, hthird⟩
  obtain ⟨hactive, hplaces, hdescribed, hnames, hdrafts, htold⟩ :=
    hstages.holdsSeed hfresh hempty
  -- Categories are counted where they are created, settings and drafts each time.
  have hcount : report.categories
      = (settings.categories.map Seed.CategoryEntry.name).dedup.length := by
    rw [← hnames.length_eq, List.length_map, hthird.eq_of_seedRule.2,
      (hstages.settingsSeeded (.inr hfresh)).categories,
      (hstages.categoriesSeeded hfresh hempty).count]
  have hsettings : report.settings = settings.settings.length :=
    hsecond.count_eq fun _ _ _ => Engine.seedSetting_ne_ok_none
  have hrules : report.rules = rules.rules.length :=
    hthird.count_eq fun _ _ _ => Engine.seedRule_ne_ok_none
  refine ⟨⟨hactive, hplaces, hdescribed, hnames, hdrafts, htold⟩, ?_,
    fun occasion' haccepts => ?_⟩
  · rw [← hcount, ← hsettings, ← hrules]
  · obtain ⟨b, c, hagain⟩ := hstages.exists_again hfresh hempty haccepts
    exact ⟨c.clearCache, Engine.seed_eq_ok_iff.2 ⟨_, b, c, hagain.first, hagain.second,
      hagain.third, rfl⟩, hstages.settingsKept_again hfresh hagain rfl⟩

/-- A file in which a category comes twice, and a key, first with a category and a description. -/
def Seed.repeatedSettings : Seed.Settings where
  categories := [{ name := "fees" }, { name := "fees" }]
  settings := [
    { key := "a"
      value := .bool true
      dataType := .boolean
      category := some "fees"
      description := some "swaps" },
    { key := "a", value := .bool false, dataType := .boolean }]

/-- A file with two drafts of one name. -/
def Seed.repeatedRules : Seed.Rules where
  rules := [
    { name := "less"
      ruleType := .promotion
      actions := [⟨.percentageDiscount, .ofUInt32 50⟩] },
    { name := "less"
      ruleType := .promotion
      actions := [⟨.percentageDiscount, .ofUInt32 40⟩] }]

/-- The two files are seeded twice on a new engine. They come to one category, one setting with the
value of the second entry and the description of the first, and two rules of one name. -/
theorem holdsSeed_seed_run_repeated :
    Engine.create {} = .ok Engine.initial ∧ Engine.initial.store = .empty
      ∧ (Call.rowIds (.seed Seed.repeatedSettings Seed.repeatedRules Occasion.number)).Nodup
      ∧ ∃ e₁, Engine.initial.seed Seed.repeatedSettings Seed.repeatedRules Occasion.number
          = (.ok ⟨1, 2, 2⟩, e₁)
        ∧ e₁.store.settings.values.map (fun s => (s.key, s.value.bool?, s.description, s.version))
          = [("a", some false, some "swaps", 2)]
        ∧ e₁.store.rules.values.map Rule.toDraft = Seed.repeatedRules.rules
        ∧ ∃ e₂, e₁.seed Seed.repeatedSettings Seed.repeatedRules (fun i => .number (i + 6))
            = (.ok ⟨0, 2, 2⟩, e₂)
          ∧ e₂.store.settings.values.map Setting.id = e₁.store.settings.values.map Setting.id
          ∧ e₂.store.rules.values.map Rule.id = e₁.store.rules.values.map Rule.id := by
  have hids : (Call.rowIds (.seed Seed.repeatedSettings Seed.repeatedRules
      Occasion.number)).Nodup := by decide
  have hreport : (Engine.initial.seed Seed.repeatedSettings Seed.repeatedRules
      Occasion.number).1.toOption = some ⟨1, 2, 2⟩ := by decide +kernel
  have hsettings : (Engine.initial.seed Seed.repeatedSettings Seed.repeatedRules
      Occasion.number).2.store.settings.values.map
        (fun s => (s.key, s.value.bool?, s.description, s.version))
      = [("a", some false, some "swaps", 2)] := by decide +kernel
  have hseed := Engine.seed_eq_of_toOption hreport
  obtain ⟨hholds, -, hagain⟩ :=
    holdsSeed_seed_run Engine.create_initial [] rfl (by simpa using hids) hseed
  obtain ⟨e₂, hsecond, hkept⟩ := hagain (fun i => .number (i + 6)) fun _ _ => rfl
  exact ⟨rfl, rfl, hids, _, hseed, hsettings, hholds.rules, e₂, hsecond, hkept.settingIds,
    hkept.ruleIds⟩

end Tariff
