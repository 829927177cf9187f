import Tariff.Proofs.Repetition
import Tariff.Proofs.Seeding

/-!
# The settings of a seed

Several entries of a file may have the same key and scope. The first of them creates a setting,
unless there is an active one already, and the others change it in its place, each with its own
value and priority. A description or a category that an entry does not give stays what it was, so
it is the last one given that counts (`Seed.Turns`).

Entries with another key or another scope do not matter for that. So what the loop makes of the
setting under a key and exact scope is what the entries for them make of it, in their order
(`Engine.SettingsSeeded`); and where the loop is gone through a second time, it finds every
setting in its place, creates none, and leaves them as they are but for their versions and the
records of their last writing (`Seed.Turns.again`).
-/

namespace Tariff

/-! ## What entries make of a setting

This is about values only, with no engine in it. The entries are those for one key and scope, in
their order. -/

/-- What the last one that gives something gives. Those that give nothing do not count. -/
def Seed.lastGiven {α β : Type} (f : α → Option β) (l : List α) : Option β :=
  (l.filterMap f).getLast?

/-- One that is added gives it, or leaves it to those before. -/
theorem Seed.lastGiven_concat {α β : Type} (f : α → Option β) (l : List α) (a : α) :
    lastGiven f (l ++ [a]) = (f a).or (lastGiven f l) := by
  unfold lastGiven
  rw [List.filterMap_append, List.getLast?_append]
  cases h : f a <;> simp [h]

namespace Seed.SettingEntry

/-- The options with which an entry is written. It has no beginning and no end, and does not say
that the setting is inactive. -/
def options (x : SettingEntry) (categoryId : Option Uuid) (author : Author) : SettingOptions where
  categoryId := categoryId
  declaredType := some x.dataType
  scope := x.scope
  priority := x.priority
  description := x.description
  author := author

/-- Whether an entry is for a key and exact scope. -/
def isFor (x : SettingEntry) (key : String) (scope : Scope) : Bool :=
  x.key = key && x.scope = scope

/-- Scopes are compared as a whole, and not by what they cover. -/
theorem isFor_iff {x : SettingEntry} {key : String} {scope : Scope} :
    x.isFor key scope = true ↔ x.key = key ∧ x.scope = scope := by
  simp [isFor]

end Seed.SettingEntry

/-- **Entries turn one setting into another**, where there is one before and afterwards. It has
the value and priority of the last entry, the last description and the last category that are
given, and its version has gone up by one with each of them. -/
structure Seed.Turns (named : String → Option Uuid) (entries : List Seed.SettingEntry)
    (old now : Option Setting) : Prop where
  unwritten : entries = [] → now = old
  last : ∀ x, entries.getLast? = some x → ∃ new, now = some new
    ∧ Value.ofJson x.dataType x.value = .ok new.value ∧ new.priority = x.priority
    ∧ new.dataType = new.value.dataType ∧ new.active = true ∧ new.expiryDate = none
  description : now.bind Setting.description
    = (Seed.lastGiven Seed.SettingEntry.description entries).or (old.bind Setting.description)
  category : now.bind Setting.categoryId
    = ((Seed.lastGiven Seed.SettingEntry.category entries).bind named).or
      (old.bind Setting.categoryId)
  named : ∀ name, Seed.lastGiven Seed.SettingEntry.category entries = some name →
    (named name).isSome = true
  version : now.elim 0 Setting.version = old.elim 0 Setting.version + UInt32.ofNat entries.length
  kept : ∀ s, old = some s → ∃ s', now = some s' ∧ s'.id = s.id ∧ s'.key = s.key
    ∧ s'.scope = s.scope ∧ s'.effectiveDate = s.effectiveDate ∧ s'.createdBy = s.createdBy
    ∧ s'.createdAt = s.createdAt

namespace Seed.Turns

variable {named : String → Option Uuid} {entries : List Seed.SettingEntry}
  {old now : Option Setting}

/-- No entries turn nothing into anything. -/
theorem refl (named : String → Option Uuid) (old : Option Setting) : Turns named [] old old where
  unwritten _ := rfl
  last _ h := nomatch h
  description := rfl
  category := rfl
  named _ h := nomatch h
  version := (UInt32.add_zero _).symm
  kept s h := ⟨s, h, rfl, rfl, rfl, rfl, rfl, rfl⟩

/-- **One more entry is written.** It decides what the last entry decides, and leaves the
description and the category as they are unless it gives them. -/
theorem concat (h : Turns named entries old now) {x : Seed.SettingEntry} {value : Value}
    (hvalue : Value.ofJson x.dataType x.value = .ok value)
    (hnamed : x.category.isSome = true → (x.category.bind named).isSome = true) (author : Author)
    (o : Occasion) :
    Turns named (entries ++ [x]) old
      (some ((x.options (x.category.bind named) author).written x.key value now o)) where
  unwritten hnil := absurd hnil (List.append_ne_nil_of_right_ne_nil _ (List.cons_ne_nil _ _))
  last y hy := by
    rw [List.getLast?_concat] at hy
    cases hy
    refine ⟨_, rfl, ?_⟩
    cases now <;> exact ⟨hvalue, rfl, rfl, rfl, rfl⟩
  -- A description that is not given is the one of the setting before, if there was one.
  description := by
    rw [lastGiven_concat, Option.or_assoc, ← h.description]
    cases now with
    | none => exact (Option.or_none).symm
    | some s => rfl
  -- With categories there is a difference: one that is given but has no identifier would leave the
  -- old one, and this is why it has to be stored.
  category := by
    rw [lastGiven_concat]
    have hwritten : (some ((x.options (x.category.bind named) author).written x.key value now
        o)).bind Setting.categoryId = (x.category.bind named).or (now.bind Setting.categoryId) := by
      cases now with
      | none => exact (Option.or_none).symm
      | some s => rfl
    rw [hwritten, h.category]
    cases hcategory : x.category with
    | none => rfl
    | some name =>
      rw [hcategory] at hnamed
      obtain ⟨id, hid⟩ := Option.isSome_iff_exists.1 (hnamed rfl)
      have hid' : named name = some id := hid
      simp [hid']
  named name hname := by
    rw [lastGiven_concat] at hname
    cases hcategory : x.category with
    | none =>
      rw [hcategory] at hname
      exact h.named name hname
    | some given =>
      rw [hcategory] at hname hnamed
      cases hname
      exact hnamed rfl
  version := by
    rw [List.length_append, List.length_singleton, UInt32.ofNat_add, ← UInt32.add_assoc,
      ← h.version]
    cases now <;> rfl
  kept s hs := by
    obtain ⟨s', rfl, hs'⟩ := h.kept s hs
    exact ⟨_, rfl, hs'⟩

/-- **Where the same entries are written once more**, the setting is on the same terms. The last
entry is the same one, so value and priority are, and nothing else counts for that. -/
theorem sameTerms {named' : String → Option Uuid} {s s' : Setting}
    (h : Turns named entries old (some s)) (h' : Turns named' entries (some s) (some s')) :
    s'.SameTerms s := by
  cases hlast : entries.getLast? with
  | none =>
    cases h'.unwritten (List.getLast?_eq_none_iff.1 hlast)
    exact .refl s
  | some x =>
    obtain ⟨_, hs, hvalue, hpriority, -, hactive, hexpiry⟩ := h.last x hlast
    obtain ⟨_, hs', hvalue', hpriority', -, hactive', hexpiry'⟩ := h'.last x hlast
    obtain ⟨_, hkept, hid, hkey, hscope, hdate, -, hage⟩ := h'.kept s rfl
    cases hs
    cases hs'
    cases hkept
    exact ⟨hid, hkey, Except.ok.inj (hvalue'.symm.trans hvalue), hscope,
      hpriority'.trans hpriority.symm, hdate, hexpiry'.trans hexpiry.symm,
      hactive'.trans hactive.symm, hage⟩

/-- **Only its version and the record of its last writing are different then**, if categories have
their names still. A description or category that no entry gives is what was there before; and one
that is given is given again. -/
theorem again {s s' : Setting} (h : Turns named entries old (some s))
    (h' : Turns named entries (some s) (some s')) :
    s' = { s with
      version := s'.version, updatedBy := s'.updatedBy, updatedAt := s'.updatedAt } := by
  have hterms := h.sameTerms h'
  have htype : s'.dataType = s.dataType := by
    cases hlast : entries.getLast? with
    | none =>
      cases h'.unwritten (List.getLast?_eq_none_iff.1 hlast)
      rfl
    | some x =>
      obtain ⟨_, hs, -, -, htype, -⟩ := h.last x hlast
      obtain ⟨_, hs', -, -, htype', -⟩ := h'.last x hlast
      cases hs
      cases hs'
      rw [htype', htype, hterms.value]
  -- What was given before is given again, and takes the place of itself.
  have hdescription : s'.description = s.description := by
    have hafter : s'.description = _ := h'.description
    have hbefore : s.description = _ := h.description
    rw [hafter, Option.bind_some, hbefore, ← Option.or_assoc, Option.or_self]
  have hcategory : s'.categoryId = s.categoryId := by
    have hafter : s'.categoryId = _ := h'.category
    have hbefore : s.categoryId = _ := h.category
    rw [hafter, Option.bind_some, hbefore, ← Option.or_assoc, Option.or_self]
  obtain ⟨_, hkept, -, -, -, -, hauthor, -⟩ := h'.kept s rfl
  cases hkept
  obtain ⟨hid, hkey, hvalue, hscope, hpriority, hdate, hexpiry, hactive, hage⟩ := hterms
  cases s
  cases s'
  simp only at *
  simp only [hid, hkey, hvalue, hscope, hpriority, hdate, hexpiry, hactive, hage, htype,
    hdescription, hcategory, hauthor]

end Seed.Turns

/-! ## One entry

Each entry looks at the store as it is at its turn, so that an entry finds what those before it have
written. -/

/-- The identifier of the category with a name. -/
def Store.categoryIdNamed? (s : Store) (name : String) : Option Uuid :=
  (s.categoryNamed? name).map (·.id)

theorem Store.categoryIdNamed?_congr {s s' : Store} (h : s'.categories = s.categories) :
    s'.categoryIdNamed? = s.categoryIdNamed? := by
  funext name
  unfold categoryIdNamed? categoryNamed?
  rw [h]

/-- And the setting under a key and exact scope on the settings only. -/
theorem Store.exactSetting?_congr {s s' : Store} (h : s'.settings = s.settings) (key : String)
    (scope : Scope) : s'.exactSetting? key scope = s.exactSetting? key scope := by
  unfold exactSetting?
  rw [h]

namespace Engine

variable {e e' : Engine} {o : Occasion} {x : Seed.SettingEntry}

/-- A category that is given must be stored. If none is given, none is looked for. -/
theorem seedCategoryId_eq_ok_iff {id : Option Uuid} :
    seedCategoryId x e = .ok id
      ↔ (x.category.isSome = true → (x.category.bind e.store.categoryIdNamed?).isSome = true)
        ∧ id = x.category.bind e.store.categoryIdNamed? := by
  unfold seedCategoryId
  cases hcategory : x.category with
  | none => simp [eq_comm]
  | some name =>
    cases hnamed : e.store.categoryNamed? name with
    | none => simp [Store.categoryIdNamed?, hnamed]
    | some c => simp [Store.categoryIdNamed?, hnamed, eq_comm]

/-- **An entry is written** where it has a value of its type, its category is stored, and the
setting can be written with its options. -/
theorem seedSetting_eq_ok_iff {result : Option Engine} :
    seedSetting x e o = .ok result
      ↔ ∃ value new e', Value.ofJson x.dataType x.value = .ok value
        ∧ (x.category.isSome = true → (x.category.bind e.store.categoryIdNamed?).isSome = true)
        ∧ e.setSetting x.key value
          (x.options (x.category.bind e.store.categoryIdNamed?) e.seedAuthor) o = .ok (new, e')
        ∧ result = some e' := by
  unfold seedSetting
  simp only [bind_eq_ok_iff, seedCategoryId_eq_ok_iff]
  constructor
  · rintro ⟨value, hvalue, _, ⟨hnamed, rfl⟩, ⟨new, e₁⟩, hset, hresult⟩
    refine ⟨value, new, e₁, ?_, hnamed, hset, ?_⟩
    · cases hjson : Value.ofJson x.dataType x.value with
      | error p => rw [hjson] at hvalue; cases hvalue
      | ok v => rw [hjson] at hvalue; cases hvalue; rfl
    · cases hresult
      rfl
  · rintro ⟨value, new, e₁, hvalue, hnamed, hset, rfl⟩
    refine ⟨value, ?_, _, ⟨hnamed, rfl⟩, ⟨new, e₁⟩, hset, rfl⟩
    rw [hvalue]
    rfl

/-- An entry that is written takes a step. -/
theorem step_of_seedSetting (x : Seed.SettingEntry) (e : Engine) (o : Occasion) (e' : Engine)
    (h : seedSetting x e o = .ok (some e')) : ∃ ids, Step e ids [] e' ∧ ids.Sublist [o.rowId] := by
  obtain ⟨value, new, e₁, -, -, hset, heq⟩ := seedSetting_eq_ok_iff.1 h
  cases heq
  exact ⟨_, .setSetting hset, List.Sublist.refl _⟩

/-- No setting is left out. -/
theorem seedSetting_ne_ok_none : seedSetting x e o ≠ .ok none := by
  intro h
  obtain ⟨value, new, e', -, -, -, heq⟩ := seedSetting_eq_ok_iff.1 h
  cases heq

/-- **What a written entry comes to**: the setting under its key and scope is written, active, and
all others are found as before. A new setting has an identifier that was not in use. What is said of
one entry here is what the loop is put together from. -/
structure EntryWritten (e : Engine) (x : Seed.SettingEntry) (o : Occasion) (new : Setting)
    (e' : Engine) : Prop where
  named : x.category.isSome = true → (x.category.bind e.store.categoryIdNamed?).isSome = true
  written : ∃ value, Value.ofJson x.dataType x.value = .ok value
    ∧ new = (x.options (x.category.bind e.store.categoryIdNamed?) e.seedAuthor).written x.key value
      (e.store.exactSetting? x.key x.scope) o
  engine : e' = e.withSetting (e.store.exactSetting? x.key x.scope) new e.seedAuthor o
  active : new.active = true
  unused : e.store.exactSetting? x.key x.scope = none → e.store.setting? new.id = none
  exact : ∀ key scope, e'.store.exactSetting? key scope
    = if x.isFor key scope then some new else e.store.exactSetting? key scope

/-- **An entry that is written comes to this**, if the identifier that it may need is not in use. -/
theorem exists_entryWritten (he : e.store.WellFormed)
    (hid : e.store.exactSetting? x.key x.scope = none → e.store.setting? o.rowId = none)
    (h : seedSetting x e o = .ok (some e')) : ∃ new, e.EntryWritten x o new e' := by
  obtain ⟨value, new, e₁, hvalue, hnamed, hset, heq⟩ := seedSetting_eq_ok_iff.1 h
  cases heq
  have hfound := exactSetting?_of_setSetting he hset
  have hsame := sameBut_setSetting he hid hset
  have hwell := (Step.setSetting hset).wellFormed he
  obtain ⟨hkey, hscope⟩ := place_of_setSetting hset
  obtain ⟨-, hnew, he'⟩ := setSetting_eq_ok_iff.1 hset
  have hactive : new.active = true := by
    rw [hnew, SettingOptions.active_written]
    rfl
  refine ⟨new, hnamed, ⟨value, hvalue, hnew⟩, he', hactive, fun hold => ?_, fun key scope => ?_⟩
  · have hold' : e.store.exactSetting? x.key (x.options (x.category.bind
      e.store.categoryIdNamed?) e.seedAuthor).scope = none := hold
    rw [hnew, hold']
    exact hid hold
  · split
    · -- In its own place the new setting is found, as it is active.
      next hfor =>
      obtain ⟨rfl, rfl⟩ := Seed.SettingEntry.isFor_iff.1 hfor
      rw [if_pos hactive] at hfound
      exact hfound
    · next hfor =>
      refine hsame.exactSetting?_eq he hwell fun y hy _ hykey hyscope => hfor ?_
      obtain ⟨hkey', hscope'⟩ := hsame.place y hy
      exact Seed.SettingEntry.isFor_iff.2 ⟨hkey.symm.trans (hkey'.symm.trans hykey),
        hscope.symm.trans (hscope'.symm.trans hyscope)⟩

namespace EntryWritten

variable {new old : Setting} (h : e.EntryWritten x o new e')
include h

/-- The setting that was written is found under the key and scope of its entry. -/
theorem exactSetting?_eq : e'.store.exactSetting? x.key x.scope = some new := by
  rw [h.exact, if_pos (Seed.SettingEntry.isFor_iff.2 ⟨rfl, rfl⟩)]

/-- The setting that is changed keeps its identifier. -/
theorem id_eq (hold : e.store.exactSetting? x.key x.scope = some old) : new.id = old.id := by
  obtain ⟨value, -, hnew⟩ := h.written
  rw [hnew, hold]
  rfl

/-- What is in the place of the new setting is active. -/
theorem active_of_replaced (he : e.store.WellFormed) {s : Setting}
    (hs : e.store.setting? new.id = some s) : s.active = true := by
  cases hold : e.store.exactSetting? x.key x.scope with
  | none => exact absurd (hs.symm.trans (h.unused hold)) nofun
  | some old =>
    rw [h.id_eq hold, he.setting?_of_exactSetting? hold] at hs
    cases hs
    exact (Store.exactSetting?_eq_some hold).2.1

/-- **Inactive settings stay as they are**, and there are no new ones. An entry looks for an active
setting, and so an inactive one is never written to. -/
theorem mem_values_iff (he : e.store.WellFormed) {s : Setting} (hs : s.active = false) :
    s ∈ e'.store.settings.values ↔ s ∈ e.store.settings.values := by
  have hne : s ≠ new := fun heq => by rw [heq, h.active] at hs; cases hs
  rw [h.engine]
  refine (he.settings_keyed.mem_values_insert new s).trans ⟨?_, fun hmem => .inr ⟨hmem, ?_⟩⟩
  · exact fun hmem => (hmem.resolve_left hne).1
  · intro heq
    have hfind : e.store.setting? s.id = some s := (he.settings_keyed.mem_values_iff s).1 hmem
    rw [heq] at hfind
    rw [h.active_of_replaced he hfind] at hs
    cases hs

/-- **A setting that is changed is no new one.** -/
theorem map_id_values (he : e.store.WellFormed)
    (hold : (e.store.exactSetting? x.key x.scope).isSome = true) :
    e'.store.settings.values.map Setting.id = e.store.settings.values.map Setting.id := by
  obtain ⟨old, hold⟩ := Option.isSome_iff_exists.1 hold
  have hthere : e.store.settings.find? new.id = some old :=
    h.id_eq hold ▸ he.setting?_of_exactSetting? hold
  rw [h.engine]
  show (e.store.settings.insert new.id new).values.map Setting.id = _
  rw [he.settings_keyed.values_insert_of_find? hthere, List.map_map]
  refine List.map_congr_left fun s _ => ?_
  rw [Function.comp_apply]
  split
  · next heq => exact heq.symm
  · rfl

/-- What had a setting under a key and scope has one still, with the same identifier. -/
theorem exists_of_exactSetting? {key : String} {scope : Scope} {s : Setting}
    (hs : e.store.exactSetting? key scope = some s) :
    ∃ s', e'.store.exactSetting? key scope = some s' ∧ s'.id = s.id := by
  rw [h.exact]
  split
  · -- In every other place nothing that is looked for has changed.
    next hfor =>
    obtain ⟨rfl, rfl⟩ := Seed.SettingEntry.isFor_iff.1 hfor
    exact ⟨new, rfl, h.id_eq hs⟩
  · exact ⟨s, hs, rfl⟩

end EntryWritten

/-! ## All entries

The loop is about many places at once, while its entries are each about one. The relation is stated
place by place for this reason. -/

/-- **What the settings of a seed come to.** Under each key and exact scope there is what its
entries make of the setting there; there are no new inactive settings, and no new ones at all if
each entry finds one; and the log tells of one change for each entry. The entries are not said of a
list of settings but of each place by itself, so that it does not matter how those for different
places are mixed in the file. -/
structure SettingsSeeded (e : Engine) (entries : List Seed.SettingEntry) (e' : Engine) : Prop where
  categories : e'.store.categories = e.store.categories
  rules : e'.store.rules = e.store.rules
  turns : ∀ key scope, Seed.Turns e.store.categoryIdNamed? (entries.filter (·.isFor key scope))
    (e.store.exactSetting? key scope) (e'.store.exactSetting? key scope)
  inactive : ∀ s, s.active = false →
    (s ∈ e'.store.settings.values ↔ s ∈ e.store.settings.values)
  ids : (∀ x ∈ entries, (e.store.exactSetting? x.key x.scope).isSome = true) →
    e'.store.settings.values.map Setting.id = e.store.settings.values.map Setting.id
  told : ∃ records, e'.log.records = e.log.records ++ records
    ∧ List.Forall₂ (fun x r => ∃ s, e'.store.exactSetting? x.key x.scope = some s
      ∧ r.subject = .setting s.id) entries records

namespace SettingsSeeded

variable {entries : List Seed.SettingEntry} {e₁ e₂ : Engine}

theorem refl (e : Engine) : e.SettingsSeeded [] e where
  categories := rfl
  rules := rfl
  turns _ _ := .refl _ _
  inactive _ _ := Iff.rfl
  ids _ := rfl
  told := ⟨[], (List.append_nil _).symm, .nil⟩

/-- A setting that was there is there still, as it was or written by the entries. -/
theorem isSome_exactSetting? (h : e.SettingsSeeded entries e') {key : String} {scope : Scope}
    (hold : (e.store.exactSetting? key scope).isSome = true) :
    (e'.store.exactSetting? key scope).isSome = true := by
  obtain ⟨s, hs⟩ := Option.isSome_iff_exists.1 hold
  obtain ⟨s', hs', -⟩ := (h.turns key scope).kept s hs
  rw [hs']
  rfl

/-- **One more entry is written.** For its own place this is one more entry of those for it; for any
other place nothing has changed. -/
theorem concat (h : e.SettingsSeeded entries e₁) (he₁ : e₁.store.WellFormed) {new : Setting}
    (hwritten : e₁.EntryWritten x o new e₂) : e.SettingsSeeded (entries ++ [x]) e₂ where
  categories := by
    rw [hwritten.engine]
    exact h.categories
  rules := by
    rw [hwritten.engine]
    exact h.rules
  turns key scope := by
    obtain ⟨value, hvalue, hnew⟩ := hwritten.written
    have hnamed := hwritten.named
    rw [Store.categoryIdNamed?_congr h.categories] at hnew hnamed
    rw [hwritten.exact, List.filter_append]
    by_cases hfor : x.isFor key scope = true
    · -- The entry is one more of those for this place.
      obtain ⟨rfl, rfl⟩ := Seed.SettingEntry.isFor_iff.1 hfor
      have hlast : [x].filter (·.isFor x.key x.scope) = [x] := List.filter_cons_of_pos hfor
      rw [if_pos hfor, hlast, hnew]
      exact (h.turns _ _).concat hvalue hnamed _ _
    · -- It is none of those for another place, where nothing has changed.
      have hlast : [x].filter (·.isFor key scope) = [] := List.filter_cons_of_neg hfor
      rw [if_neg hfor, hlast, List.append_nil]
      exact h.turns _ _
  inactive s hs := (hwritten.mem_values_iff he₁ hs).trans (h.inactive s hs)
  ids hall := by
    have hold := h.isSome_exactSetting?
      (hall x (List.mem_append_right _ (List.mem_singleton_self x)))
    exact (hwritten.map_id_values he₁ hold).trans
      (h.ids fun y hy => hall y (List.mem_append_left _ hy))
  told := by
    obtain ⟨records, hlog, htold⟩ := h.told
    refine ⟨records ++ [o.record e₁.seedAuthor (.setting new.id)
      (.ofOld (e₁.store.exactSetting? x.key x.scope))
      ((e₁.store.exactSetting? x.key x.scope).map Setting.toJson) (some new.toJson)], ?_,
      List.rel_append ?_ (.cons ⟨new, hwritten.exactSetting?_eq, rfl⟩ .nil)⟩
    · rw [hwritten.engine, ← List.append_assoc, ← hlog]
      rfl
    · -- The settings that earlier records are about are there still, perhaps written once more.
      refine htold.imp fun y r hy => ?_
      obtain ⟨s, hs, hsubject⟩ := hy
      obtain ⟨s', hs', hid⟩ := hwritten.exists_of_exactSetting? hs
      exact ⟨s', hs', by rw [hsubject, hid]⟩

end SettingsSeeded

/-- **The loop over the settings.** Every entry must find a setting in its place, or else the
identifiers of the entries must be fresh. The induction needs this for each entry at the time of its
turn: a setting that was there is there still, and what is fresh stays fresh. -/
theorem Wrote.settingsSeeded {occasion : Nat → Occasion} {entries : List Seed.SettingEntry}
    {n k : Nat} (h : Wrote occasion seedSetting e n entries k e') (he : e.store.WellFormed)
    (hplaces : (∀ x ∈ entries, (e.store.exactSetting? x.key x.scope).isSome = true)
      ∨ e.Fresh occasion n (n + entries.length)) : e.SettingsSeeded entries e' := by
  induction h with
  | nil => exact .refl e
  -- No setting is left out.
  | skip before h ih => exact absurd h seedSetting_ne_ok_none
  | @write done count e₁ e₂ x before h ih =>
    have hdone : e.SettingsSeeded done e₁ := ih <| hplaces.imp
      (fun hall y hy => hall y (List.mem_append_left _ hy))
      (·.mono (Nat.le_refl _)
        (Nat.add_le_add_left (List.length_append ▸ Nat.le_add_right _ _) _))
    have hwell := before.wellFormed step_of_seedSetting he
    have hid : e₁.store.exactSetting? x.key x.scope = none →
        e₁.store.setting? (occasion (n + done.length)).rowId = none := by
      intro hnone
      obtain hall | hfresh := hplaces
      · -- A setting that was there is there still, so no identifier is drawn.
        have hstill := hdone.isSome_exactSetting? (hall x (by simp))
        rw [hnone] at hstill
        cases hstill
      · -- Else the identifier is still fresh when the entry has its turn.
        have hunused := before.fresh step_of_seedSetting he hfresh
        exact (hunused.unused _ (Nat.le_refl _) (by simp)).setting
    obtain ⟨new, hwritten⟩ := exists_entryWritten hwell hid h
    exact hdone.concat hwell hwritten

/-! ## The same entries once more -/

variable {e₁ e₂ : Engine} {entries : List Seed.SettingEntry}

namespace SettingsSeeded

/-- Every entry has a setting in its place, the one that was written last. -/
theorem isSome_of_mem (h : e.SettingsSeeded entries e') (hx : x ∈ entries) :
    (e'.store.exactSetting? x.key x.scope).isSome = true := by
  have hmem : x ∈ entries.filter (·.isFor x.key x.scope) :=
    List.mem_filter.2 ⟨hx, Seed.SettingEntry.isFor_iff.2 ⟨rfl, rfl⟩⟩
  obtain ⟨new, hnew, -⟩ := (h.turns x.key x.scope).last _
    (List.getLast?_eq_some_getLast (List.ne_nil_of_mem hmem))
  rw [hnew]
  rfl

/-- When the same entries are written once more, no setting is new, in whatever order they stand
when this begins. -/
theorem map_id_again (h : e.SettingsSeeded entries e₁) (h' : e'.SettingsSeeded entries e₂)
    (he₁ : e₁.store.WellFormed) (hsettings : e₁.store.settings.rows.Perm e'.store.settings.rows) :
    e₂.store.settings.values.map Setting.id = e'.store.settings.values.map Setting.id := by
  refine h'.ids fun x hx => ?_
  rw [he₁.exactSetting?_eq_of_perm hsettings]
  exact h.isSome_of_mem hx

/-- **Every setting is there still** when the same entries were written once more. It is the same
one, or the entries have turned it into what it was, and now again. -/
theorem exists_again (h : e.SettingsSeeded entries e₁) (h' : e'.SettingsSeeded entries e₂)
    (hsettings : e₁.store.settings.rows.Perm e'.store.settings.rows) (he₁ : e₁.store.WellFormed)
    (he₂ : e₂.store.WellFormed) {s : Setting} (hs : s ∈ e₁.store.settings.values) :
    ∃ s', e₂.store.setting? s.id = some s' ∧ (s' = s ∨ ∃ entries old,
      Seed.Turns e.store.categoryIdNamed? entries old (some s)
      ∧ Seed.Turns e'.store.categoryIdNamed? entries (some s) (some s')) := by
  have hfind : e₁.store.setting? s.id = some s := (he₁.settings_keyed.mem_values_iff s).1 hs
  cases hactive : s.active with
  | false =>
    have hs := (h'.inactive s hactive).2 ((hsettings.map Prod.snd).mem_iff.1 hs)
    exact ⟨s, (he₂.settings_keyed.mem_values_iff s).1 hs, .inl rfl⟩
  | true =>
    have hexact : e₁.store.exactSetting? s.key s.scope = some s :=
      he₁.exactSetting?_eq_some_iff.2 ⟨hfind, hactive, rfl, rfl⟩
    have hfirst := h.turns s.key s.scope
    have hsecond := h'.turns s.key s.scope
    rw [hexact] at hfirst
    rw [he₁.exactSetting?_eq_of_perm hsettings, hexact] at hsecond
    obtain ⟨s', hs', hid, -⟩ := hsecond.kept s rfl
    rw [hs'] at hsecond
    exact ⟨s', hid ▸ he₂.setting?_of_exactSetting? hs', .inr ⟨_, _, hfirst, hsecond⟩⟩

end SettingsSeeded

/-- An entry that was written once can be written again, if the categories are the same and the log
accepts records. Whether it fails depends on nothing else. -/
theorem exists_seedSetting_again {result : Option Engine} (h : seedSetting x e o = .ok result)
    (hconfig : e₁.config = e.config) (hcategories : e₁.store.categories = e.store.categories)
    {o' : Occasion} (ho' : o'.refusal = none) : ∃ e₂, seedSetting x e₁ o' = .ok (some e₂) := by
  obtain ⟨value, new, e', hvalue, hnamed, hset, -⟩ := seedSetting_eq_ok_iff.1 h
  obtain ⟨hadmits, -, -⟩ := setSetting_eq_ok_iff.1 hset
  have hids := Store.categoryIdNamed?_congr hcategories
  have hauthor : e₁.seedAuthor = e.seedAuthor := by
    unfold seedAuthor
    rw [hconfig]
  have hagain : (x.options (x.category.bind e₁.store.categoryIdNamed?) e₁.seedAuthor).Admits e₁
      x.key value o' := by
    rw [hids, hauthor]
    refine ⟨hadmits.key_named, hadmits.type_agrees, ?_, rfl, ?_, hadmits.actor_named, ho'⟩
    · have hstored := hadmits.category_stored
      unfold SettingOptions.checkCategory Store.category? at hstored ⊢
      rw [hcategories]
      exact hstored
    · -- The window of a setting that is seeded has no end.
      unfold Setting.checkWindow
      cases e₁.store.exactSetting? x.key _ <;> rfl
  exact ⟨_, seedSetting_eq_ok_iff.2 ⟨value, _, _, hvalue, hids ▸ hnamed,
    setSetting_eq_ok_iff.2 ⟨hagain, rfl, rfl⟩, rfl⟩⟩

/-- **So the loop can be gone through a second time**, and it is known what it comes to. -/
theorem Wrote.exists_settings_again {occasion occasion' : Nat → Occasion} {n m k : Nat}
    (h : Wrote occasion seedSetting e n entries k e') (he : e.store.WellFormed)
    (hfresh : e.Fresh occasion n (n + entries.length)) (he₁ : e₁.store.WellFormed)
    (hsettings : e₁.store.settings = e'.store.settings)
    (hconfig : e₁.config = e.config) (hcategories : e₁.store.categories = e.store.categories)
    (haccepts : ∀ i < m + entries.length, (occasion' i).refusal = none) :
    ∃ e₂, Wrote occasion' seedSetting e₁ m entries entries.length e₂
      ∧ e₁.SettingsSeeded entries e₂ := by
  have hfound : ∀ x ∈ entries, (e₁.store.exactSetting? x.key x.scope).isSome = true := by
    intro x hx
    rw [Store.exactSetting?_congr hsettings]
    exact (h.settingsSeeded he (.inr hfresh)).isSome_of_mem hx
  have hagain : ∀ {done rest j e₂}, entries = done ++ rest →
      Wrote occasion' seedSetting e₁ m done j e₂ → e₁.SettingsSeeded done e₂ :=
    fun hsplit hdone => hdone.settingsSeeded he₁ <| .inl fun x hx =>
      hfound x (hsplit ▸ List.mem_append_left _ hx)
  obtain ⟨j, e₂, hwrote⟩ : ∃ j e₂, Wrote occasion' seedSetting e₁ m entries j e₂ := by
    refine exists_wrote fun done x rest j e₃ hsplit hdone => ?_
    -- The entry has been written in the first loop, in the engine that there was then.
    obtain ⟨before, after, i, e₀, result, hsplit', hbefore, hok⟩ :=
      h.exists_of_mem (hsplit ▸ List.mem_append_right _ (List.mem_cons_self (a := x)))
    have hlt : m + done.length < m + entries.length := by
      rw [hsplit, List.length_append, List.length_cons]
      omega
    have hfirst := hbefore.settingsSeeded he <| .inr <| hfresh.mono (Nat.le_refl _) (by
      rw [hsplit', List.length_append]
      omega)
    obtain ⟨e₄, hwrite⟩ := exists_seedSetting_again hok
      ((hdone.config_eq step_of_seedSetting).trans
        (hconfig.trans (hbefore.config_eq step_of_seedSetting).symm))
      ((hagain hsplit hdone).categories.trans (hcategories.trans hfirst.categories.symm))
      (haccepts _ hlt)
    exact ⟨_, hwrite⟩
  have hcount := hwrote.count_eq fun _ _ _ => seedSetting_ne_ok_none
  subst hcount
  exact ⟨e₂, hwrote, hagain (List.append_nil _).symm hwrote⟩

end Engine

end Tariff
