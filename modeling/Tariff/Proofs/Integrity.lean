import Tariff.Proofs.Replay
import Tariff.Proofs.StoredRules

/-!
# What is stored is in order

A setting is checked as it is written, but some of what is stored was not written with
it. Where it takes the place of an old one, its creator is the old one's, and so are
its beginning, its category and its description unless others are given: an old
beginning may stand under a new expiry, and a category that was asked for long ago
under a new value. That a stored setting is **in order** (`Setting.InOrder`) is
therefore an invariant of steps, and speaks of the old fields as of the new ones. That
its category is still there is part of it, since no step takes a category away.

A version is 1 when its row is created, and is raised by one whenever the row is
written anew. The audit log knows how often that was (`AuditLog.timesWritten`), and
the version is this number, counted with 32 bits (`Engine.Counted`). So it is at least
1 as long as the count has not run over.
-/

namespace Tariff

/-! ## Settings in order

What is checked when a setting is written is true of it ever after, since no later step changes a
setting but by writing it. -/

/-- **A setting that is in order**: its key and those who wrote it have names, its type is that of
its value, its category is stored, and its window has an instant in it. It is said with a store,
since the category is a row of another table. -/
structure Setting.InOrder (x : Setting) (s : Store) : Prop where
  key_named : Text.isBlank x.key = false
  creator_named : Text.isBlank x.createdBy = false
  writer_named : Text.isBlank x.updatedBy = false
  type_agrees : x.dataType = x.value.dataType
  category_stored : ∀ id, x.categoryId = some id → ∃ c, s.category? id = some c
  window_open : ∀ t, x.expiryDate = some t → x.effectiveDate < t

/-- What is in order stays so where no category goes. A category may well be replaced by another one
under its identifier. -/
theorem Setting.InOrder.of_categories {x : Setting} {s s' : Store} (h : x.InOrder s)
    (hcategories : ∀ id c, s.category? id = some c → ∃ c', s'.category? id = some c') :
    x.InOrder s' where
  key_named := h.key_named
  creator_named := h.creator_named
  writer_named := h.writer_named
  type_agrees := h.type_agrees
  category_stored := fun id hid => by
    obtain ⟨c, hc⟩ := h.category_stored id hid
    exact hcategories id c hc
  window_open := h.window_open

/-- **The windows that pass the check** are those that end after they begin. Without an end there is
nothing to check. -/
theorem Setting.checkWindow_eq_ok_iff {x : Setting} :
    x.checkWindow = .ok () ↔ ∀ t, x.expiryDate = some t → x.effectiveDate < t := by
  unfold checkWindow
  cases x.expiryDate with
  | none => exact iff_of_true rfl nofun
  | some t =>
    have hopen : ¬ t ≤ x.effectiveDate ↔ x.effectiveDate < t := Int.not_le
    simp [← hopen]

namespace SettingOptions

variable {options : SettingOptions}

/-- **The categories that pass the check** are those that are stored. -/
theorem checkCategory_eq_ok_iff {s : Store} :
    options.checkCategory s = .ok ()
      ↔ ∀ id, options.categoryId = some id → ∃ c, s.category? id = some c := by
  unfold checkCategory
  cases options.categoryId with
  | none => exact iff_of_true rfl nofun
  | some id => simp [Option.isSome_iff_exists]

/-- **What is admitted is in order**, if the setting that it takes the place of is. The creator of
the old one is still its creator, and its category and its beginning are kept where no others are
given; what is given has been checked, and the window has been checked as it comes out. -/
theorem Admits.inOrder {e : Engine} {key : String} {value : Value} {o : Occasion}
    (h : options.Admits e key value o)
    (hold : ∀ old, e.store.exactSetting? key options.scope = some old → old.InOrder e.store) :
    (options.written key value (e.store.exactSetting? key options.scope) o).InOrder e.store := by
  have hkey := options.written_key key value e.store o
  have hcategory := checkCategory_eq_ok_iff.1 h.category_stored
  have hwindow := Setting.checkWindow_eq_ok_iff.1 h.window_open
  cases hfound : e.store.exactSetting? key options.scope with
  | none =>
    rw [hfound] at hwindow
    exact ⟨h.key_named, h.actor_named, h.actor_named, rfl, hcategory, hwindow⟩
  | some old =>
    rw [hfound] at hkey hwindow
    have hinorder := hold old hfound
    refine ⟨by rw [hkey]; exact h.key_named, hinorder.creator_named, h.actor_named, rfl, ?_,
      hwindow⟩
    -- Without a new category the old one stays.
    intro id hid
    rcases Option.or_eq_some_iff.1 hid with hnew | ⟨-, hsame⟩
    · exact hcategory id hnew
    · exact hinorder.category_stored id hsame

end SettingOptions

namespace Engine

/-- **All stored settings are in order.** -/
def SettingsInOrder (e : Engine) : Prop := ∀ x ∈ e.store.settings.values, x.InOrder e.store

/-- **Every step keeps the stored settings in order.** Only writing a setting brings a new one in,
and no step takes a category away. -/
theorem Step.settingsInOrder {e e' : Engine} {ids : List Uuid} {ts : List Instant}
    (h : Step e ids ts e') (he : e.SettingsInOrder) : e'.SettingsInOrder := by
  cases h with
  | @setSetting key value options o new e' h =>
    obtain ⟨hadmits, rfl, rfl⟩ := setSetting_eq_ok_iff.1 h
    have hnew := hadmits.inOrder fun old hold => he old (Store.exactSetting?_eq_some hold).1
    intro x hx
    -- Writing a setting leaves the categories alone.
    rcases e.store.settings.eq_or_mem_values_of_insert hx with rfl | hold
    · exact hnew.of_categories fun id c hc => ⟨c, hc⟩
    · exact (he x hold).of_categories fun id c hc => ⟨c, hc⟩
  | deleteSetting h =>
    obtain ⟨old, -, -, -, rfl⟩ := deleteSetting_eq_ok_iff.1 h
    intro x hx
    exact (he x (e.store.settings.mem_values_of_erase hx)).of_categories fun id c hc => ⟨c, hc⟩
  | @createCategory name description o c e' h =>
    obtain ⟨-, -, rfl, rfl⟩ := createCategory_eq_ok_iff.1 h
    intro x hx
    refine (he x hx).of_categories fun id c hc => ?_
    show ∃ c', (e.store.categories.insert o.rowId _).find? id = some c'
    rw [Table.find?_insert]
    split
    · exact ⟨_, rfl⟩
    · exact ⟨c, hc⟩
  | createRule h =>
    obtain ⟨-, -, -, -, rfl⟩ := createRule_eq_ok_iff.1 h
    exact fun x hx => (he x hx).of_categories fun id c hc => ⟨c, hc⟩
  | updateRule h =>
    obtain ⟨-, old, -, -, -, -, rfl⟩ := updateRule_eq_ok_iff.1 h
    exact fun x hx => (he x hx).of_categories fun id c hc => ⟨c, hc⟩
  | deleteRule h =>
    obtain ⟨old, -, -, -, rfl⟩ := deleteRule_eq_ok_iff.1 h
    exact fun x hx => (he x hx).of_categories fun id c hc => ⟨c, hc⟩
  | clearCache => exact he
  | lookUp key r t => exact he

end Engine

/-! ## Versions

A version is not looked at alone, but beside the log, which tells how often a setting was written.
This gives it a meaning that no check of the row itself could. -/

/-- How often a subject has been written, if it was so many times before a record. A deletion starts
the count anew. -/
def AuditRecord.countWriting (x : Subject) (n : Nat) (r : AuditRecord) : Nat :=
  if r.subject = x then
    match r.change with
    | .created => 1
    | .updated => n + 1
    | .deleted => 0
  else n

/-- **How often a subject has been written** since it was created, the creation included. -/
def AuditLog.timesWritten (log : AuditLog) (x : Subject) : Nat :=
  log.records.foldl (AuditRecord.countWriting x) 0

namespace Engine

/-- **The versions of what is stored are counted**: each is the number of times that its subject was
written. The version is a number of 32 bits, so it is this count but for a multiple of 2 to the
power of 32. -/
def Counted (e : Engine) : Prop :=
  ∀ x j, e.store.snapshot x = some j →
    0 < e.log.timesWritten x ∧ j.version? = some (UInt32.ofNat (e.log.timesWritten x))

namespace Counted

variable {e e' : Engine} {r : AuditRecord}

/-- Where a record is added, the versions of all subjects but its own are counted as before. So only
the subject of the record has to be looked at, and there are three cases for it. -/
theorem of_record (he : e.Counted) {new : Option Json}
    (hlog : e'.log.records = e.log.records ++ [r])
    (hsnapshot : e'.store.snapshot = Function.update e.store.snapshot r.subject new)
    (hnew : ∀ j, new = some j → 0 < r.countWriting r.subject (e.log.timesWritten r.subject)
      ∧ j.version? = some (UInt32.ofNat
          (r.countWriting r.subject (e.log.timesWritten r.subject)))) :
    e'.Counted := by
  intro x j hj
  have htimes : e'.log.timesWritten x = r.countWriting x (e.log.timesWritten x) := by
    unfold AuditLog.timesWritten
    rw [hlog, List.foldl_append]
    rfl
  rw [hsnapshot] at hj
  rw [htimes]
  by_cases hx : x = r.subject
  · subst hx
    rw [Function.update_self] at hj
    exact hnew j hj
  · rw [Function.update_of_ne hx] at hj
    have hother : r.countWriting x (e.log.timesWritten x) = e.log.timesWritten x :=
      if_neg (Ne.symm hx)
    rw [hother]
    exact he x j hj

/-- **What is created is counted** from one. Whatever was counted for the subject before does
not matter. -/
theorem of_created (he : e.Counted) {j : Json} (hlog : e'.log.records = e.log.records ++ [r])
    (hsnapshot : e'.store.snapshot = Function.update e.store.snapshot r.subject (some j))
    (hchange : r.change = .created) (hversion : j.version? = some 1) : e'.Counted := by
  refine he.of_record hlog hsnapshot fun j' hj' => ?_
  cases hj'
  unfold AuditRecord.countWriting
  rw [if_pos rfl, hchange]
  exact ⟨Nat.one_pos, hversion⟩

/-- **What is written anew is counted on**: the version is raised by one, and so is the count. -/
theorem of_updated (he : e.Counted) {j₀ j : Json} {v : UInt32}
    (hlog : e'.log.records = e.log.records ++ [r])
    (hsnapshot : e'.store.snapshot = Function.update e.store.snapshot r.subject (some j))
    (hchange : r.change = .updated) (hpresent : e.store.snapshot r.subject = some j₀)
    (hbefore : j₀.version? = some v) (hversion : j.version? = some (v + 1)) : e'.Counted := by
  refine he.of_record hlog hsnapshot fun j' hj' => ?_
  cases hj'
  have hv := (he _ j₀ hpresent).2
  rw [hbefore] at hv
  unfold AuditRecord.countWriting
  rw [if_pos rfl, hchange, hversion, Option.some.inj hv]
  exact ⟨Nat.succ_pos _, by rw [UInt32.ofNat_add]; rfl⟩

/-- What is deleted has no version. -/
theorem of_deleted (he : e.Counted) (hlog : e'.log.records = e.log.records ++ [r])
    (hsnapshot : e'.store.snapshot = Function.update e.store.snapshot r.subject none) :
    e'.Counted :=
  he.of_record hlog hsnapshot nofun

end Counted

/-- **Every step keeps the versions counted.** A change of a setting or a rule adds its one record,
and the others add none. -/
theorem Step.counted {e e' : Engine} {ids : List Uuid} {ts : List Instant}
    (h : Step e ids ts e') (hs : e.store.WellFormed) (he : e.Counted) : e'.Counted := by
  cases h with
  | @setSetting key value options o new e' h =>
    obtain ⟨-, rfl, rfl⟩ := setSetting_eq_ok_iff.1 h
    cases hold : e.store.exactSetting? key options.scope with
    | none =>
      exact he.of_created rfl (e.store.snapshot_insert_setting _) rfl (Setting.version?_toJson _)
    | some old =>
      exact he.of_updated rfl (e.store.snapshot_insert_setting _) rfl
        (congrArg (Option.map Setting.toJson) (hs.setting?_of_exactSetting? hold))
        old.version?_toJson (Setting.version?_toJson _)
  | deleteSetting h =>
    obtain ⟨old, hold, -, -, rfl⟩ := deleteSetting_eq_ok_iff.1 h
    obtain rfl := hs.settings_keyed _ old hold
    exact he.of_deleted rfl (e.store.snapshot_erase_setting _)
  | createCategory h =>
    obtain ⟨-, -, -, rfl⟩ := createCategory_eq_ok_iff.1 h
    exact he
  | @createRule draft author o new e' h =>
    obtain ⟨-, -, -, rfl, rfl⟩ := createRule_eq_ok_iff.1 h
    exact he.of_created rfl (e.store.snapshot_insert_rule _) rfl (Rule.version?_toJson _)
  | updateRule h =>
    obtain ⟨-, old, hold, -, -, rfl, rfl⟩ := updateRule_eq_ok_iff.1 h
    obtain rfl := hs.rules_keyed _ old hold
    exact he.of_updated rfl (e.store.snapshot_insert_rule _) rfl
      (congrArg (Option.map Rule.toJson) hold) old.version?_toJson (Rule.version?_toJson _)
  | deleteRule h =>
    obtain ⟨old, hold, -, -, rfl⟩ := deleteRule_eq_ok_iff.1 h
    obtain rfl := hs.rules_keyed _ old hold
    exact he.of_deleted rfl (e.store.snapshot_erase_rule _)
  | clearCache => exact he
  | lookUp key r t => exact he

/-- The stored settings of all runs of new engines are in order, as there are none at first. -/
theorem settingsInOrder_run {config : EngineConfig} {e : Engine}
    (h : Engine.create config = .ok e) (calls : List Call) : (e.run calls).SettingsInOrder := by
  obtain ⟨-, rfl⟩ := create_eq_ok_iff.1 h
  exact run_keeps Step.settingsInOrder calls (fun x hx => absurd hx List.not_mem_nil)

/-- The versions in all runs of new engines are counted. -/
theorem counted_run {config : EngineConfig} {e : Engine} (h : Engine.create config = .ok e)
    (calls : List Call) : (e.run calls).Counted := by
  obtain ⟨-, rfl⟩ := create_eq_ok_iff.1 h
  refine (run_keeps (P := fun e => e.store.WellFormed ∧ e.Counted)
    (fun hstep he => ⟨hstep.wellFormed he.1, hstep.counted he.1 he.2⟩) calls
    ⟨Store.wellFormed_empty, ?_⟩).2
  rintro (id | id) j hj <;> cases hj

end Engine

/-- **A version that counts writings** is at least one, unless the count has run over. -/
theorem one_le_of_version {version : UInt32} {n : Nat}
    (hversion : version = UInt32.ofNat n) (hpos : 0 < n) (hn : n < 2 ^ 32) : 1 ≤ version := by
  rw [hversion, UInt32.le_iff_toNat_le, UInt32.toNat_ofNat_of_lt' hn]
  exact hpos

/-- **What is stored is in order.** After any run of a new engine every stored setting has a key
and authors with names, the type of its value, a category that is stored if it has one, and an end
after its beginning if it has one; and every stored rule passes validation. Their versions are the
numbers of times that they were written, as the log tells, and so are at least 1 if that was fewer
than 2 ^ 32 times.

None of this is checked when settings and rules are read. It rests on the checks that are made when
they are written, and on what rows take over from those whose place they take. -/
theorem stored_run_inOrder {config : EngineConfig} {e : Engine} (h : Engine.create config = .ok e)
    (calls : List Call) {e' : Engine} (he' : e' = e.run calls) :
    (∀ x ∈ e'.store.settings.values, x.InOrder e'.store
        ∧ x.version = UInt32.ofNat (e'.log.timesWritten (.setting x.id))
        ∧ (e'.log.timesWritten (.setting x.id) < 2 ^ 32 → 1 ≤ x.version))
      ∧ ∀ rule ∈ e'.store.rules.values, rule.toDraft.validate = .ok ()
        ∧ rule.version = UInt32.ofNat (e'.log.timesWritten (.rule rule.id))
        ∧ (e'.log.timesWritten (.rule rule.id) < 2 ^ 32 → 1 ≤ rule.version) := by
  have hs : e'.store.WellFormed := he' ▸ Engine.wellFormed_run h calls
  have hinorder : e'.SettingsInOrder := he' ▸ Engine.settingsInOrder_run h calls
  have hvalid : e'.RulesValid := he' ▸ Engine.rulesValid_run h calls
  have hcounted : e'.Counted := he' ▸ Engine.counted_run h calls
  constructor
  · intro x hx
    have hfound : e'.store.setting? x.id = some x := (hs.settings_keyed.mem_values_iff x).1 hx
    obtain ⟨hpos, hversion⟩ := hcounted (.setting x.id) x.toJson
      (congrArg (Option.map Setting.toJson) hfound)
    rw [x.version?_toJson] at hversion
    have hcount := Option.some.inj hversion
    exact ⟨hinorder x hx, hcount, one_le_of_version hcount hpos⟩
  · intro rule hrule
    have hfound : e'.store.rule? rule.id = some rule :=
      (hs.rules_keyed.mem_values_iff rule).1 hrule
    obtain ⟨hpos, hversion⟩ := hcounted (.rule rule.id) rule.toJson
      (congrArg (Option.map Rule.toJson) hfound)
    rw [rule.version?_toJson] at hversion
    have hcount := Option.some.inj hversion
    exact ⟨hvalid rule hrule, hcount, one_le_of_version hcount hpos⟩

/-- A setting is filed under a category and written again with an end, but without a category. It
stays where it was filed, and has been written twice. -/
theorem stored_run_inOrder_again :
    Engine.create {} = .ok Engine.initial
      ∧ ∃ e' x, e' = Engine.initial.run
          [.createCategory "fees" none (.number 1),
          .setSetting "a" (.boolean true)
            { categoryId := some (Occasion.number 1).rowId, author := ⟨"ann", none⟩ } (.number 2),
          .setSetting "a" (.boolean false)
            { expiryDate := some ⟨9⟩, author := ⟨"bob", none⟩ } (.number 3)]
        ∧ x ∈ e'.store.settings.values
        ∧ x.categoryId = some (Occasion.number 1).rowId ∧ x.InOrder e'.store
        ∧ e'.log.timesWritten (.setting x.id) = 2 ∧ 1 ≤ x.version := by
  have hstored := (stored_run_inOrder Engine.create_initial
    [.createCategory "fees" none (.number 1),
    .setSetting "a" (.boolean true)
      { categoryId := some (Occasion.number 1).rowId, author := ⟨"ann", none⟩ } (.number 2),
    .setSetting "a" (.boolean false)
      { expiryDate := some ⟨9⟩, author := ⟨"bob", none⟩ } (.number 3)] rfl).1
  obtain ⟨hinorder, -, hversion⟩ := hstored _ (.head _)
  exact ⟨rfl, _, _, rfl, .head _, rfl, hinorder, rfl, hversion (by decide)⟩

end Tariff
