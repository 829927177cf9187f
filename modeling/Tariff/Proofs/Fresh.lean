import Tariff.Proofs.Uniqueness

/-!
# Fresh identifiers

The identifiers of new rows come from outside. Nothing in the engine makes sure
that they are new; it is promised by whoever gives them. An identifier is
**unused** if no setting or rule has it and no record speaks of one that had.

If no identifier is given out twice during a run, each is unused when a call draws
it, since a step uses no identifiers but those that it draws (`Step.unused`). This
is packed into an induction over runs, `run_keeps_fresh`.
-/

namespace Tariff

/-- The identifier of what a record is about. It does not say whether that is a setting or a rule,
so both may not share one. -/
def Subject.id : Subject → Uuid
  | .setting id => id
  | .rule id => id

/-- A setting found under its key and exact scope is found under its identifier. -/
theorem Store.WellFormed.setting?_of_exactSetting? {s : Store} (hs : s.WellFormed)
    {key : String} {scope : Scope} {x : Setting} (hx : s.exactSetting? key scope = some x) :
    s.setting? x.id = some x :=
  (hs.settings_keyed.mem_values_iff x).1 (Store.exactSetting?_eq_some hx).1

namespace Engine

/-- **What is in the place of a setting that is written** is the setting that it was made of. For a
setting that was found this is its own identifier, under which the table has it and nothing else;
for a new one there must be nothing in its place, which is what is asked of the identifier. -/
theorem place_of_replaced {e e' : Engine} {key : String} {value : Value}
    {options : SettingOptions} {o : Occasion} {new replaced : Setting} (he : e.store.WellFormed)
    (hid : e.store.exactSetting? key options.scope = none → e.store.setting? o.rowId = none)
    (h : e.setSetting key value options o = .ok (new, e'))
    (hreplaced : e.store.setting? new.id = some replaced) :
    replaced.key = key ∧ replaced.scope = options.scope := by
  obtain ⟨-, hnew, -⟩ := setSetting_eq_ok_iff.1 h
  cases hold : e.store.exactSetting? key options.scope with
  | none =>
    rw [hold] at hnew
    have hrow : new.id = o.rowId := by rw [hnew]; rfl
    rw [hrow, hid hold] at hreplaced
    cases hreplaced
  | some old =>
    rw [hold] at hnew
    have hrow : new.id = old.id := by rw [hnew]; rfl
    rw [hrow, he.setting?_of_exactSetting? hold] at hreplaced
    cases hreplaced
    exact (Store.exactSetting?_eq_some hold).2.2

/-- **No setting or rule has the identifier**, and none is known to have had it. The last part is
about rows that have been deleted: their history is still in the log, and a row with their
identifier would be taken for them. -/
structure Unused (e : Engine) (id : Uuid) : Prop where
  setting : e.store.setting? id = none
  rule : e.store.rule? id = none
  record : ∀ r ∈ e.log.records, r.subject.id ≠ id

namespace Unused

variable {e : Engine} {id : Uuid} {author : Author} {o : Occasion}

/-- A record of another subject keeps it unused. -/
theorem append_record (h : e.Unused id) {r : AuditRecord} (hr : r.subject.id ≠ id) :
    ∀ r' ∈ e.log.records ++ [r], r'.subject.id ≠ id := by
  intro r' hr'
  rcases List.mem_append.1 hr' with hold | hnew
  · exact h.record r' hold
  · rwa [List.mem_singleton.1 hnew]

/-- Writing a setting with another identifier keeps it unused, and the same holds of the
other changes. -/
theorem withSetting (h : e.Unused id) {old : Option Setting} {new : Setting} (hid : new.id ≠ id) :
    (e.withSetting old new author o).Unused id where
  setting := by
    rw [setting?_withSetting, if_neg hid.symm]
    exact h.setting
  rule := h.rule
  record := h.append_record hid

theorem withoutSetting (h : e.Unused id) {id' : Uuid} {old : Setting} (hid : old.id ≠ id) :
    (e.withoutSetting id' old author o).Unused id where
  setting := by
    rw [setting?_withoutSetting]
    split
    · rfl
    · exact h.setting
  rule := h.rule
  record := h.append_record hid

theorem withRule (h : e.Unused id) {old : Option Rule} {new : Rule} (hid : new.id ≠ id) :
    (e.withRule old new author o).Unused id where
  setting := h.setting
  rule := by
    show (e.store.rules.insert new.id new).find? id = none
    rw [Table.find?_insert, if_neg hid.symm]
    exact h.rule
  record := h.append_record hid

theorem withoutRule (h : e.Unused id) {id' : Uuid} {old : Rule} (hid : old.id ≠ id) :
    (e.withoutRule id' old author o).Unused id where
  setting := h.setting
  rule := by
    show (e.store.rules.erase id').find? id = none
    rw [Table.find?_erase]
    split
    · rfl
    · exact h.rule
  record := h.append_record hid

end Unused

section Stored

variable {e : Engine} {id id' : Uuid}

/-- A stored setting has another identifier than one that is unused. -/
theorem setting_id_ne_of_unused (he : e.store.WellFormed) (h : e.Unused id) {x : Setting}
    (hx : e.store.setting? id' = some x) : x.id ≠ id := by
  rintro rfl
  have hid : x.id = id' := he.settings_keyed id' x hx
  rw [← hid, h.setting] at hx
  cases hx

theorem rule_id_ne_of_unused (he : e.store.WellFormed) (h : e.Unused id) {x : Rule}
    (hx : e.store.rule? id' = some x) : x.id ≠ id := by
  rintro rfl
  have hid : x.id = id' := he.rules_keyed id' x hx
  rw [← hid, h.rule] at hx
  cases hx

end Stored

/-- **A step uses no identifiers but those that it draws.** A new row has the identifier that is
drawn; a row that is written anew keeps the one that it had, and this was in use before. -/
theorem Step.unused {e e' : Engine} {ids : List Uuid} {ts : List Instant}
    (h : Step e ids ts e') (he : e.store.WellFormed) {id : Uuid} (hid : e.Unused id)
    (hnot : id ∉ ids) : e'.Unused id := by
  cases h with
  | @setSetting key value options o new e' h =>
    obtain ⟨-, rfl, rfl⟩ := setSetting_eq_ok_iff.1 h
    refine hid.withSetting ?_
    cases hold : e.store.exactSetting? key options.scope with
    | none => exact fun hrow => hnot (List.mem_singleton.2 hrow.symm)
    | some old =>
      show old.id ≠ id
      exact setting_id_ne_of_unused he hid (he.setting?_of_exactSetting? hold)
  | deleteSetting h =>
    obtain ⟨old, hold, -, -, rfl⟩ := deleteSetting_eq_ok_iff.1 h
    exact hid.withoutSetting (setting_id_ne_of_unused he hid hold)
  | createCategory h =>
    obtain ⟨-, -, -, rfl⟩ := createCategory_eq_ok_iff.1 h
    exact ⟨hid.setting, hid.rule, hid.record⟩
  | createRule h =>
    obtain ⟨-, -, -, rfl, rfl⟩ := createRule_eq_ok_iff.1 h
    exact hid.withRule (fun hrow => hnot (List.mem_singleton.2 hrow.symm))
  | updateRule h =>
    obtain ⟨-, old, hold, -, -, rfl, rfl⟩ := updateRule_eq_ok_iff.1 h
    refine hid.withRule ?_
    show old.id ≠ id
    exact rule_id_ne_of_unused he hid hold
  | deleteRule h =>
    obtain ⟨old, hold, -, -, rfl⟩ := deleteRule_eq_ok_iff.1 h
    exact hid.withoutRule (rule_id_ne_of_unused he hid hold)
  | clearCache => exact ⟨hid.setting, hid.rule, hid.record⟩
  | lookUp key r t => exact ⟨hid.setting, hid.rule, hid.record⟩

/-- New engines have well-formed stores and have used no identifier. -/
theorem unused_of_create {config : EngineConfig} {e : Engine} (h : Engine.create config = .ok e) :
    e.store.WellFormed ∧ ∀ id, e.Unused id := by
  obtain ⟨-, rfl⟩ := create_eq_ok_iff.1 h
  exact ⟨Store.wellFormed_empty, fun id => ⟨rfl, rfl, by simp⟩⟩

/-- Stores stay well-formed along all steps. -/
theorem Path.wellFormed {e e' : Engine} {ids : List Uuid} {ts : List Instant}
    (h : Path e ids ts e') (he : e.store.WellFormed) : e'.store.WellFormed := by
  induction h with
  | refl => exact he
  | step _ last ih => exact last.wellFormed ih

/-- And what no step draws stays unused. -/
theorem Path.unused {e e' : Engine} {ids : List Uuid} {ts : List Instant}
    (h : Path e ids ts e') (he : e.store.WellFormed) {id : Uuid} (hid : e.Unused id)
    (hnot : id ∉ ids) : e'.Unused id := by
  induction h with
  | refl => exact hid
  | step path last ih =>
    rw [List.mem_append, not_or] at hnot
    exact last.unused (path.wellFormed he) (ih hnot.1) hnot.2

/-- **What no call of a run may draw is unused afterwards.** A call may draw fewer identifiers than
it was given, and a refused call draws none. -/
theorem unused_run {config : EngineConfig} {e : Engine} (h : Engine.create config = .ok e)
    (calls : List Call) {id : Uuid} (hid : id ∉ calls.flatMap Call.rowIds) :
    (e.run calls).Unused id := by
  obtain ⟨ids, ts, hpath, hsublist, -⟩ := e.exists_path_run calls
  obtain ⟨hwell, hunused⟩ := unused_of_create h
  exact hpath.unused hwell (hunused id) (fun hmem => hid (hsublist.subset hmem))

/-- **What every step with fresh identifiers keeps, every run keeps** in which no identifier is
given out twice. The steps look values up only when the calls do.

A property proved in this way may rely on three things at each step: the store is well-formed, what
the step draws is unused, and its readings of the clock are readings of the run. Each of these is an
invariant of its own and need not be carried along. -/
theorem run_keeps_fresh {P : Engine → Prop} {config : EngineConfig} {e : Engine}
    (h : Engine.create config = .ok e) (calls : List Call)
    (hids : (calls.flatMap Call.rowIds).Nodup) (start : P e)
    (hstep : ∀ {e₁ e₂ : Engine} {ids : List Uuid} {ts : List Instant}, Step e₁ ids ts e₂ →
      e₁.store.WellFormed → (∀ id ∈ ids, e₁.Unused id) →
      (∀ t ∈ ts, t ∈ calls.flatMap Call.readings) → P e₁ → P e₂) :
    P (e.run calls) := by
  obtain ⟨ids, ts, hpath, hsublist, hts⟩ := e.exists_path_run calls
  have hnodup : ids.Nodup := hids.sublist hsublist
  obtain ⟨hwell, hunused⟩ := unused_of_create h
  suffices hall : ∀ {ids ts e'}, Path e ids ts e' → ids.Nodup →
      (∀ t ∈ ts, t ∈ calls.flatMap Call.readings) → P e' from hall hpath hnodup hts
  intro ids ts e' hpath
  induction hpath with
  | refl => exact fun _ _ => start
  | step path last ih =>
    intro hnodup hts
    obtain ⟨hfirst, -, hdisjoint⟩ := List.nodup_append.1 hnodup
    refine hstep last (path.wellFormed hwell) (fun id hid => ?_)
      (fun t ht => hts t (List.mem_append_right _ ht))
      (ih hfirst (fun t ht => hts t (List.mem_append_left _ ht)))
    -- What the last step draws has not been drawn before.
    exact path.unused hwell (hunused id) (fun hbefore => hdisjoint id hbefore id hid rfl)

end Engine

end Tariff
