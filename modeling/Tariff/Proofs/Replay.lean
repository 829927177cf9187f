import Mathlib.Logic.Function.Basic
import Tariff.Proofs.Fresh

/-!
# The audit log tells all

The store and the audit log are written together, but they are two things: the
store holds what is, the log what happened. This module proves that the log alone
suffices. Whoever **replays** it from nothing, storing what each record has as the
new value and forgetting what is deleted, arrives at the snapshots of just the
settings and rules that are stored; and on the way holds, before each record, what
the record has as the old value.

The argument is in two parts. `Step.amends` says what one step does to both: it
leaves log and snapshots alone, or adds one record and changes the snapshots as
this record tells (`AuditRecord.Tells`). `Amends.isTold` says that such a step
keeps the agreement of the two (`IsTold`). That new rows have fresh identifiers is
needed in one place: else a row might be created under the identifier of one that
was deleted, and a history go on after its end.

Versions are counted with 32 bits, here as in the rows.
-/

namespace Tariff

/-! ## Replaying

The log is read with nothing else in hand, so that what it tells may be compared with what the store
holds. -/

/-- **What a record makes of what is known**: a subject that is deleted is forgotten, and of any
other the new value is known. The old value is not looked at, so that what it says can be compared
with what was known. -/
def AuditRecord.replay (known : Subject → Option Json) (r : AuditRecord) : Subject → Option Json :=
  Function.update known r.subject (if r.change = .deleted then none else r.newValue)

/-- **What a log tells**, replayed from nothing, from its first record to its last. -/
def AuditLog.replay (log : AuditLog) : Subject → Option Json :=
  log.records.foldl AuditRecord.replay fun _ => none

/-- A record that is added is replayed last. -/
theorem AuditLog.replay_append (records : List AuditRecord) (r : AuditRecord) :
    AuditLog.replay ⟨records ++ [r]⟩ = r.replay (AuditLog.replay ⟨records⟩) := by
  unfold replay
  rw [List.foldl_append]
  rfl

/-- **The snapshots of what is stored.** Categories have none, as no records are kept of them. -/
def Store.snapshot (s : Store) : Subject → Option Json
  | .setting id => (s.setting? id).map Setting.toJson
  | .rule id => (s.rule? id).map Rule.toJson

/-- The version in a snapshot. -/
def Json.version? (j : Json) : Option UInt32 := (j.member? "version").bind Document.uint32?

/-- How a record has changed its subject, and to which version. A deletion leads to none. -/
def AuditRecord.stage (r : AuditRecord) : Change × Option UInt32 :=
  (r.change, r.newValue.bind Json.version?)

/-- **A life of so many writings**: its subject is created, then updated any number of times, and
its versions are 1, 2, 3 and so on. After 2³² of them the versions begin again from zero. -/
def writings (n : Nat) : List (Change × Option UInt32) :=
  (List.range n).map fun i =>
    (if i = 0 then .created else .updated, some (UInt32.ofNat (i + 1)))

/-- One more writing comes at the end. It is a creation if it is the first. -/
theorem writings_succ (n : Nat) :
    writings (n + 1)
      = writings n ++ [(if n = 0 then .created else .updated, some (UInt32.ofNat (n + 1)))] := by
  unfold writings
  rw [List.range_succ, List.map_append]
  rfl

/-! ## Snapshots

A snapshot is what a record has of a setting or of a rule. Its version can be read off it. -/

/-- A number of 32 bits is read as it was written. -/
theorem Document.uint32?_ofNat (n : UInt32) : Document.uint32? (Json.ofNat n.toNat) = some n := by
  have hlt : n.toNat < 2 ^ 32 := n.toNat_lt
  have hlong : -2 ^ 63 ≤ (n.toNat : Int) ∧ (n.toNat : Int) < 2 ^ 64 := by omega
  have hrange : (0 : Int) ≤ n.toNat ∧ (n.toNat : Int) ≤ 2 ^ 32 - 1 := by omega
  have hnumber : Json.ofNat n.toNat = .number (.int n.toNat hlong) := by
    unfold Json.ofNat Json.ofInt Json.Number.ofInt
    rw [dif_pos hlong]
  have hinteger : Document.integer? false (Json.number (.int n.toNat hlong))
      = some (n.toNat : Int) := if_pos (.inr hrange.1)
  rw [hnumber]
  unfold uint32? int?
  rw [show decide ((0 : Int) < 0) = false from rfl, hinteger]
  dsimp only
  rw [if_pos hrange, Option.map_some, Int.toNat_natCast, UInt32.ofNat_toNat]

/-- The version in the snapshot of a setting is its version. -/
theorem Setting.version?_toJson (s : Setting) : s.toJson.version? = some s.version := by
  have hmember : s.toJson.member? "version" = some (Json.ofNat s.version.toNat) := rfl
  unfold Json.version?
  rw [hmember, Option.bind_some, Document.uint32?_ofNat]

theorem Rule.version?_toJson (r : Rule) : r.toJson.version? = some r.version := by
  have hmember : r.toJson.member? "version" = some (Json.ofNat r.version.toNat) := rfl
  unfold Json.version?
  rw [hmember, Option.bind_some, Document.uint32?_ofNat]

namespace Store

variable (s : Store)

/-- A setting that is stored changes one snapshot, its own. The four lemmas here say so of all that
a change does to rows. -/
theorem snapshot_insert_setting (new : Setting) :
    Store.snapshot { s with settings := s.settings.insert new.id new }
      = Function.update s.snapshot (.setting new.id) (some new.toJson) := by
  funext x
  cases x with
  | setting id =>
    show Option.map _ ((s.settings.insert new.id new).find? id) = _
    rw [Table.find?_insert]
    by_cases hid : id = new.id
    · subst hid
      simp
    · simp [hid, snapshot, setting?]
  | rule id => simp [snapshot, rule?]

/-- One that is deleted has no snapshot any more. -/
theorem snapshot_erase_setting (id : Uuid) :
    Store.snapshot { s with settings := s.settings.erase id }
      = Function.update s.snapshot (.setting id) none := by
  funext x
  cases x with
  | setting id' =>
    show Option.map _ ((s.settings.erase id).find? id') = _
    rw [Table.find?_erase]
    by_cases hid : id' = id
    · simp [hid]
    · simp [hid, snapshot, setting?]
  | rule id' => simp [snapshot, rule?]

/-- A rule that is stored changes its own snapshot. It cannot be that of a setting with the same
identifier, since subjects are told apart by their kind. -/
theorem snapshot_insert_rule (new : Rule) :
    Store.snapshot { s with rules := s.rules.insert new.id new }
      = Function.update s.snapshot (.rule new.id) (some new.toJson) := by
  funext x
  cases x with
  | setting id => simp [snapshot, setting?]
  | rule id =>
    show Option.map _ ((s.rules.insert new.id new).find? id) = _
    rw [Table.find?_insert]
    by_cases hid : id = new.id
    · subst hid
      simp
    · simp [hid, snapshot, rule?]

/-- And one that is deleted has none any more. -/
theorem snapshot_erase_rule (id : Uuid) :
    Store.snapshot { s with rules := s.rules.erase id }
      = Function.update s.snapshot (.rule id) none := by
  funext x
  cases x with
  | setting id' => simp [snapshot, setting?]
  | rule id' =>
    show Option.map _ ((s.rules.erase id).find? id') = _
    rw [Table.find?_erase]
    by_cases hid : id' = id
    · simp [hid]
    · simp [hid, snapshot, rule?]

end Store

/-! ## What one step does

Each step of an engine adds at most one record, and it is enough to say what this record tells. -/

/-- **A record tells of the change** that takes what is known to what is known afterwards. There is
a case for each kind of change. What is written first is at version 1, and what is written anew is
one version on from what it was. -/
inductive AuditRecord.Tells (known : Subject → Option Json) (r : AuditRecord) :
    (Subject → Option Json) → Prop
  | created {j : Json} (absent : known r.subject = none) (change : r.change = .created)
      (old : r.oldValue = none) (new : r.newValue = some j) (version : j.version? = some 1) :
      Tells known r (Function.update known r.subject (some j))
  | updated {j₀ j : Json} {v : UInt32} (present : known r.subject = some j₀)
      (change : r.change = .updated) (old : r.oldValue = some j₀) (new : r.newValue = some j)
      (before : j₀.version? = some v) (version : j.version? = some (v + 1)) :
      Tells known r (Function.update known r.subject (some j))
  | deleted {j₀ : Json} (present : known r.subject = some j₀) (change : r.change = .deleted)
      (old : r.oldValue = some j₀) (new : r.newValue = none) :
      Tells known r (Function.update known r.subject none)

namespace Engine

/-- **What a step does to log and snapshots.** Either nothing, or it adds one record and changes the
snapshots as this record tells. A subject that is created has no history: it is not one that was
deleted before, under the same identifier. -/
inductive Amends (e e' : Engine) : Prop
  | nothing (log : e'.log = e.log) (snapshot : e'.store.snapshot = e.store.snapshot)
  | one (r : AuditRecord) (log : e'.log.records = e.log.records ++ [r])
      (tells : r.Tells e.store.snapshot e'.store.snapshot)
      (fresh : r.change = .created → e.history r.subject = [])

/-- An unused identifier has no history, since every record names an identifier that has
been used. -/
theorem Unused.history_eq_nil {e : Engine} {x : Subject} (h : e.Unused x.id) :
    e.history x = [] := by
  unfold history AuditLog.history
  rw [List.filter_eq_nil_iff]
  intro r hr hx
  exact h.record r hr (congrArg Subject.id (of_decide_eq_true hx))

section Amends

variable {e e' : Engine} {author : Author} {o : Occasion} {x : Subject} {j₀ j : Json}

/-- **A creation**, of a subject without a history. -/
theorem amends_of_created
    (hlog : e'.log.records = e.log.records ++ [o.record author x .created none (some j)])
    (hsnapshot : e'.store.snapshot = Function.update e.store.snapshot x (some j))
    (habsent : e.store.snapshot x = none) (hfresh : e.history x = [])
    (hversion : j.version? = some 1) : e.Amends e' := by
  refine .one _ hlog ?_ (fun _ => hfresh)
  rw [hsnapshot]
  exact .created habsent rfl rfl rfl hversion

/-- **A writing anew**, which raises the version by one. -/
theorem amends_of_updated {v : UInt32}
    (hlog : e'.log.records = e.log.records ++ [o.record author x .updated (some j₀) (some j)])
    (hsnapshot : e'.store.snapshot = Function.update e.store.snapshot x (some j))
    (hpresent : e.store.snapshot x = some j₀) (hbefore : j₀.version? = some v)
    (hversion : j.version? = some (v + 1)) : e.Amends e' := by
  refine .one _ hlog ?_ (fun h => by cases h)
  rw [hsnapshot]
  exact .updated hpresent rfl rfl rfl hbefore hversion

/-- **A deletion**, which leaves no snapshot. -/
theorem amends_of_deleted
    (hlog : e'.log.records = e.log.records ++ [o.record author x .deleted (some j₀) none])
    (hsnapshot : e'.store.snapshot = Function.update e.store.snapshot x none)
    (hpresent : e.store.snapshot x = some j₀) : e.Amends e' := by
  refine .one _ hlog ?_ (fun h => by cases h)
  rw [hsnapshot]
  exact .deleted hpresent rfl rfl rfl

end Amends

/-- **Every step amends log and snapshots alike**, if the identifiers that it draws are unused. One
case for each kind of step; what concerns only categories or the cache amends nothing. -/
theorem Step.amends {e e' : Engine} {ids : List Uuid} {ts : List Instant}
    (h : Step e ids ts e') (he : e.store.WellFormed) (hids : ∀ id ∈ ids, e.Unused id) :
    e.Amends e' := by
  have hsetting : ∀ {id : Uuid} {old : Setting}, e.store.setting? id = some old →
      e.store.snapshot (.setting id) = some old.toJson := fun hold =>
    congrArg (Option.map Setting.toJson) hold
  have hrule : ∀ {id : Uuid} {old : Rule}, e.store.rule? id = some old →
      e.store.snapshot (.rule id) = some old.toJson := fun hold =>
    congrArg (Option.map Rule.toJson) hold
  cases h with
  | @setSetting key value options o new e' h =>
    obtain ⟨-, rfl, rfl⟩ := setSetting_eq_ok_iff.1 h
    cases hold : e.store.exactSetting? key options.scope with
    | none =>
      have hunused := hids o.rowId (List.mem_singleton_self _)
      exact amends_of_created rfl (e.store.snapshot_insert_setting _)
        (congrArg (Option.map Setting.toJson) hunused.setting)
        (Unused.history_eq_nil (x := .setting o.rowId) hunused) (Setting.version?_toJson _)
    | some old =>
      exact amends_of_updated rfl (e.store.snapshot_insert_setting _)
        (hsetting (he.setting?_of_exactSetting? hold)) old.version?_toJson
        (Setting.version?_toJson _)
  | deleteSetting h =>
    obtain ⟨old, hold, -, -, rfl⟩ := deleteSetting_eq_ok_iff.1 h
    obtain rfl := he.settings_keyed _ old hold
    exact amends_of_deleted rfl (e.store.snapshot_erase_setting _) (hsetting hold)
  | createCategory h =>
    obtain ⟨-, -, -, rfl⟩ := createCategory_eq_ok_iff.1 h
    exact .nothing rfl rfl
  | @createRule draft author o new e' h =>
    obtain ⟨-, -, -, rfl, rfl⟩ := createRule_eq_ok_iff.1 h
    have hunused := hids o.rowId (List.mem_singleton_self _)
    exact amends_of_created rfl (e.store.snapshot_insert_rule _)
      (congrArg (Option.map Rule.toJson) hunused.rule)
      (Unused.history_eq_nil (x := .rule o.rowId) hunused) (Rule.version?_toJson _)
  | updateRule h =>
    obtain ⟨-, old, hold, -, -, rfl, rfl⟩ := updateRule_eq_ok_iff.1 h
    obtain rfl := he.rules_keyed _ old hold
    exact amends_of_updated rfl (e.store.snapshot_insert_rule _) (hrule hold) old.version?_toJson
      (Rule.version?_toJson _)
  | deleteRule h =>
    obtain ⟨old, hold, -, -, rfl⟩ := deleteRule_eq_ok_iff.1 h
    obtain rfl := he.rules_keyed _ old hold
    exact amends_of_deleted rfl (e.store.snapshot_erase_rule _) (hrule hold)
  | clearCache => exact .nothing rfl rfl
  | lookUp key r t => exact .nothing rfl rfl

/-! ## The invariant

The log must tell the present snapshots and the stages of all lives, those of deleted subjects as
well, as these are still in the log. -/

/-- **The stages that a history has gone through**: those of a life that goes on as long as the
subject has a snapshot, with the version of its last writing, and has ended otherwise. A subject
that never was has no stages. -/
def IsLife (stages : List (Change × Option UInt32)) : Option Json → Prop
  | some j => ∃ n, 0 < n ∧ stages = writings n ∧ j.version? = some (UInt32.ofNat n)
  | none => stages = [] ∨ ∃ n, 0 < n ∧ stages = writings n ++ [(.deleted, none)]

/-- **The log tells all that there is to tell.** The invariant is more than the first field, since
to keep that one a step has to find the old values and the versions where the log has left them. -/
structure IsTold (e : Engine) : Prop where
  replay : e.log.replay = e.store.snapshot
  /-- The old value of a record is what the records before it tell. -/
  old : ∀ before r after, e.log.records = before ++ r :: after →
    r.oldValue = AuditLog.replay ⟨before⟩ r.subject
      ∧ (r.change = .created → r.oldValue = none)
  life : ∀ x, IsLife ((e.history x).map AuditRecord.stage) (e.store.snapshot x)

end Engine

namespace AuditRecord.Tells

variable {known known' : Subject → Option Json} {r : AuditRecord}

/-- A record that tells of a change replays it. -/
theorem replay_eq (h : r.Tells known known') : r.replay known = known' := by
  unfold AuditRecord.replay
  cases h with
  | created absent change old new version => simp [change, new]
  | updated present change old new before version => simp [change, new]
  | deleted present change old new => simp [change]

/-- Its old value is what was known before. -/
theorem oldValue_eq (h : r.Tells known known') : r.oldValue = known r.subject := by
  cases h with
  | created absent change old new version => rw [old, absent]
  | updated present change old new before version => rw [old, present]
  | deleted present change old new => rw [old, present]

/-- A record of a creation has none. -/
theorem oldValue_eq_none (h : r.Tells known known') (hcreated : r.change = .created) :
    r.oldValue = none := by
  cases h with
  | created absent change old new version => exact old
  | updated present change old new before version => rw [hcreated] at change; cases change
  | deleted present change old new => rw [hcreated] at change; cases change

/-- It leaves other subjects alone. -/
theorem eq_of_ne (h : r.Tells known known') {x : Subject} (hx : x ≠ r.subject) :
    known' x = known x := by
  cases h <;> exact Function.update_of_ne hx _ _

/-- **A life goes on by one stage.** A creation begins it, for which it must not have begun; an
update goes on with the next version; a deletion ends it. -/
theorem isLife (h : r.Tells known known') {stages : List (Change × Option UInt32)}
    (hlife : Engine.IsLife stages (known r.subject)) (hfresh : r.change = .created → stages = []) :
    Engine.IsLife (stages ++ [r.stage]) (known' r.subject) := by
  unfold AuditRecord.stage
  cases h with
  | @created j absent change old new version =>
    rw [Function.update_self, hfresh change, change, new, Option.bind_some, version]
    exact ⟨1, Nat.one_pos, rfl, version⟩
  | @updated j₀ j v present change old new before version =>
    rw [present] at hlife
    obtain ⟨n, hpos, rfl, hversion⟩ := hlife
    -- The version that is raised is the one that the life has come to.
    have hv : v = UInt32.ofNat n := Option.some.inj (before.symm.trans hversion)
    have hnext : j.version? = some (UInt32.ofNat (n + 1)) := by
      rw [version, hv, UInt32.ofNat_add]
      rfl
    rw [Function.update_self, change, new, Option.bind_some, hnext]
    refine ⟨n + 1, Nat.succ_pos n, ?_, hnext⟩
    rw [writings_succ, if_neg (Nat.ne_of_gt hpos)]
  | @deleted j₀ present change old new =>
    rw [present] at hlife
    obtain ⟨n, hpos, rfl, -⟩ := hlife
    rw [Function.update_self, change, new]
    exact .inr ⟨n, hpos, rfl⟩

end AuditRecord.Tells

namespace Engine

/-- **A step that amends log and snapshots alike keeps the log telling all.** Of the old values only
that of the new record has to be looked at. The lives of all subjects stay as they are but for the
one that the record is about. -/
theorem Amends.isTold {e e' : Engine} (h : e.Amends e') (he : e.IsTold) : e'.IsTold := by
  cases h with
  | nothing hlog hsnapshot =>
    constructor
    · rw [hlog, hsnapshot]
      exact he.replay
    · rw [hlog]
      exact he.old
    · intro x
      unfold history
      rw [hlog, hsnapshot]
      exact he.life x
  | one r hlog htells hfresh =>
    have hreplay : AuditLog.replay ⟨e.log.records⟩ = e.store.snapshot := he.replay
    constructor
    · show AuditLog.replay ⟨e'.log.records⟩ = _
      rw [hlog, AuditLog.replay_append, hreplay, htells.replay_eq]
    · intro before r' after hrecords
      rw [hlog] at hrecords
      -- The record is the new one, or it was there.
      rcases List.eq_nil_or_concat after with rfl | ⟨rest, last, rfl⟩
      · obtain ⟨rfl, hlast⟩ := List.append_inj' hrecords rfl
        cases hlast
        rw [hreplay]
        exact ⟨htells.oldValue_eq, htells.oldValue_eq_none⟩
      · rw [List.concat_eq_append, ← List.cons_append, ← List.append_assoc] at hrecords
        obtain ⟨hold, -⟩ := List.append_inj' hrecords rfl
        exact he.old before r' rest hold
    · intro x
      have hhistory : e'.history x = if r.subject = x then e.history x ++ [r] else e.history x := by
        unfold history AuditLog.history
        rw [hlog, List.filter_append]
        by_cases hx : r.subject = x <;> simp [hx]
      rw [hhistory]
      split
      · next hx =>
        subst hx
        rw [List.map_append]
        exact htells.isLife (he.life r.subject) (fun hcreated => by rw [hfresh hcreated]; rfl)
      · next hx =>
        rw [htells.eq_of_ne (Ne.symm hx)]
        exact he.life x

/-- **The logs of all runs of new engines tell all**, by induction over the steps of the run. -/
theorem isTold_run {config : EngineConfig} {e : Engine} (h : Engine.create config = .ok e)
    (calls : List Call) (hids : (calls.flatMap Call.rowIds).Nodup) : (e.run calls).IsTold := by
  refine run_keeps_fresh h calls hids ?_ (fun hstep hwell hunused _ he =>
    (hstep.amends hwell hunused).isTold he)
  obtain ⟨-, rfl⟩ := create_eq_ok_iff.1 h
  constructor
  · funext x
    cases x <;> rfl
  · intro before r after hrecords
    simp at hrecords
  · intro x
    cases x with
    | setting id => exact .inl rfl
    | rule id => exact .inl rfl

end Engine

/-! ## How many records a call adds

So far nothing was said of the number of records. It is counted call by call, since a seed makes
many steps and may end in the middle of them. -/

/-- Whether a call changes a setting or a rule if it succeeds. A seed may change many. -/
def Call.isMutation : Call → Bool
  | .setSetting .. | .deleteSetting .. | .createRule .. | .updateRule .. | .deleteRule .. => true
  | _ => false

namespace Engine

/-- **The number of settings and rules that a call changes.** A seed counts them, up to the entry at
which it fails if it does. What was written before that stays written. -/
def changes (e : Engine) : Call → Nat
  | .seed settings rules occasion =>
    (e.runSeed settings rules occasion).report.settings
      + (e.runSeed settings rules occasion).report.rules
  | c => if c.isMutation && (e.answer c).1.isOk then 1 else 0

/-- So many records are added to the log. -/
def Adds (e e' : Engine) (n : Nat) : Prop :=
  ∃ added, e'.log.records = e.log.records ++ added ∧ added.length = n

/-- What leaves the log as it is adds no records. -/
theorem Adds.of_log_eq {e e' : Engine} (h : e'.log = e.log) : e.Adds e' 0 :=
  ⟨[], by rw [h, List.append_nil], rfl⟩

/-- What is added in two steps is added together. -/
theorem Adds.trans {e e₁ e₂ : Engine} {n m : Nat} (h : e.Adds e₁ n) (h' : e₁.Adds e₂ m) :
    e.Adds e₂ (n + m) := by
  obtain ⟨added, hlog, hlength⟩ := h
  obtain ⟨added', hlog', hlength'⟩ := h'
  refine ⟨added ++ added', ?_, ?_⟩
  · rw [hlog', hlog, List.append_assoc]
  · rw [List.length_append, hlength, hlength']

section Adds

variable {e e' : Engine} {author : Author} {o : Occasion} {id : Uuid}

/-- The changes of one setting or rule add one record each. Making a category adds none. -/
theorem adds_setSetting {key : String} {value : Value} {options : SettingOptions} {new : Setting}
    (h : e.setSetting key value options o = .ok (new, e')) : e.Adds e' 1 := by
  obtain ⟨-, -, rfl⟩ := setSetting_eq_ok_iff.1 h
  exact ⟨[_], rfl, rfl⟩

theorem adds_deleteSetting (h : e.deleteSetting id author o = .ok e') : e.Adds e' 1 := by
  obtain ⟨old, -, -, -, rfl⟩ := deleteSetting_eq_ok_iff.1 h
  exact ⟨[_], rfl, rfl⟩

/-- Of categories no record is kept. -/
theorem adds_createCategory {name : String} {description : Option String} {c : Category}
    (h : e.createCategory name description o = .ok (c, e')) : e.Adds e' 0 := by
  obtain ⟨-, -, -, rfl⟩ := createCategory_eq_ok_iff.1 h
  exact .of_log_eq rfl

theorem adds_createRule {draft : Draft} {new : Rule}
    (h : e.createRule draft author o = .ok (new, e')) : e.Adds e' 1 := by
  obtain ⟨-, -, -, -, rfl⟩ := createRule_eq_ok_iff.1 h
  exact ⟨[_], rfl, rfl⟩

theorem adds_updateRule {draft : Draft} {new : Rule}
    (h : e.updateRule id draft author o = .ok (new, e')) : e.Adds e' 1 := by
  obtain ⟨-, old, -, -, -, -, rfl⟩ := updateRule_eq_ok_iff.1 h
  exact ⟨[_], rfl, rfl⟩

theorem adds_deleteRule (h : e.deleteRule id author o = .ok e') : e.Adds e' 1 := by
  obtain ⟨old, -, -, -, rfl⟩ := deleteRule_eq_ok_iff.1 h
  exact ⟨[_], rfl, rfl⟩

/-- A change that is settled adds a record if it succeeds, and otherwise leaves the engine
as it was. -/
theorem adds_settle {α : Type} (answer : α → Answer) {result : Except Error (α × Engine)}
    (h : ∀ a e', result = .ok (a, e') → e.Adds e' 1) :
    e.Adds (e.settle answer result).2 (if (e.settle answer result).1.isOk then 1 else 0) := by
  cases result with
  | error x => exact .of_log_eq rfl
  | ok result => exact h _ _ rfl

/-- The same of a deletion, which has no result. -/
theorem adds_settleDeletion {result : Except Error Engine}
    (h : ∀ e', result = .ok e' → e.Adds e' 1) :
    e.Adds (e.settleDeletion result).2 (if (e.settleDeletion result).1.isOk then 1 else 0) := by
  cases result with
  | error x => exact .of_log_eq rfl
  | ok e' => exact h e' rfl

/-- **A seed adds a record for each setting and rule that it counts.** It goes through the entries
one by one; the induction is on those still to come, with the count so far. -/
theorem adds_runSeed (e : Engine) (settings : Seed.Settings) (rules : Seed.Rules)
    (occasion : Nat → Occasion) :
    e.Adds (e.runSeed settings rules occasion).engine
      ((e.runSeed settings rules occasion).report.settings
        + (e.runSeed settings rules occasion).report.rules) := by
  refine runSeed_induction (P := fun s => e.Adds s.engine (s.report.settings + s.report.rules))
    settings rules (.of_log_eq rfl) ?_ ?_ ?_
  · intro s entry hs
    obtain ⟨hengine, hreport, -⟩ | ⟨e', hok, hengine, hreport, -⟩ := s.next_cases
    · rw [hengine, hreport]
      exact hs
    · obtain ⟨c, hc⟩ := createCategory_of_seedCategory hok
      rw [hengine, hreport]
      exact hs.trans (adds_createCategory hc)
  · intro s entry hs
    obtain ⟨hengine, hreport, -⟩ | ⟨e', hok, hengine, hreport, -⟩ := s.next_cases
    · rw [hengine, hreport]
      exact hs
    · obtain ⟨value, options, new, hnew⟩ := setSetting_of_seedSetting hok
      rw [hengine, hreport]
      show e.Adds e' (s.report.settings + 1 + s.report.rules)
      rw [Nat.add_right_comm]
      exact hs.trans (adds_setSetting hnew)
  · intro s existing draft hs
    obtain ⟨hengine, hreport, -⟩ | ⟨e', hok, hengine, hreport, -⟩ := s.next_cases
    · rw [hengine, hreport]
      exact hs
    · rw [hengine, hreport]
      obtain ⟨old, new, hnew⟩ | ⟨new, hnew⟩ := updateRule_or_createRule_of_seedRule hok
      · exact hs.trans (adds_updateRule hnew)
      · exact hs.trans (adds_createRule hnew)

/-- **A call adds one record for each setting and rule that it changes**, and no other. -/
theorem adds_perform (e : Engine) (c : Call) : e.Adds (e.perform c) (e.changes c) := by
  cases c with
  | setSetting key value options o => exact adds_settle _ fun _ _ => adds_setSetting
  | deleteSetting id author o => exact adds_settleDeletion fun _ => adds_deleteSetting
  | createCategory name description o =>
    show e.Adds (e.settle .category (e.createCategory name description o)).2 0
    cases h : e.createCategory name description o with
    | error x => exact .of_log_eq rfl
    | ok result => exact adds_createCategory h
  | createRule draft author o => exact adds_settle _ fun _ _ => adds_createRule
  | updateRule id draft author o => exact adds_settle _ fun _ _ => adds_updateRule
  | deleteRule id author o => exact adds_settleDeletion fun _ => adds_deleteRule
  | seed settings rules occasion =>
    have hlog : (e.perform (.seed settings rules occasion)).log
        = (e.runSeed settings rules occasion).engine.log := by
      unfold perform answer seed
      dsimp only
      cases (e.runSeed settings rules occasion).error <;> rfl
    exact (e.adds_runSeed settings rules occasion).trans (.of_log_eq hlog)
  | _ => exact .of_log_eq rfl

end Adds

end Engine

/-- **The audit log tells all.** After any run of a new engine in which no identifier is given
out twice, replaying the log yields the snapshots of the settings and rules that are stored; the
old value of each record is what the records before it tell, and none if it is of a creation; the
next call adds one record for each setting or rule that it changes, and else none; and each
subject was created, then updated any number of times, its versions being 1, 2, 3 and so on, then
deleted at most once.

The records are those of calls that succeed. A call that fails, for whatever reason, leaves the log
alone, and so does one that only reads. -/
theorem log_run_tells {config : EngineConfig} {e : Engine} (h : Engine.create config = .ok e)
    (calls : List Call) (hids : (calls.flatMap Call.rowIds).Nodup) :
    (e.run calls).log.replay = (e.run calls).store.snapshot
      ∧ (∀ before r after, (e.run calls).log.records = before ++ r :: after →
        r.oldValue = AuditLog.replay ⟨before⟩ r.subject
          ∧ (r.change = .created → r.oldValue = none))
      ∧ (∀ c : Call, ∃ added,
        ((e.run calls).perform c).log.records = (e.run calls).log.records ++ added
          ∧ added.length = (e.run calls).changes c)
      ∧ ∀ x, ∃ n, ((e.run calls).history x).map AuditRecord.stage = writings n
        ∨ 0 < n ∧ ((e.run calls).history x).map AuditRecord.stage
          = writings n ++ [(.deleted, none)] := by
  have htold := Engine.isTold_run h calls hids
  refine ⟨htold.replay, htold.old, (e.run calls).adds_perform, fun x => ?_⟩
  have hlife := htold.life x
  cases hx : (e.run calls).store.snapshot x with
  | some j =>
    rw [hx] at hlife
    obtain ⟨n, -, hstages, -⟩ := hlife
    exact ⟨n, .inl hstages⟩
  | none =>
    rw [hx] at hlife
    obtain hnil | ⟨n, hpos, hstages⟩ := hlife
    · exact ⟨0, .inl hnil⟩
    · exact ⟨n, .inr ⟨hpos, hstages⟩⟩

/-- A setting is created, changed and deleted. Its life is over and nothing is stored, which
is what its three records tell. -/
theorem log_run_tells_deleted :
    Engine.create {} = .ok Engine.initial
      ∧ ∃ e, e = Engine.initial.run
          [.setSetting "a" (.boolean true) { author := ⟨"ann", none⟩ } (.number 1),
          .setSetting "a" (.boolean false) { author := ⟨"ann", none⟩ } (.number 2),
          .deleteSetting (Occasion.number 1).rowId ⟨"ann", none⟩ (.number 3)]
        ∧ e.log.replay = e.store.snapshot
        ∧ e.store.snapshot (.setting (Occasion.number 1).rowId) = none
        ∧ ((e.history (.setting (Occasion.number 1).rowId)).map AuditRecord.stage
          = writings 2 ++ [(.deleted, none)]) := by
  obtain ⟨hreplay, -, -, hlives⟩ := log_run_tells Engine.create_initial
    [.setSetting "a" (.boolean true) { author := ⟨"ann", none⟩ } (.number 1),
      .setSetting "a" (.boolean false) { author := ⟨"ann", none⟩ } (.number 2),
      .deleteSetting (Occasion.number 1).rowId ⟨"ann", none⟩ (.number 3)] (by decide)
  refine ⟨rfl, _, rfl, hreplay, rfl, ?_⟩
  have hlife := hlives (.setting (Occasion.number 1).rowId)
  generalize hstages : List.map AuditRecord.stage _ = stages at hlife ⊢
  have hchanges : stages.map Prod.fst = [.created, .updated, .deleted] := by
    rw [← hstages]
    rfl
  obtain ⟨n, rfl | ⟨-, rfl⟩⟩ := hlife
  · have hn : n = 3 := by simpa [writings] using congrArg List.length hchanges
    subst hn
    exact absurd hchanges (by decide)
  · have hn : n = 2 := by simpa [writings] using congrArg List.length hchanges
    rw [hn]

end Tariff
