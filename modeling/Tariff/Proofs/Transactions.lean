import Mathlib.Logic.Function.Basic
import Tariff.Proofs.Atomicity
import Tariff.Proofs.Table

/-!
# What a transaction stages, and what becomes of it

A transaction may be used in any way: rows are put and taken out, again and again,
and looked up in between, and records are queued. A **script** is a list of such
operations, and here they are effects on a session like those of the calls.

What a script comes to is said without tables and without flags. The **contents** of
a store are the rows that it has under each identifier, and every operation changes
them at one identifier at most. Each answer is held against the contents that the
operations before it have made (`Op.Answers`), and a script has made a change
where one of its operations puts a setting or rule, or takes one out that was there
just then (`Contents.ChangedBy`), whether or not the contents are the old ones again
in the end.

One operation is compared with what it is to do to the contents, the records and the
flag (`contents_apply`, `pending_apply`, `changed_apply`); a script follows by
induction. A commit is then read off: `atomic_commit` has the failures, and
`commit_eq_ok_iff` says when there is none.
-/

namespace Tariff

/-! ## Operations

The operations are data here, so that a script is a list of them and any use of a transaction is a
script. -/

namespace Transaction

/-- **What may be done in a transaction** before it ends: changes, look-ups, and the queueing of
a record. There is a constructor for each function of a transaction but the last one, which is
the commit. -/
inductive Op
  | putSetting (setting : Setting)
  | removeSetting (id : Uuid)
  | putCategory (category : Category)
  | putRule (rule : Rule)
  | removeRule (id : Uuid)
  | record (r : AuditRecord)
  | setting (id : Uuid)
  | exactSetting (key : String) (scope : Scope)
  | category (id : Uuid)
  | categoryNamed (name : String)
  | rule (id : Uuid)

/-- What is answered: that the operation is done, or the row that was found. -/
inductive Found
  | done
  | setting (row : Option Setting)
  | category (row : Option Category)
  | rule (row : Option Rule)

/-- What an operation makes of the transaction. -/
def Op.apply (tx : Transaction) : Op → Transaction
  | .putSetting row => tx.putSetting row
  | .removeSetting id => tx.removeSetting id
  | .putCategory row => tx.putCategory row
  | .putRule row => tx.putRule row
  | .removeRule id => tx.removeRule id
  | .record r => tx.record r
  | .setting _ | .exactSetting _ _ | .category _ | .categoryNamed _ | .rule _ => tx

/-- What an operation answers. A removal answers the row that it takes out. -/
def Op.found (s : Store) : Op → Found
  | .setting id | .removeSetting id => .setting (s.setting? id)
  | .exactSetting key scope => .setting (s.exactSetting? key scope)
  | .category id => .category (s.category? id)
  | .categoryNamed name => .category (s.categoryNamed? name)
  | .rule id | .removeRule id => .rule (s.rule? id)
  | .putSetting _ | .putCategory _ | .putRule _ | .record _ => .done

/-- The transaction after a script. -/
def after (tx : Transaction) (script : List Op) : Transaction := script.foldl Op.apply tx

/-- The answers to a script. Each is given before the operation takes its effect, from what those
before it have staged. -/
def answers (tx : Transaction) : List Op → List Found
  | [] => []
  | op :: rest => op.found tx.staged :: answers (op.apply tx) rest

end Transaction

namespace Effects

open Transaction

/-- **Does an operation** in the transaction under way. -/
def perform (op : Op) : Effects Found := do
  let s ← staged
  stage (op.apply ·)
  return op.found s

/-- **Starts a transaction and does a script in it.** -/
def transact (script : List Op) : Effects (List Found) := do
  start
  script.mapM perform

end Effects

/-! ## Contents

This is what a transaction is compared with. There is nothing in it of how rows are kept, or of how
a transaction remembers what it has to write. -/

/-- **What is stored under each identifier.** Contents are functions, and there is no order in them,
so that what a script comes to can be said by changing a function at one place. -/
@[ext]
structure Contents where
  settings : Uuid → Option Setting
  categories : Uuid → Option Category
  rules : Uuid → Option Rule

/-- The contents of a store. -/
def Store.contents (s : Store) : Contents := ⟨s.setting?, s.category?, s.rule?⟩

/-- **One of the rows with a property**, or none if no row has it. The store looks through its rows
in some order, and what is first is not determined by the contents. -/
def IsOneOf {α : Type} (rows : Uuid → Option α) (p : α → Prop) : Option α → Prop
  | some a => p a ∧ ∃ id, rows id = some a
  | none => ∀ id a, rows id = some a → ¬p a

namespace Transaction

/-- **What an operation is to do** to the contents. Putting a row under an identifier in use
replaces what is there. -/
def Op.effect (c : Contents) : Op → Contents
  | .putSetting row => { c with settings := Function.update c.settings row.id (some row) }
  | .removeSetting id => { c with settings := Function.update c.settings id none }
  | .putCategory row => { c with categories := Function.update c.categories row.id (some row) }
  | .putRule row => { c with rules := Function.update c.rules row.id (some row) }
  | .removeRule id => { c with rules := Function.update c.rules id none }
  | .record _ | .setting _ | .exactSetting _ _ | .category _ | .categoryNamed _ | .rule _ => c

/-- **What an operation is to answer** where these are the contents. Several active settings may
have one key and scope, and several categories one name; any of them will do. -/
def Op.Answers (c : Contents) : Op → Found → Prop
  | .setting id, found | .removeSetting id, found => found = .setting (c.settings id)
  | .exactSetting key scope, found => ∃ row, found = .setting row
    ∧ IsOneOf c.settings (fun a => a.active = true ∧ a.key = key ∧ a.scope = scope) row
  | .category id, found => found = .category (c.categories id)
  | .categoryNamed name, found => ∃ row, found = .category row
    ∧ IsOneOf c.categories (fun a => a.name = name) row
  | .rule id, found | .removeRule id, found => found = .rule (c.rules id)
  | .putSetting _, found | .putCategory _, found | .putRule _, found | .record _, found =>
    found = .done

/-- Whether an operation **changes a setting or a rule**: it puts one, or takes one out that is
there. To put a row that is there already is a change, and a category is never one. -/
def Op.Changes (c : Contents) : Op → Prop
  | .putSetting _ | .putRule _ => True
  | .removeSetting id => c.settings id ≠ none
  | .removeRule id => c.rules id ≠ none
  | .putCategory _ | .record _ | .setting _ | .exactSetting _ _ | .category _ | .categoryNamed _
  | .rule _ => False

/-- The record that an operation queues. -/
def Op.record? : Op → Option AuditRecord
  | .record r => some r
  | _ => none

end Transaction

open Transaction (Op Found)

/-- The contents that a script is to make of these. -/
def Contents.after (c : Contents) (script : List Op) : Contents := script.foldl Op.effect c

/-- **A script makes a change**: one of its operations does, with the contents that there are when
its turn comes. -/
def Contents.ChangedBy (c : Contents) (script : List Op) : Prop :=
  ∃ before op rest, script = before ++ op :: rest ∧ op.Changes (c.after before)

/-- The place for records has nothing against a batch. For an empty one it is not asked. -/
def Sink.Accepts (sink : Sink) (log : AuditLog) (batch : List AuditRecord) : Prop :=
  batch ≠ [] → (sink log batch).1 = .ok ()

/-! ## One operation

The comparison is made once for each operation. -/

/-- What is found in the values of a table is one of its rows. -/
theorem Table.isOneOf_find?_values {α : Type} (t : Table α) (p : α → Bool) :
    IsOneOf t.find? (fun a => p a = true) (t.values.find? p) := by
  cases h : t.values.find? p with
  | some a => exact ⟨List.find?_some h, (t.mem_values_iff a).1 (List.mem_of_find?_eq_some h)⟩
  | none =>
    intro id a ha
    exact List.find?_eq_none.1 h a ((t.mem_values_iff a).2 ⟨id, ha⟩)

/-- As functions, tables are changed at one place by an insertion. -/
theorem Table.find?_insert_eq_update {α : Type} (t : Table α) (id : Uuid) (a : α) :
    (t.insert id a).find? = Function.update t.find? id (some a) := by
  funext k
  rw [find?_insert, Function.update_apply]

theorem Table.find?_erase_eq_update {α : Type} (t : Table α) (id : Uuid) :
    (t.erase id).find? = Function.update t.find? id none := by
  funext k
  rw [find?_erase, Function.update_apply]

namespace Transaction

variable (tx : Transaction) (op : Op)

/-- **An operation does to what is staged** what it is to do to the contents. -/
theorem contents_apply : (op.apply tx).staged.contents = op.effect tx.staged.contents := by
  cases op with
  | putSetting row => exact Contents.ext (Table.find?_insert_eq_update _ _ _) rfl rfl
  | removeSetting id => exact Contents.ext (Table.find?_erase_eq_update _ _) rfl rfl
  | putCategory row => exact Contents.ext rfl (Table.find?_insert_eq_update _ _ _) rfl
  | putRule row => exact Contents.ext rfl rfl (Table.find?_insert_eq_update _ _ _)
  | removeRule id => exact Contents.ext rfl rfl (Table.find?_erase_eq_update _ _)
  | _ => rfl

/-- **An operation answers from what is staged**, and not from the store that others see. -/
theorem answers_found (s : Store) : op.Answers s.contents (op.found s) := by
  cases op with
  | exactSetting key scope =>
    have h := s.settings.isOneOf_find?_values fun setting =>
      setting.active && setting.key = key && setting.scope = scope
    simp only [Bool.and_eq_true, decide_eq_true_eq, and_assoc] at h
    exact ⟨_, rfl, h⟩
  | categoryNamed name =>
    have h := s.categories.isOneOf_find?_values fun c => c.name = name
    simp only [decide_eq_true_eq] at h
    exact ⟨_, rfl, h⟩
  | _ => rfl

/-- An operation queues the record that it has, behind the others. -/
theorem pending_apply : (op.apply tx).pending = tx.pending ++ op.record?.toList := by
  cases op with
  | record r => rfl
  | _ => exact (List.append_nil _).symm

/-- **The flag is set by the operations that change a setting or rule**, and is never taken back. -/
theorem changed_apply : (op.apply tx).changed = true
    ↔ tx.changed = true ∨ op.Changes tx.staged.contents := by
  cases op with
  | putSetting row => exact ⟨fun _ => .inr trivial, fun _ => rfl⟩
  | putRule row => exact ⟨fun _ => .inr trivial, fun _ => rfl⟩
  | removeSetting id =>
    refine Bool.or_eq_true_iff.trans (or_congr_right ?_)
    exact Option.isSome_iff_ne_none
  | removeRule id =>
    refine Bool.or_eq_true_iff.trans (or_congr_right ?_)
    exact Option.isSome_iff_ne_none
  | _ => exact ⟨.inl, fun h => h.resolve_right id⟩

end Transaction

/-! ## Scripts

A script takes up where the operations before have left off, so the contents and the transaction go
along side by side. -/

theorem Contents.changedBy_nil (c : Contents) : ¬c.ChangedBy [] := by
  rintro ⟨before, op, rest, h, -⟩
  simp at h

/-- The first operation makes a change, or the others do, with what the first one has left. -/
theorem Contents.changedBy_cons (c : Contents) (op : Op) (script : List Op) :
    c.ChangedBy (op :: script) ↔ op.Changes c ∨ (op.effect c).ChangedBy script := by
  constructor
  · rintro ⟨before, op', rest, h, hchanges⟩
    cases before with
    | nil =>
      obtain ⟨rfl, -⟩ := List.cons.inj h
      exact .inl hchanges
    | cons first before =>
      obtain ⟨rfl, hrest⟩ := List.cons.inj h
      exact .inr ⟨before, op', rest, hrest, hchanges⟩
  · rintro (h | ⟨before, op', rest, rfl, h⟩)
    · exact ⟨[], op, script, rfl, h⟩
    · exact ⟨op :: before, op', rest, rfl, h⟩

namespace Transaction

variable (tx : Transaction) (script : List Op)

/-- **What is staged is the contents with the effects of the script.** -/
theorem contents_after : (tx.after script).staged.contents = tx.staged.contents.after script := by
  induction script generalizing tx with
  | nil => rfl
  | cons op script ih =>
    rw [after, List.foldl_cons, ← after, ih, contents_apply]
    rfl

/-- The records are queued in their order. -/
theorem pending_after : (tx.after script).pending = tx.pending ++ script.filterMap Op.record? := by
  induction script generalizing tx with
  | nil => exact (List.append_nil _).symm
  | cons op script ih =>
    rw [after, List.foldl_cons, ← after, ih, pending_apply, List.append_assoc]
    cases hop : op.record? with
    | none => rw [List.filterMap_cons_none hop]; rfl
    | some r => rw [List.filterMap_cons_some hop]; rfl

/-- **The flag tells whether the script made a change.** -/
theorem changed_after : (tx.after script).changed = true
    ↔ tx.changed = true ∨ tx.staged.contents.ChangedBy script := by
  induction script generalizing tx with
  | nil => exact ⟨.inl, fun h => h.resolve_right (Contents.changedBy_nil _)⟩
  | cons op script ih =>
    rw [after, List.foldl_cons, ← after, ih, changed_apply, contents_apply,
      Contents.changedBy_cons, or_assoc]

/-- An answer is found in what the operations before it have staged. -/
theorem answers_getElem? (before rest : List Op) (op : Op) :
    (tx.answers (before ++ op :: rest))[before.length]?
      = some (op.found (tx.after before).staged) := by
  induction before generalizing tx with
  | nil => rfl
  | cons first before ih => exact ih (first.apply tx)

/-- There is an answer to each operation. -/
theorem length_answers : (tx.answers script).length = script.length := by
  induction script generalizing tx with
  | nil => rfl
  | cons op script ih => exact congrArg (· + 1) (ih (op.apply tx))

end Transaction

namespace Effects

open Transaction

/-- As effects on a session, the operations of a script come to what has been said of it. -/
theorem mapM_perform (script : List Op) (s : Session) :
    script.mapM perform s = (.ok (s.tx.answers script), ⟨s.engine, s.tx.after script⟩) := by
  induction script generalizing s with
  | nil => rfl
  | cons op script ih =>
    rw [List.mapM_cons, bind_apply]
    show ((script.mapM perform) >>= _) ⟨s.engine, op.apply s.tx⟩ = _
    rw [bind_apply, ih]
    rfl

/-- **A script does not fail**, and leaves the engine alone. -/
theorem transact_eq (script : List Op) (e : Engine) (tx : Transaction) :
    transact script ⟨e, tx⟩
      = (.ok ((Transaction.start e.store).answers script),
        ⟨e, (Transaction.start e.store).after script⟩) :=
  mapM_perform script ⟨e, .start e.store⟩

/-! ## The end

How a transaction ends depends on three things only: whether there are records, whether there was a
change, and what the place for records says. -/

variable {sink : Sink}

/-- **When a commit succeeds**: nothing speaks against the records, and there is one or nothing
was changed. -/
theorem commit_eq_ok_iff (sink : Sink) (s : Session) :
    (commit sink s).1 = .ok ()
      ↔ sink.Accepts s.engine.log s.tx.pending ∧ (s.tx.pending ≠ [] ∨ s.tx.changed = false) := by
  unfold commit Sink.Accepts
  cases hpending : s.tx.pending with
  | nil => cases s.tx.changed <;> simp
  | cons r rest =>
    -- The log answers, and the commit answers the same.
    cases hanswer : sink s.engine.log (r :: rest) with
    | mk answer log => cases answer <;> simp

/-- **What a commit leaves if it succeeds**: what was staged, and the log with the records. Cache
and configuration are left alone. -/
theorem engine_commit (hsink : sink.AllOrNone) {s : Session} (h : (commit sink s).1 = .ok ()) :
    (commit sink s).2.engine
      = { s.engine with store := s.tx.staged, log := ⟨s.engine.log.records ++ s.tx.pending⟩ } := by
  unfold commit at h ⊢
  cases hpending : s.tx.pending with
  | nil =>
    rw [hpending] at h
    cases hchanged : s.tx.changed with
    | true =>
      rw [hchanged] at h
      cases h
    | false => rw [List.append_nil]; rfl
  | cons r rest =>
    rw [hpending] at h
    obtain hok | ⟨x, hx⟩ := hsink s.engine.log (r :: rest)
    · simp only [List.isEmpty_cons, Bool.false_eq_true, if_false, hok]
    · simp [hx] at h

/-- **With the log in memory, a commit is the one of the engine.** -/
theorem commit_memory (refusal : Option Error) (s : Session) :
    s.engine.commit s.tx refusal
      = (commit (.memory refusal) s).1.map fun _ => (commit (.memory refusal) s).2.engine := by
  unfold Engine.commit Transaction.commit Effects.commit
  cases s.tx.pending.isEmpty with
  | true => cases s.tx.changed <;> rfl
  | false => cases refusal <;> rfl

end Effects

/-- **A transaction is atomic**, whatever is done in it and wherever the records go, if only all of
a batch is written or none. No operation fails. Each answers from the old contents with the effects
of the operations before it, while the engine stays what it is; so a transaction that is dropped at
any point, which does nothing more, has left no trace. The commit succeeds exactly if the records
are accepted, and there is one or no setting or rule was changed on the way. Then the store is what
was staged, which has the effects of the whole script, and the log has the queued records at its
end; otherwise the engine is the old one. With the log in memory, this commit is the engine's.

Whether something was changed is asked of the script and not of its result. A setting that is put
and taken out again has been changed, and a commit without a record is then refused. -/
theorem transaction_atomic {sink : Sink} (hsink : sink.AllOrNone) (e : Engine) (tx : Transaction)
    (script : List Op) :
    ∃ answers s, Effects.transact script ⟨e, tx⟩ = (.ok answers, s)
      ∧ answers.length = script.length
      ∧ (∀ before op rest, script = before ++ op :: rest →
          (Effects.transact before ⟨e, tx⟩).2.engine = e
            ∧ ∃ found, answers[before.length]? = some found
              ∧ op.Answers (e.store.contents.after before) found)
      ∧ s.engine = e
      ∧ s.tx.staged.contents = e.store.contents.after script
      ∧ s.tx.pending = script.filterMap Op.record?
      ∧ ((Effects.commit sink s).1 = .ok ()
          ↔ sink.Accepts e.log s.tx.pending
            ∧ (s.tx.pending ≠ [] ∨ ¬e.store.contents.ChangedBy script))
      ∧ ((Effects.commit sink s).1 = .ok () → (Effects.commit sink s).2.engine
          = { e with store := s.tx.staged, log := ⟨e.log.records ++ s.tx.pending⟩ })
      ∧ (∀ x, (Effects.commit sink s).1 = .error x → (Effects.commit sink s).2.engine = e)
      ∧ ∀ refusal, e.commit s.tx refusal = (Effects.commit (.memory refusal) s).1.map fun _ =>
          (Effects.commit (.memory refusal) s).2.engine := by
  set final : Session := ⟨e, (Transaction.start e.store).after script⟩
  have hchanged : final.tx.changed = false ↔ ¬e.store.contents.ChangedBy script := by
    rw [← Bool.not_eq_true, not_iff_not]
    refine (Transaction.changed_after _ script).trans ⟨fun h => h.resolve_left ?_, .inr⟩
    exact Bool.false_ne_true
  refine ⟨_, final, Effects.transact_eq script e tx, Transaction.length_answers _ _, ?_, rfl,
    Transaction.contents_after _ script, Transaction.pending_after _ script, ?_,
    Effects.engine_commit hsink, fun x => Effects.atomic_commit hsink final x,
    fun refusal => Effects.commit_memory refusal final⟩
  · rintro before op rest rfl
    have hanswers := Transaction.answers_found op ((Transaction.start e.store).after before).staged
    rw [Transaction.contents_after] at hanswers
    refine ⟨by rw [Effects.transact_eq], _, Transaction.answers_getElem? _ before rest op, hanswers⟩
  · rw [Effects.commit_eq_ok_iff, hchanged]

/-- A setting is put and taken out again, and there is no record. The staged store is empty as the
old one, but the commit fails. -/
theorem transaction_atomic_undone : ∃ setting answers s,
    Effects.transact [.putSetting setting, .removeSetting setting.id] ⟨Engine.initial, .start {}⟩
        = (.ok answers, s)
      ∧ s.tx.staged.contents.settings setting.id = none
      ∧ (Effects.commit (.memory none) s).1 = .error (.auditWrite .unrecorded)
      ∧ (Effects.commit (.memory none) s).2.engine = Engine.initial := by
  let setting := ({ author := ⟨"ann", none⟩ } : SettingOptions).written "a" (.boolean true) none
    (.number 1)
  obtain ⟨answers, s, hrun, -, -, -, hstaged, -, -, -, hfailure, -⟩ :=
    transaction_atomic (Sink.allOrNone_memory none) Engine.initial (.start {})
      [.putSetting setting, .removeSetting setting.id]
  have hs : s = ⟨Engine.initial, (Transaction.start Engine.initial.store).after
      [.putSetting setting, .removeSetting setting.id]⟩ := by
    rw [Effects.transact_eq] at hrun
    exact (Prod.mk.inj hrun).2.symm
  have hcommit : (Effects.commit (.memory none) s).1 = .error (.auditWrite .unrecorded) := by
    rw [hs]
    rfl
  refine ⟨setting, answers, s, hrun, ?_, hcommit, hfailure _ hcommit⟩
  rw [hstaged]
  simp only [Contents.after, List.foldl_cons, List.foldl_nil, Op.effect, Function.update_self]

end Tariff
