import Tariff.Store.Basic

/-!
# Transactions

A **transaction** stages changes on a copy of the store and collects the audit
records that tell of them. Nothing is stored before `commit`, which writes the
records and publishes the staged store together: if the log refuses the records,
both stay as they were, and so they do if the transaction is dropped.

No setting or rule is changed without a record: `commit` refuses a transaction
that changed one and has none. Categories only group settings, and need no
record.
-/

namespace Tariff

/-- **Staged changes** and the records of them. -/
structure Transaction where
  staged : Store
  /-- The records to be written, oldest first. -/
  pending : List AuditRecord := []
  /-- Whether a setting or a rule was changed. -/
  changed : Bool := false

namespace Transaction

/-- A transaction on a store, with nothing staged yet. -/
def start (s : Store) : Transaction := { staged := s }

/-- Puts a setting in place of the one with its identifier. -/
def putSetting (tx : Transaction) (setting : Setting) : Transaction :=
  { tx with
    staged := { tx.staged with settings := tx.staged.settings.insert setting.id setting }
    changed := true }

/-- Takes out a setting, if it is there. -/
def removeSetting (tx : Transaction) (id : Uuid) : Transaction :=
  { tx with
    staged := { tx.staged with settings := tx.staged.settings.erase id }
    changed := tx.changed || tx.staged.settings.contains id }

/-- Puts a category in place of the one with its identifier. -/
def putCategory (tx : Transaction) (category : Category) : Transaction :=
  { tx with
    staged := { tx.staged with categories := tx.staged.categories.insert category.id category } }

/-- Puts a rule in place of the one with its identifier. -/
def putRule (tx : Transaction) (rule : Rule) : Transaction :=
  { tx with
    staged := { tx.staged with rules := tx.staged.rules.insert rule.id rule }
    changed := true }

/-- Takes out a rule, if it is there. -/
def removeRule (tx : Transaction) (id : Uuid) : Transaction :=
  { tx with
    staged := { tx.staged with rules := tx.staged.rules.erase id }
    changed := tx.changed || tx.staged.rules.contains id }

/-- Adds a record to those to be written. -/
def record (tx : Transaction) (r : AuditRecord) : Transaction :=
  { tx with pending := tx.pending ++ [r] }

/-- The error that a caller is told when the log refuses records. -/
def refusalError : Error → Error
  | .auditWrite p => .auditWrite p
  | e => .auditWrite (.refused e.message)

/-- **Writes the records and publishes the staged store.** `refusal` is the error
with which the place where records are kept answers, if it does not accept them;
it is not asked where there are none. -/
def commit (tx : Transaction) (log : AuditLog) (refusal : Option Error) :
    Except Error (Store × AuditLog) :=
  if tx.pending.isEmpty then
    if tx.changed then .error (.auditWrite .unrecorded) else .ok (tx.staged, log)
  else
    match log.append refusal tx.pending with
    | .ok log => .ok (tx.staged, log)
    | .error e => .error (refusalError e)

end Transaction

end Tariff
