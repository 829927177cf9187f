import Tariff.Rule.Basic
import Tariff.Setting.Basic

/-!
# The audit log

Every change of a setting or a rule leaves one **record**: what was changed, how,
by whom and when, with snapshots of the subject before and after. The log only
grows. Records are written in batches, one batch per transaction, and the place
they are kept may refuse a batch; it then keeps none of it.
-/

namespace Tariff

/-- **What a record is about.** -/
inductive Subject where
  | setting (id : Uuid)
  | rule (id : Uuid)
deriving DecidableEq

namespace Subject

/-- The subject in words. -/
def display : Subject → String
  | .setting id => s!"setting:{id}"
  | .rule id => s!"rule:{id}"

/-- The subject as a JSON value. -/
def toJson : Subject → Json
  | .setting id => .object [("id", Json.ofUuid id), ("kind", .string "setting")]
  | .rule id => .object [("id", Json.ofUuid id), ("kind", .string "rule")]

/-- The subject of a kind with an identifier. -/
def ofKind? (kind : String) (id : Uuid) : Option Subject :=
  if kind = "setting" then some (.setting id)
  else if kind = "rule" then some (.rule id)
  else none

/-- Reads a subject. -/
def ofDocument? {τ : Type} [Document τ] (d : τ) : Option Subject := do
  let fields ← Document.fields? ["kind", "id"] [] d
  let kind ← Document.required fields "kind" Document.name?
  let id ← Document.required fields "id" Document.uuid?
  ofKind? kind id

end Subject

/-- **How a subject was changed.** -/
inductive Change where
  | created
  | updated
  | deleted
deriving DecidableEq

namespace Change

/-- Every change. -/
def all : List Change := [.created, .updated, .deleted]

/-- The name in documents. -/
def name : Change → String
  | .created => "created"
  | .updated => "updated"
  | .deleted => "deleted"

/-- The change with a name. -/
def ofName? (s : String) : Option Change := all.find? (·.name == s)

/-- Reads a change. -/
def ofDocument? {τ : Type} [Document τ] (d : τ) : Option Change := (Document.name? d).bind ofName?

end Change

/-- **Who makes a change**, and why. -/
structure Author where
  actor : String
  reason : Option String := none

/-- **A record of one change.** -/
structure AuditRecord where
  id : Uuid
  subject : Subject
  change : Change
  /-- The subject before, unless it was created. -/
  oldValue : Option Json
  /-- The subject after, unless it was deleted. -/
  newValue : Option Json
  actor : String
  reason : Option String
  timestamp : Instant

namespace AuditRecord

/-- The record as a JSON value. -/
def toJson (r : AuditRecord) : Json :=
  .object [("action", .string r.change.name), ("actor", .string r.actor), ("id", Json.ofUuid r.id),
    ("new_value", r.newValue.getD .null), ("old_value", r.oldValue.getD .null),
    ("reason", Json.ofText? r.reason), ("subject", r.subject.toJson),
    ("timestamp", Json.ofInstant r.timestamp)]

/-- Reads a record. -/
def ofDocument? {τ : Type} [Document τ] (d : τ) : Option AuditRecord := do
  let fields ← Document.fields? ["id", "subject", "action", "old_value", "new_value", "actor",
    "reason", "timestamp"] [] d
  let id ← Document.required fields "id" Document.uuid?
  let subject ← Document.required fields "subject" Subject.ofDocument?
  let change ← Document.required fields "action" Change.ofDocument?
  let oldValue ← Document.optional fields "old_value" Document.value?
  let newValue ← Document.optional fields "new_value" Document.value?
  let actor ← Document.required fields "actor" Document.text?
  let reason ← Document.optional fields "reason" Document.text?
  let timestamp ← Document.required fields "timestamp" Document.instant?
  some ⟨id, subject, change, oldValue, newValue, actor, reason, timestamp⟩

/-- **The record of a change** of a subject, if there is one, from an old to a new
value. There must be a subject, and the actor must have a name. -/
def ofChange (subject : Option Subject) (change : Change) (oldValue newValue : Option Json)
    (author : Author) (id : Uuid) (t : Instant) : Except Error AuditRecord :=
  match subject with
  | none => .error (.auditWrite .noSubject)
  | some subject =>
    if Text.isBlank author.actor then .error (.invalid .blankActor)
    else .ok ⟨id, subject, change, oldValue, newValue, author.actor, author.reason, t⟩

/-- **The record of a change of a setting**, with snapshots of it before and
after. -/
def ofSettingChange (change : Change) (old new : Option Setting) (author : Author) (id : Uuid)
    (t : Instant) : Except Error AuditRecord :=
  ofChange ((new.or old).map fun s => .setting s.id) change (old.map Setting.toJson)
    (new.map Setting.toJson) author id t

/-- **The record of a change of a rule**, with snapshots of it before and after. -/
def ofRuleChange (change : Change) (old new : Option Rule) (author : Author) (id : Uuid)
    (t : Instant) : Except Error AuditRecord :=
  ofChange ((new.or old).map fun r => .rule r.id) change (old.map Rule.toJson)
    (new.map Rule.toJson) author id t

end AuditRecord

/-- **The audit log**, oldest record first. -/
structure AuditLog where
  records : List AuditRecord := []

namespace AuditLog

/-- **Appends a batch**, all of it or nothing: `refusal` is the error with which
the place where records are kept answers, if it does not accept them. -/
def append (log : AuditLog) (refusal : Option Error) (batch : List AuditRecord) :
    Except Error AuditLog :=
  match refusal with
  | some e => .error e
  | none => .ok ⟨log.records ++ batch⟩

/-- The records of one subject, oldest first. -/
def history (log : AuditLog) (subject : Subject) : List AuditRecord :=
  log.records.filter fun r => r.subject = subject

/-- The number of records. -/
def count (log : AuditLog) : Nat := log.records.length

end AuditLog

end Tariff
