import Tariff.Proofs.Run

/-!
# A change that fails changes nothing

The calls that change an engine are written as results: an engine, or an error and
no engine. So nothing can be said of the engine that an error leaves behind, where
the call had begun to stage its changes, or where the place that keeps the records
had been asked to take them. This module writes the six calls once more as
**effects** on a session, one after the other in the order in which they happen: a
transaction is started, changes and records are staged in it, the records are
written, the staged store is published, and the cache drops a key. An effect may
fail, and what was done before it stays done.

Two things are proved. With the log in memory as the place of the records the
effects come to what the calls answer (`effects_eq_answer`), so both are the same
calls. And whatever the place of the records is, if only it writes **all records or
none**, a call that fails leaves the engine as it was: the store, the log and the
cache.

The second part goes by what an effect may do. Checks and staging leave the engine
alone (`Keeps`). Writing the records leaves it alone if it fails (`Atomic`). After
that nothing fails any more (`Succeeds`). Every call is a chain of the first, the
second and the third, in this order.
-/

namespace Tariff

/-! ## Places for records

The records may be kept anywhere: in memory, in a file, with a service. All that the engine has of
such a place is its answer. -/

/-- **A place for audit records**: it is given what it holds and a batch, and answers; and it holds
what it holds then. That it answers and what it holds are two things, so a place may keep half a
batch and refuse, or keep a batch and report a failure. -/
abbrev Sink : Type := AuditLog → List AuditRecord → Except Error Unit × AuditLog

/-- **All of a batch or none of it** is written, and the answer tells which. This is the one thing
that is asked of a place for records. Without it a call that failed could have left records of a
change that was not made. -/
def Sink.AllOrNone (sink : Sink) : Prop :=
  ∀ log batch, sink log batch = (.ok (), ⟨log.records ++ batch⟩)
    ∨ ∃ e, sink log batch = (.error e, log)

/-- The log in memory, which may be told to refuse. -/
def Sink.memory (refusal : Option Error) : Sink := fun log batch =>
  match log.append refusal batch with
  | .ok log' => (.ok (), log')
  | .error e => (.error e, log)

theorem Sink.allOrNone_memory (refusal : Option Error) : (memory refusal).AllOrNone := by
  intro log batch
  cases refusal with
  | none => exact .inl rfl
  | some e => exact .inr ⟨e, rfl⟩

/-! ## Effects

These are the steps that the calls consist of. Each does one thing to the session, so that the order
of things in a call is the order of its effects. -/

/-- **A session**: an engine, and the transaction that is under way. The engine is what others see
of it, while the transaction is seen by nobody else until it is published. -/
structure Session where
  engine : Engine
  tx : Transaction

/-- **Effects on a session.** They may fail, and then leave the session as it has become: in
contrast to a result, nothing is rolled back by failing. -/
abbrev Effects (α : Type) : Type := ExceptT Error (StateM Session) α

namespace Effects

variable {α β : Type}

/-- A check: its result, and nothing done. -/
def check (x : Except Error α) : Effects α := fun s => (x, s)

/-- Starts a transaction. -/
def start : Effects Unit := fun s => (.ok (), { s with tx := .start s.engine.store })

/-- The store as it is staged. -/
def staged : Effects Store := fun s => (.ok s.tx.staged, s)

/-- Stages a change or a record. -/
def stage (f : Transaction → Transaction) : Effects Unit := fun s =>
  (.ok (), { s with tx := f s.tx })

/-- **Has the staged records written**, and publishes the staged store if they are. The order
matters, since the place for records is asked first: if it refuses, the store is still the old one.
Changes that nobody has recorded are refused, and a transaction without changes and records has
nothing to write. -/
def commit (sink : Sink) : Effects Unit := fun s =>
  if s.tx.pending.isEmpty then
    if s.tx.changed then (.error (.auditWrite .unrecorded), s)
    else (.ok (), { s with engine := { s.engine with store := s.tx.staged } })
  else
    match sink s.engine.log s.tx.pending with
    | (.ok (), log) => (.ok (), { s with engine := { s.engine with store := s.tx.staged, log } })
    | (.error e, log) =>
      (.error (Transaction.refusalError e), { s with engine := { s.engine with log } })

/-- Drops what the cache holds for a key. It comes after the commit and cannot fail. -/
def drop (key : String) : Effects Unit := fun s =>
  (.ok (), { s with engine := s.engine.invalidate key })

/-- The record of a change is made and staged, and all is committed. -/
def commitWith (sink : Sink) (record : Except Error AuditRecord) : Effects Unit := do
  let record ← check record
  stage (·.record record)
  commit sink

/-! ### The six calls -/

/-- Writes a setting: what can be checked without the store is checked first, then what is checked
against the staged store, and only then is anything staged. -/
def setSetting (sink : Sink) (key : String) (value : Value) (options : SettingOptions)
    (o : Occasion) : Effects Setting := do
  if Text.isBlank key then throw (.invalid .blankKey)
  check (options.checkType key value)
  start
  check (options.checkCategory (← staged))
  let old := (← staged).exactSetting? key options.scope
  check (options.checkVersion key old)
  let setting := options.written key value old o
  check setting.checkWindow
  stage (·.putSetting setting)
  commitWith sink (AuditRecord.ofSettingChange (.ofOld old) old (some setting) options.author
    o.recordId o.now)
  drop key
  return setting

/-- Deletes a setting. It is taken out before it is known whether it was there; if it was not, the
transaction is left behind. -/
def deleteSetting (sink : Sink) (id : Uuid) (author : Author) (o : Occasion) : Effects Unit := do
  start
  let found := (← staged).setting? id
  stage (·.removeSetting id)
  let old ← check (found.elim (.error (.settingNotFound id)) .ok)
  commitWith sink (AuditRecord.ofSettingChange .deleted (some old) none author o.recordId o.now)
  drop old.key

/-- Creates a category. -/
def createCategory (sink : Sink) (name : String) (description : Option String) (o : Occasion) :
    Effects Category := do
  if Text.isBlank name then throw (.invalid .blankCategoryName)
  start
  if ((← staged).categoryNamed? name).isSome then throw (.invalid (.categoryExists name))
  stage (·.putCategory ⟨o.rowId, name, description⟩)
  commit sink
  return ⟨o.rowId, name, description⟩

/-- Stores a new rule. -/
def createRule (sink : Sink) (draft : Draft) (author : Author) (o : Occasion) : Effects Rule := do
  check (Error.ofCheck draft.validate)
  let rule := Rule.ofDraft draft o.rowId author.actor o.now
  start
  stage (·.putRule rule)
  commitWith sink (AuditRecord.ofRuleChange .created none (some rule) author o.recordId o.now)
  return rule

/-- Writes a stored rule anew. -/
def updateRule (sink : Sink) (id : Uuid) (draft : Draft) (author : Author) (o : Occasion) :
    Effects Rule := do
  check (Error.ofCheck draft.validate)
  start
  let old ← check (((← staged).rule? id).elim (.error (.ruleNotFound id)) .ok)
  let rule := old.revise draft author.actor o.now
  stage (·.putRule rule)
  commitWith sink (AuditRecord.ofRuleChange .updated (some old) (some rule) author o.recordId
    o.now)
  return rule

/-- Deletes a rule. -/
def deleteRule (sink : Sink) (id : Uuid) (author : Author) (o : Occasion) : Effects Unit := do
  start
  let found := (← staged).rule? id
  stage (·.removeRule id)
  let old ← check (found.elim (.error (.ruleNotFound id)) .ok)
  commitWith sink (AuditRecord.ofRuleChange .deleted (some old) none author o.recordId o.now)

end Effects

/-- **The effects of a call that is one change**, with a place for records on each occasion. Reads
change nothing but the cache, and a seed is many changes, of which those before a failure stay. -/
def Call.effects? (sink : Occasion → Sink) : Call → Option (Effects Answer)
  | .setSetting key value options o =>
    some do return .setting (← Effects.setSetting (sink o) key value options o)
  | .deleteSetting id author o => some do
    Effects.deleteSetting (sink o) id author o
    return .deleted
  | .createCategory name description o =>
    some do return .category (← Effects.createCategory (sink o) name description o)
  | .createRule draft author o =>
    some do return .rule (← Effects.createRule (sink o) draft author o)
  | .updateRule id draft author o =>
    some do return .rule (← Effects.updateRule (sink o) id draft author o)
  | .deleteRule id author o => some do
    Effects.deleteRule (sink o) id author o
    return .deleted
  | _ => none

/-! ## The calls are these effects

The calls were written twice, and here the two are held against each other. `Agrees` follows a call
step by step: an effect that only checks or stages is passed over, and a commit answers as the
transaction does. -/

namespace Effects

variable {α β γ : Type}

/-- One effect after another: the second finds the session that the first has left, and is not tried
if the first fails. -/
theorem bind_apply (m : Effects α) (k : α → Effects β) (s : Session) :
    (m >>= k) s = match m s with
      | (.ok a, s') => k a s'
      | (.error x, s') => (.error x, s') := by
  show ExceptT.bindCont k (m s).1 (m s).2 = _
  cases m s with
  | mk result s' => cases result <;> rfl

/-- **What effects come to agrees with a result** that is an engine with something else, or an
error: with the error, the engine is the one at the beginning.

The effects also leave a transaction behind, of which the result knows nothing; so only the engines
are compared. -/
def Agrees (p : Except Error α × Session) (e : Engine) (out : γ → α × Engine) :
    Except Error γ → Prop
  | .ok c => p.1 = .ok (out c).1 ∧ p.2.engine = (out c).2
  | .error x => p.1 = .error x ∧ p.2.engine = e

variable {s : Session} {e : Engine} {out : γ → α × Engine}

/-- A check that both make is the same for both, and where it fails neither has touched
the engine. -/
theorem Agrees.check {x : Except Error β} {k : β → Effects α} {f : β → Except Error γ}
    (hs : s.engine = e) (h : ∀ b, Agrees (k b s) e out (f b)) :
    Agrees ((check x >>= k) s) e out (x >>= f) := by
  cases x with
  | error x => exact ⟨rfl, hs⟩
  | ok b => exact h b

/-- What is known to be there is found. -/
theorem Agrees.found {b : β} {k : β → Effects α} {x : Except Error γ}
    (h : Agrees (k b s) e out x) : Agrees ((Effects.check (.ok b) >>= k) s) e out x := h

/-- The records are accepted or refused as they are by the call. -/
theorem Agrees.commit {refusal : Option Error} {k : Unit → Effects α} {f : Engine → Except Error γ}
    (hs : s.engine = e) (h : ∀ e', Agrees (k () ⟨e', s.tx⟩) e out (f e')) :
    Agrees ((commit (.memory refusal) >>= k) s) e out (e.commit s.tx refusal >>= f) := by
  subst hs
  rw [bind_apply]
  unfold Effects.commit Engine.commit Transaction.commit
  cases s.tx.pending.isEmpty with
  | true =>
    cases s.tx.changed with
    | true => exact ⟨rfl, rfl⟩
    | false => exact h _
  | false =>
    cases refusal with
    | some x => exact ⟨rfl, rfl⟩
    | none => exact h _

/-- The record may be refused before it is staged, as one in nobody's name is. -/
theorem Agrees.commitWith {refusal : Option Error} {record : Except Error AuditRecord}
    {k : Unit → Effects α} {f : Engine → Except Error γ} (hs : s.engine = e)
    (h : ∀ r e', Agrees (k () ⟨e', s.tx.record r⟩) e out (f e')) :
    Agrees ((commitWith (.memory refusal) record >>= k) s) e out
      (record >>= fun r => e.commit (s.tx.record r) refusal >>= f) := by
  cases record with
  | error x => exact ⟨rfl, hs⟩
  | ok r => exact Agrees.commit (s := { s with tx := s.tx.record r }) hs (h r)

/-- The commit may be the last of the effects. -/
theorem Agrees.commitLast {out : Engine → Unit × Engine} {refusal : Option Error}
    {record : Except Error AuditRecord} (hs : s.engine = e)
    (h : ∀ r e', Agrees (.ok (), ⟨e', s.tx.record r⟩) e out (.ok e')) :
    Agrees (Effects.commitWith (.memory refusal) record s) e out
      (record >>= fun r => e.commit (s.tx.record r) refusal) := by
  have hcommit : Agrees ((Effects.commitWith (.memory refusal) record >>= pure) s) e out
      (record >>= fun r => e.commit (s.tx.record r) refusal >>= pure) := .commitWith hs h
  simpa only [bind_pure] using hcommit

theorem Agrees.start {k : Unit → Effects α} {x : Except Error γ}
    (h : Agrees (k () { s with tx := .start s.engine.store }) e out x) :
    Agrees ((start >>= k) s) e out x := h

theorem Agrees.staged {k : Store → Effects α} {x : Except Error γ}
    (h : Agrees (k s.tx.staged s) e out x) : Agrees ((staged >>= k) s) e out x := h

theorem Agrees.stage {g : Transaction → Transaction} {k : Unit → Effects α} {x : Except Error γ}
    (h : Agrees (k () { s with tx := g s.tx }) e out x) : Agrees ((stage g >>= k) s) e out x := h

variable (e) (tx : Transaction) (author : Author) (o : Occasion)

/-- **A setting is written** by the effects as by the call. The steps of the two are the same up to
the commit, and are gone through one by one. -/
theorem agrees_setSetting (key : String) (value : Value) (options : SettingOptions) :
    Agrees (setSetting (.memory o.refusal) key value options o ⟨e, tx⟩) e id
      (e.setSetting key value options o) := by
  unfold setSetting Engine.setSetting
  cases Text.isBlank key with
  | true => exact ⟨rfl, rfl⟩
  | false =>
    refine Agrees.check rfl fun _ => .start <| .staged <| Agrees.check rfl fun _ => .staged ?_
    refine Agrees.check rfl fun _ => ?_
    dsimp only [Transaction.start]
    -- Whether there is an old setting makes no difference to the steps.
    cases e.store.exactSetting? key options.scope with
    | none =>
      refine Agrees.check rfl fun _ => .stage ?_
      exact Agrees.commitWith rfl fun _ _ => ⟨rfl, rfl⟩
    | some old =>
      refine Agrees.check rfl fun _ => .stage ?_
      exact Agrees.commitWith rfl fun _ _ => ⟨rfl, rfl⟩

theorem agrees_deleteSetting (id : Uuid) :
    Agrees (deleteSetting (.memory o.refusal) id author o ⟨e, tx⟩) e (fun e' => ((), e'))
      (e.deleteSetting id author o) := by
  refine .start <| .staged <| .stage ?_
  unfold Engine.deleteSetting Engine.findSetting
  dsimp only [Transaction.start]
  cases e.store.setting? id with
  | none => exact ⟨rfl, rfl⟩
  | some old =>
    refine .found (b := old) ?_
    exact Agrees.commitWith rfl fun _ _ => ⟨rfl, rfl⟩

theorem agrees_createCategory (name : String) (description : Option String) :
    Agrees (createCategory (.memory o.refusal) name description o ⟨e, tx⟩) e id
      (e.createCategory name description o) := by
  unfold createCategory Engine.createCategory
  cases Text.isBlank name with
  | true => exact ⟨rfl, rfl⟩
  | false =>
    refine .start <| .staged ?_
    dsimp only [Transaction.start]
    cases (e.store.categoryNamed? name).isSome with
    | true => exact ⟨rfl, rfl⟩
    | false => exact .stage <| Agrees.commit rfl fun _ => ⟨rfl, rfl⟩

theorem agrees_createRule (draft : Draft) :
    Agrees (createRule (.memory o.refusal) draft author o ⟨e, tx⟩) e id
      (e.createRule draft author o) := by
  refine Agrees.check rfl fun _ => .start <| .stage ?_
  exact Agrees.commitWith rfl fun _ _ => ⟨rfl, rfl⟩

theorem agrees_updateRule (ruleId : Uuid) (draft : Draft) :
    Agrees (updateRule (.memory o.refusal) ruleId draft author o ⟨e, tx⟩) e id
      (e.updateRule ruleId draft author o) := by
  refine Agrees.check rfl fun _ => .start <| .staged ?_
  dsimp only [Transaction.start]
  cases e.store.rule? ruleId with
  | none => exact ⟨rfl, rfl⟩
  | some old =>
    refine .found (b := old) <| .stage ?_
    exact Agrees.commitWith rfl fun _ _ => ⟨rfl, rfl⟩

theorem agrees_deleteRule (id : Uuid) :
    Agrees (deleteRule (.memory o.refusal) id author o ⟨e, tx⟩) e (fun e' => ((), e'))
      (e.deleteRule id author o) := by
  refine .start <| .staged <| .stage ?_
  unfold Engine.deleteRule
  dsimp only [Transaction.start]
  cases e.store.rule? id with
  | none => exact ⟨rfl, rfl⟩
  | some old =>
    refine .found (b := old) ?_
    exact Agrees.commitLast rfl fun _ _ => ⟨rfl, rfl⟩

/-- A change that agrees with a result answers as the result is settled. -/
theorem Agrees.eq_settle {m : Effects α} {x : Except Error (α × Engine)}
    (h : Agrees (m ⟨e, tx⟩) e id x) (answer : α → Answer) :
    ((((do return answer (← m)) : Effects Answer) ⟨e, tx⟩).1.mapError Failure.error,
      (((do return answer (← m)) : Effects Answer) ⟨e, tx⟩).2.engine) = e.settle answer x := by
  rw [bind_apply, ← Prod.eta (m ⟨e, tx⟩)]
  cases x with
  | error x =>
    rw [h.1]
    exact congrArg _ h.2
  | ok c =>
    rw [h.1]
    exact congrArg _ h.2

theorem Agrees.eq_settleDeletion {m : Effects Unit} {x : Except Error Engine}
    (h : Agrees (m ⟨e, tx⟩) e (fun e' => ((), e')) x) :
    ((((do m; return .deleted) : Effects Answer) ⟨e, tx⟩).1.mapError Failure.error,
      (((do m; return .deleted) : Effects Answer) ⟨e, tx⟩).2.engine) = e.settleDeletion x := by
  rw [bind_apply, ← Prod.eta (m ⟨e, tx⟩)]
  cases x with
  | error x =>
    rw [h.1]
    exact congrArg _ h.2
  | ok c =>
    rw [h.1]
    exact congrArg _ h.2

end Effects

/-- **With the log in memory, the effects of a change come to what the engine answers**, and leave
the engine that there is then. So whatever is proved of the effects is proved of the calls, and the
effects are not another program. -/
theorem Call.effects_eq_answer {call : Call} {m : Effects Answer}
    (hm : call.effects? (fun o => .memory o.refusal) = some m) (e : Engine) (tx : Transaction) :
    ((m ⟨e, tx⟩).1.mapError Failure.error, (m ⟨e, tx⟩).2.engine) = e.answer call := by
  -- One case for each call that is a change; the others have no effects.
  cases call with
  | setSetting key value options o =>
    cases hm
    exact (Effects.agrees_setSetting e tx o key value options).eq_settle _ _ .setting
  | deleteSetting id author o =>
    cases hm
    exact (Effects.agrees_deleteSetting e tx author o id).eq_settleDeletion _ _
  | createCategory name description o =>
    cases hm
    exact (Effects.agrees_createCategory e tx o name description).eq_settle _ _ .category
  | createRule draft author o =>
    cases hm
    exact (Effects.agrees_createRule e tx author o draft).eq_settle _ _ .rule
  | updateRule id draft author o =>
    cases hm
    exact (Effects.agrees_updateRule e tx author o id draft).eq_settle _ _ .rule
  | deleteRule id author o =>
    cases hm
    exact (Effects.agrees_deleteRule e tx author o id).eq_settleDeletion _ _
  | _ => cases hm

/-! ## What effects leave behind

Three properties are enough. They compose in one way only: what keeps the engine may stand before
what is atomic, and what succeeds may stand after it. Nothing may follow that could fail once the
records are written, and the calls are written so. -/

namespace Effects

variable {α β : Type}

/-- **The engine is left alone**, both by success and by failure. -/
def Keeps (m : Effects α) : Prop := ∀ s, (m s).2.engine = s.engine

/-- **The engine is left alone by a failure.** Of success nothing is said. -/
def Atomic (m : Effects α) : Prop := ∀ s x, (m s).1 = .error x → (m s).2.engine = s.engine

/-- **There is no failure.** -/
def Succeeds (m : Effects α) : Prop := ∀ s, ∃ a, (m s).1 = .ok a

theorem Succeeds.pure (a : α) : Succeeds (pure a) := fun _ => ⟨a, rfl⟩

theorem Keeps.atomic {m : Effects α} (h : m.Keeps) : m.Atomic := fun s _ _ => h s

theorem Succeeds.atomic {m : Effects α} (h : m.Succeeds) : m.Atomic := by
  intro s x hx
  obtain ⟨a, ha⟩ := h s
  rw [ha] at hx
  cases hx

/-- What succeeds may be followed by what succeeds. -/
theorem Succeeds.bind {m : Effects α} {k : α → Effects β} (hm : m.Succeeds)
    (hk : ∀ a, (k a).Succeeds) : (m >>= k).Succeeds := by
  intro s
  obtain ⟨a, ha⟩ := hm s
  rw [bind_apply, ← Prod.eta (m s), ha]
  exact hk a _

/-- A failure after what leaves the engine alone is one of the rest, and the rest has found the
engine as it was. -/
theorem Keeps.bind {m : Effects α} {k : α → Effects β} (hm : m.Keeps) (hk : ∀ a, (k a).Atomic) :
    (m >>= k).Atomic := by
  intro s x
  have hs := hm s
  rw [bind_apply]
  cases hresult : m s with
  | mk result s' =>
    rw [hresult] at hs
    cases result with
    | error x' => exact fun _ => hs
    | ok a => exact fun hx => (hk a s' x hx).trans hs

/-- What follows does not fail, so a failure is one of the first part, and nothing has
followed it. -/
theorem Atomic.bind {m : Effects α} {k : α → Effects β} (hm : m.Atomic)
    (hk : ∀ a, (k a).Succeeds) : (m >>= k).Atomic := by
  intro s x
  have hs := hm s
  rw [bind_apply]
  cases hresult : m s with
  | mk result s' =>
    rw [hresult] at hs
    cases result with
    | error x' => exact fun _ => hs x' rfl
    | ok a =>
      intro hx
      obtain ⟨b, hb⟩ := hk a s'
      rw [show (k a s').1 = .error x from hx] at hb
      cases hb

theorem keeps_check (x : Except Error α) : (check x).Keeps := fun _ => rfl

theorem keeps_throw (x : Error) : Keeps (throw x : Effects α) := fun _ => rfl

theorem keeps_start : start.Keeps := fun _ => rfl

theorem keeps_staged : staged.Keeps := fun _ => rfl

theorem keeps_stage (f : Transaction → Transaction) : (stage f).Keeps := fun _ => rfl

theorem succeeds_drop (key : String) : (drop key).Succeeds := fun _ => ⟨(), rfl⟩

/-- **Records that are not written leave no trace**, and neither does what they tell of. If the
place for records refuses it has kept nothing, and the staged store is published only after it
has accepted. -/
theorem atomic_commit {sink : Sink} (hsink : sink.AllOrNone) : (commit sink).Atomic := by
  intro s x hx
  unfold commit at hx ⊢
  split at hx
  · split at hx
    · next hempty hchanged => rw [if_pos hempty, if_pos hchanged]
    · cases hx
  · next hpending =>
    rw [if_neg hpending]
    obtain hok | ⟨e, he⟩ := hsink s.engine.log s.tx.pending
    · rw [hok] at hx
      cases hx
    · rw [he]

theorem atomic_commitWith {sink : Sink} (hsink : sink.AllOrNone)
    (record : Except Error AuditRecord) : (commitWith sink record).Atomic :=
  (keeps_check record).bind fun _ => (keeps_stage _).bind fun _ => atomic_commit hsink

/-- What is done unless it is refused leaves the engine alone by a failure if it does so itself. -/
theorem Atomic.refuse {c : Prop} [Decidable c] {x : Error} {m : Effects β} (hm : m.Atomic) :
    Atomic (if c then (throw x : Effects α) >>= fun _ => m else m) := by
  split
  · exact (keeps_throw x).bind fun _ => hm
  · exact hm

variable {sink : Sink}

theorem atomic_setSetting (hsink : sink.AllOrNone) (key : String) (value : Value)
    (options : SettingOptions) (o : Occasion) :
    (setSetting sink key value options o).Atomic := by
  refine Atomic.refuse ?_
  refine (keeps_check _).bind fun _ => ?_
  refine keeps_start.bind fun _ => ?_
  refine keeps_staged.bind fun _ => ?_
  refine (keeps_check _).bind fun _ => ?_
  refine keeps_staged.bind fun _ => ?_
  refine (keeps_check _).bind fun _ => ?_
  refine (keeps_check _).bind fun _ => ?_
  refine (keeps_stage _).bind fun _ => ?_
  -- From here on only the writing of the record can fail.
  refine (atomic_commitWith hsink _).bind fun _ => ?_
  exact (succeeds_drop key).bind fun _ => .pure _

theorem atomic_deleteSetting (hsink : sink.AllOrNone) (id : Uuid) (author : Author)
    (o : Occasion) : (deleteSetting sink id author o).Atomic := by
  refine keeps_start.bind fun _ => ?_
  refine keeps_staged.bind fun _ => ?_
  refine (keeps_stage _).bind fun _ => ?_
  refine (keeps_check _).bind fun old => ?_
  exact (atomic_commitWith hsink _).bind fun _ => succeeds_drop old.key

theorem atomic_createCategory (hsink : sink.AllOrNone) (name : String)
    (description : Option String) (o : Occasion) :
    (createCategory sink name description o).Atomic := by
  refine Atomic.refuse ?_
  refine keeps_start.bind fun _ => ?_
  refine keeps_staged.bind fun _ => ?_
  refine Atomic.refuse ?_
  refine (keeps_stage _).bind fun _ => ?_
  exact (atomic_commit hsink).bind fun _ => .pure _

theorem atomic_createRule (hsink : sink.AllOrNone) (draft : Draft) (author : Author)
    (o : Occasion) : (createRule sink draft author o).Atomic := by
  refine (keeps_check _).bind fun _ => ?_
  refine keeps_start.bind fun _ => ?_
  refine (keeps_stage _).bind fun _ => ?_
  exact (atomic_commitWith hsink _).bind fun _ => .pure _

theorem atomic_updateRule (hsink : sink.AllOrNone) (id : Uuid) (draft : Draft) (author : Author)
    (o : Occasion) : (updateRule sink id draft author o).Atomic := by
  refine (keeps_check _).bind fun _ => ?_
  refine keeps_start.bind fun _ => ?_
  refine keeps_staged.bind fun _ => ?_
  refine (keeps_check _).bind fun _ => ?_
  refine (keeps_stage _).bind fun _ => ?_
  exact (atomic_commitWith hsink _).bind fun _ => .pure _

theorem atomic_deleteRule (hsink : sink.AllOrNone) (id : Uuid) (author : Author)
    (o : Occasion) : (deleteRule sink id author o).Atomic := by
  refine keeps_start.bind fun _ => ?_
  refine keeps_staged.bind fun _ => ?_
  refine (keeps_stage _).bind fun _ => ?_
  refine (keeps_check _).bind fun _ => ?_
  exact atomic_commitWith hsink _

end Effects

/-- **Every change leaves the engine alone by a failure**: checks and staging, then the commit, then
at most a key that is dropped from the cache. -/
theorem Call.atomic_effects {sink : Occasion → Sink} (hsink : ∀ o, (sink o).AllOrNone) {call : Call}
    {m : Effects Answer} (hm : call.effects? sink = some m) : m.Atomic := by
  cases call with
  | setSetting key value options o =>
    cases hm
    exact (Effects.atomic_setSetting (hsink o) key value options o).bind fun _ => .pure _
  | deleteSetting id author o =>
    cases hm
    exact (Effects.atomic_deleteSetting (hsink o) id author o).bind fun _ => .pure _
  | createCategory name description o =>
    cases hm
    exact (Effects.atomic_createCategory (hsink o) name description o).bind fun _ => .pure _
  | createRule draft author o =>
    cases hm
    exact (Effects.atomic_createRule (hsink o) draft author o).bind fun _ => .pure _
  | updateRule id draft author o =>
    cases hm
    exact (Effects.atomic_updateRule (hsink o) id draft author o).bind fun _ => .pure _
  | deleteRule id author o =>
    cases hm
    exact (Effects.atomic_deleteRule (hsink o) id author o).bind fun _ => .pure _
  | _ => cases hm

/-- **A change that fails changes nothing**, whatever made it fail: the store, the log and the cache
are what they were.

This holds of the effects with every place for records that writes all of a batch or none of it, for
whatever reason it refuses and on whichever occasion. With the log in memory the effects are what
the engine does, which is the first part of the statement; without it the second part would be about
effects that nothing is known of. -/
theorem Call.failure_keeps_engine (call : Call) (e : Engine) (tx : Transaction) :
    (∀ m, call.effects? (fun o => .memory o.refusal) = some m →
        ((m ⟨e, tx⟩).1.mapError Failure.error, (m ⟨e, tx⟩).2.engine) = e.answer call)
      ∧ ∀ sink : Occasion → Sink, (∀ o, (sink o).AllOrNone) →
        ∀ m, call.effects? sink = some m → ∀ x, (m ⟨e, tx⟩).1 = .error x →
          (m ⟨e, tx⟩).2.engine.store = e.store ∧ (m ⟨e, tx⟩).2.engine.log = e.log
            ∧ (m ⟨e, tx⟩).2.engine.cache = e.cache := by
  refine ⟨fun m hm => effects_eq_answer hm e tx, fun sink hsink m hm x hx => ?_⟩
  have hengine : (m ⟨e, tx⟩).2.engine = e := Call.atomic_effects hsink hm ⟨e, tx⟩ x hx
  rw [hengine]
  exact ⟨rfl, rfl, rfl⟩

/-- A setting is to be changed whose value is in the cache, and the record is refused. -/
theorem Call.failure_keeps_engine_refused :
    ∃ e m, e = Engine.initial.run
          [.setSetting "a" (.boolean true) { author := ⟨"ann", none⟩ } (.number 1),
          .getSetting "a" {} ⟨2⟩]
      ∧ effects? (fun _ => .memory (some (.persistence "full")))
          (.setSetting "a" (.boolean false) { author := ⟨"ann", none⟩ } (.number 3)) = some m
      ∧ (m ⟨e, .start {}⟩).1 = .error (.auditWrite (.refused "Persistence error: full"))
      ∧ (m ⟨e, .start {}⟩).2.engine.store = e.store ∧ (m ⟨e, .start {}⟩).2.engine.log = e.log
      ∧ (m ⟨e, .start {}⟩).2.engine.cache = e.cache := by
  refine ⟨_, _, rfl, rfl, rfl, ?_⟩
  exact (failure_keeps_engine
    (.setSetting "a" (.boolean false) { author := ⟨"ann", none⟩ } (.number 3)) _ _).2
    (fun _ => .memory (some (.persistence "full"))) (fun _ => Sink.allOrNone_memory _) _ rfl _ rfl

end Tariff
