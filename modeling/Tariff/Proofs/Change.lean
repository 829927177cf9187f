import Mathlib.Data.List.Forall2
import Tariff.Engine.Seed

/-!
# What a change comes to

Six calls change an engine. Each makes its checks, writes one transaction and, for
settings, drops what the cache holds for the key. This module says once when each
succeeds and what the engine is then: `setSetting_eq_ok_iff` and its five
siblings. Later modules use these and do not open the calls again.

The five engines that may result are spelled out by `withSetting`,
`withoutSetting`, `withCategory`, `withRule` and `withoutRule`. All but the third
add one record to the log.
-/

namespace Tariff

/-! ## Computations that may fail

Each call is a computation in several steps, the first of which that fails ends it. So that it
succeeds is said of all its steps, and that it fails of one of them. -/

section Except

variable {ε α β : Type} {m : Except ε α}

/-- A computation in two steps succeeds where both do. What the first has answered is named, so that
a chain of steps comes apart into what each of them answered. -/
theorem bind_eq_ok_iff {f : α → Except ε β} {b : β} :
    m >>= f = .ok b ↔ ∃ a, m = .ok a ∧ f a = .ok b := by
  cases m with
  | error e => simp [bind, Except.bind]
  | ok a => simp [bind, Except.bind]

/-- A computation in two steps fails where one of them does, and with the error of the first
that does. -/
theorem bind_eq_error_iff {f : α → Except ε β} {x : ε} :
    m >>= f = .error x ↔ m = .error x ∨ ∃ a, m = .ok a ∧ f a = .error x := by
  cases m <;> simp [bind, Except.bind]

/-- A check says that something was accepted, and nothing else. -/
theorem bind_check_eq_ok_iff {m : Except ε Unit} {f : Unit → Except ε β} {b : β} :
    m >>= f = .ok b ↔ m = .ok () ∧ f () = .ok b := by
  rw [bind_eq_ok_iff]
  exact ⟨fun ⟨_, hm, hf⟩ => ⟨hm, hf⟩, fun ⟨hm, hf⟩ => ⟨(), hm, hf⟩⟩

/-- A computation that begins with an error does not succeed. -/
theorem throw_bind_ne_ok (x : ε) (f : α → Except ε β) (b : β) : throw x >>= f ≠ .ok b := by
  intro h
  cases h

/-! ### Lists -/

section Lists

variable {l : List α}

/-- A list is checked one by one, and passes where all of it does. -/
theorem forM_eq_ok_iff {f : α → Except ε Unit} :
    l.forM f = .ok () ↔ ∀ a ∈ l, f a = .ok () := by
  induction l with
  | nil => exact iff_of_true rfl nofun
  | cons a rest ih =>
    show (f a >>= fun _ => rest.forM f) = .ok () ↔ _
    rw [List.forall_mem_cons, ← ih]
    cases f a <;> simp [bind, Except.bind]

/-- A list fails with what one of its items fails with. Which item that is, the first that fails, is
left out here. -/
theorem exists_of_forM_eq_error {f : α → Except ε Unit} {x : ε} (h : l.forM f = .error x) :
    ∃ a ∈ l, f a = .error x := by
  induction l with
  | nil => cases h
  | cons a rest ih =>
    obtain h | ⟨-, -, h⟩ := bind_eq_error_iff.1 (h : (f a >>= fun _ => rest.forM f) = .error x)
    · exact ⟨a, List.mem_cons_self, h⟩
    · obtain ⟨b, hb, h⟩ := ih h
      exact ⟨b, List.mem_cons_of_mem _ hb, h⟩

/-- **What comes of a list item by item**: each item has its result, in order, and there is no
result for the list unless all items have one. -/
theorem mapM_eq_ok_iff {f : α → Except ε β} {bs : List β} :
    l.mapM f = .ok bs ↔ List.Forall₂ (fun a b => f a = .ok b) l bs := by
  induction l generalizing bs with
  | nil =>
    rw [List.mapM_nil, List.forall₂_nil_left_iff]
    exact ⟨fun h => (Except.ok.inj h).symm, fun h => congrArg Except.ok h.symm⟩
  | cons a rest ih =>
    simp only [List.mapM_cons, bind_eq_ok_iff, List.forall₂_cons_left_iff]
    constructor
    · rintro ⟨b, hb, others, hothers, h⟩
      cases h
      exact ⟨b, others, hb, ih.1 hothers, rfl⟩
    · rintro ⟨b, others, hb, hothers, rfl⟩
      exact ⟨b, hb, others, ih.2 hothers, rfl⟩

end Lists

/-! ### The error -/

/-- The error of a computation, if it fails. It is for statements about the error alone, where what
the computation answers otherwise is of no interest. -/
def errorOf : Except ε α → Option ε
  | .error x => some x
  | .ok _ => none

theorem errorOf_eq_some_iff {x : ε} : errorOf m = some x ↔ m = .error x := by
  cases m <;> simp [errorOf]

theorem errorOf_eq_none_iff : errorOf m = none ↔ ∃ a, m = .ok a := by
  cases m <;> simp [errorOf]

/-- After a step that succeeds, the error is that of the next one. -/
theorem errorOf_bind_of_ok {a : α} (h : m = .ok a) (f : α → Except ε β) :
    errorOf (m >>= f) = errorOf (f a) := by
  rw [h]
  rfl

/-- A last step that cannot fail leaves the error as it is. -/
theorem errorOf_bind_pure (f : α → β) : errorOf (m >>= fun a => pure (f a)) = errorOf m := by
  cases m <;> rfl

end Except

/-- A check that is reported as an error of a call accepts what it accepted. -/
theorem ofCheck_eq_ok_iff {α : Type} {x : Except Problem α} {a : α} :
    Error.ofCheck x = .ok a ↔ x = .ok a := by
  cases x with
  | error e => exact iff_of_false (fun h => by cases h) (fun h => by cases h)
  | ok b =>
    show Except.ok b = Except.ok a ↔ Except.ok b = Except.ok a
    rw [Except.ok.injEq, Except.ok.injEq]

/-- How a subject is changed by being written: it may have been there before. -/
def Change.ofOld {α : Type} : Option α → Change
  | none => .created
  | some _ => .updated

/-- The record that a change on an occasion leaves. -/
def Occasion.record (o : Occasion) (author : Author) (subject : Subject) (change : Change)
    (old new : Option Json) : AuditRecord :=
  ⟨o.recordId, subject, change, old, new, author.actor, author.reason, o.now⟩

/-! ## Records and commits

The calls that change settings and rules end in the same way. A record of the change is made, which
fails where there is nothing for it to be about or its author has no name, and the transaction is
committed with it. -/

section Records

variable {subject : Option Subject} {change : Change} {oldValue newValue : Option Json}
  {author : Author} {id : Uuid} {t : Instant}

/-- **A record is made** of a subject by an actor who has a name. So no change can be recorded in
nobody's name, and, as changes have to be recorded, none can be made. -/
theorem ofChange_eq_ok_iff {r : AuditRecord} :
    AuditRecord.ofChange subject change oldValue newValue author id t = .ok r
      ↔ ∃ x, subject = some x ∧ Text.isBlank author.actor = false
          ∧ r = ⟨id, x, change, oldValue, newValue, author.actor, author.reason, t⟩ := by
  unfold AuditRecord.ofChange
  cases subject with
  | none => simp
  | some x => cases h : Text.isBlank author.actor <;> simp [eq_comm]

end Records

/-- **A transaction with one record is committed** where the log accepts records. Then the store is
the staged one and the log has one record more; the cache is left to the caller. -/
theorem commit_record_eq_ok_iff {e e' : Engine} {tx : Transaction} {r : AuditRecord}
    {refusal : Option Error} (htx : tx.pending = []) :
    e.commit (tx.record r) refusal = .ok e'
      ↔ refusal = none ∧ e' = { e with store := tx.staged, log := ⟨e.log.records ++ [r]⟩ } := by
  cases refusal with
  | none =>
    simp [Engine.commit, Transaction.commit, Transaction.record, AuditLog.append, htx, bind,
      Except.bind, pure, Except.pure, eq_comm]
  | some x =>
    simp [Engine.commit, Transaction.commit, Transaction.record, AuditLog.append, htx, bind,
      Except.bind]

/-! ## The engines that result

Each is spelled out once, field by field, so that later proofs read off what has become of the
store, the log or the cache, and need not go through a transaction again. -/

namespace Engine

/-- **The engine after a setting was written**, in place of the old one if there was one. The
setting stands under its own identifier, which is that of the old one. What the cache held for the
key is dropped, for all requests alike. -/
def withSetting (e : Engine) (old : Option Setting) (new : Setting) (author : Author)
    (o : Occasion) : Engine :=
  { e with
    store := { e.store with settings := e.store.settings.insert new.id new }
    log := ⟨e.log.records ++ [o.record author (.setting new.id) (.ofOld old)
      (old.map Setting.toJson) (some new.toJson)]⟩
    cache := e.cache.map fun c => c.invalidate new.key }

/-- **The engine after a setting was deleted.** It is taken out of the store altogether; the log
keeps what it was. -/
def withoutSetting (e : Engine) (id : Uuid) (old : Setting) (author : Author) (o : Occasion) :
    Engine :=
  { e with
    store := { e.store with settings := e.store.settings.erase id }
    log := ⟨e.log.records ++ [o.record author (.setting old.id) .deleted (some old.toJson)
      none]⟩
    cache := e.cache.map fun c => c.invalidate old.key }

/-- **The engine after a category was created.** Categories are not recorded in the log. -/
def withCategory (e : Engine) (c : Category) : Engine :=
  { e with store := { e.store with categories := e.store.categories.insert c.id c } }

/-- **The engine after a rule was written**, in place of the old one if there was one. The cache is
for settings only, so that nothing in it is dropped. -/
def withRule (e : Engine) (old : Option Rule) (new : Rule) (author : Author) (o : Occasion) :
    Engine :=
  { e with
    store := { e.store with rules := e.store.rules.insert new.id new }
    log := ⟨e.log.records ++ [o.record author (.rule new.id) (.ofOld old)
      (old.map Rule.toJson) (some new.toJson)]⟩ }

/-- **The engine after a rule was deleted.** -/
def withoutRule (e : Engine) (id : Uuid) (old : Rule) (author : Author) (o : Occasion) :
    Engine :=
  { e with
    store := { e.store with rules := e.store.rules.erase id }
    log := ⟨e.log.records ++ [o.record author (.rule old.id) .deleted (some old.toJson) none]⟩ }

/-- After a setting was written, it is found in its place and all others are found as before. -/
theorem setting?_withSetting (e : Engine) (old : Option Setting) (new : Setting)
    (author : Author) (o : Occasion) (id : Uuid) :
    (e.withSetting old new author o).store.setting? id
      = if id = new.id then some new else e.store.setting? id :=
  Table.find?_insert _ _ _ _

/-- After a setting was deleted, it is not found any more, and all others are as before. -/
theorem setting?_withoutSetting (e : Engine) (id : Uuid) (old : Setting) (author : Author)
    (o : Occasion) (id' : Uuid) :
    (e.withoutSetting id old author o).store.setting? id'
      = if id' = id then none else e.store.setting? id' :=
  Table.find?_erase _ _ _

end Engine

/-! ## Settings

To write a setting is to create it or to revise it, and which of the two is decided by what is found
under its key and exact scope. Both are one case here, in which what was found is an argument. -/

namespace SettingOptions

/-- **The setting as it is written**: the old one changed, or else a new one. Which of the two it is
has been decided by a look into the store, and does not depend on what is to be written but for key
and scope. -/
def written (options : SettingOptions) (key : String) (value : Value) (old : Option Setting)
    (o : Occasion) : Setting :=
  match old with
  | some old => options.revise old value o.now
  | none => options.create key value o.rowId o.now

/-- **What lets a setting be written.** The checks are listed in the order in which they are made,
and the first that fails gives the error. Whether the category and the version are as expected
depends on the store, the others on the options alone. -/
structure Admits (options : SettingOptions) (e : Engine) (key : String) (value : Value)
    (o : Occasion) : Prop where
  key_named : Text.isBlank key = false
  type_agrees : options.checkType key value = .ok ()
  category_stored : options.checkCategory e.store = .ok ()
  version_expected : options.checkVersion key (e.store.exactSetting? key options.scope) = .ok ()
  window_open : (options.written key value (e.store.exactSetting? key options.scope)
    o).checkWindow = .ok ()
  actor_named : Text.isBlank options.author.actor = false
  record_accepted : o.refusal = none

end SettingOptions

/-- The setting found under an exact key and scope is an active one that has them. A setting that
has been made inactive is out of the way: another one may be created in its place. -/
theorem Store.exactSetting?_eq_some {s : Store} {key : String} {scope : Scope} {x : Setting}
    (h : s.exactSetting? key scope = some x) :
    x ∈ s.settings.values ∧ x.active = true ∧ x.key = key ∧ x.scope = scope := by
  have hx := List.find?_some h
  simp only [Bool.and_eq_true, decide_eq_true_eq] at hx
  exact ⟨List.mem_of_find?_eq_some h, hx.1.1, hx.1.2, hx.2⟩

namespace SettingOptions

/-- What is written stands under the key and scope it was written for. -/
theorem written_key (options : SettingOptions) (key : String) (value : Value) (s : Store)
    (o : Occasion) :
    (options.written key value (s.exactSetting? key options.scope) o).key = key := by
  cases h : s.exactSetting? key options.scope with
  | none => rfl
  | some old => exact (Store.exactSetting?_eq_some h).2.2.1

theorem written_scope (options : SettingOptions) (key : String) (value : Value) (s : Store)
    (o : Occasion) :
    (options.written key value (s.exactSetting? key options.scope) o).scope = options.scope := by
  cases h : s.exactSetting? key options.scope with
  | none => rfl
  | some old => exact (Store.exactSetting?_eq_some h).2.2.2

end SettingOptions

namespace Engine

variable {e e' : Engine} {author : Author} {o : Occasion} {id : Uuid}

/-- The last steps of writing a setting: its record is made, and both are committed. -/
theorem putSetting_eq_ok_iff {old : Option Setting} {new x : Setting} :
    (do
      let record ← AuditRecord.ofSettingChange (.ofOld old) old (some new) author o.recordId o.now
      let e₁ ← e.commit (((Transaction.start e.store).putSetting new).record record) o.refusal
      return (new, e₁.invalidate new.key)) = Except.ok (x, e')
      ↔ Text.isBlank author.actor = false ∧ o.refusal = none ∧ x = new
        ∧ e' = e.withSetting old new author o := by
  have htx : ((Transaction.start e.store).putSetting new).pending = [] := rfl
  simp only [bind_eq_ok_iff, AuditRecord.ofSettingChange, ofChange_eq_ok_iff,
    commit_record_eq_ok_iff htx]
  constructor
  · rintro ⟨_, ⟨_, hx, hactor, rfl⟩, _, ⟨hrefusal, rfl⟩, h⟩
    cases hx
    cases h
    exact ⟨hactor, hrefusal, rfl, rfl⟩
  · rintro ⟨hactor, hrefusal, rfl, rfl⟩
    exact ⟨_, ⟨_, rfl, hactor, rfl⟩, _, ⟨hrefusal, rfl⟩, rfl⟩

/-- **The steps of writing a setting.** Whether there is an old one makes no difference to them,
only to what is written. In the call itself the two cases are two branches; here they are one. -/
theorem setSetting_eq_steps {key : String} {value : Value} {options : SettingOptions}
    {old : Option Setting} (hold : e.store.exactSetting? key options.scope = old) :
    e.setSetting key value options o = (do
      if Text.isBlank key then throw (.invalid .blankKey)
      options.checkType key value
      options.checkCategory e.store
      options.checkVersion key old
      (options.written key value old o).checkWindow
      let record ← AuditRecord.ofSettingChange (.ofOld old) old
        (some (options.written key value old o)) options.author o.recordId o.now
      let e₁ ← e.commit (((Transaction.start e.store).putSetting
        (options.written key value old o)).record record) o.refusal
      return (options.written key value old o, e₁.invalidate key)) := by
  unfold setSetting
  rw [hold]
  cases old <;> rfl

/-- **When a setting is written, and what then stands.** All checks pass, the setting that is
answered is the one that was to be written, and it stands in its place. From left to right this says
all that a success tells of, and from right to left that nothing else can go wrong. -/
theorem setSetting_eq_ok_iff {key : String} {value : Value} {options : SettingOptions}
    {new : Setting} :
    e.setSetting key value options o = .ok (new, e')
      ↔ options.Admits e key value o
        ∧ new = options.written key value (e.store.exactSetting? key options.scope) o
        ∧ e' = e.withSetting (e.store.exactSetting? key options.scope) new options.author o := by
  have hkey := options.written_key key value e.store o
  generalize hold : e.store.exactSetting? key options.scope = old at hkey
  have hput := @putSetting_eq_ok_iff e e' options.author o old (options.written key value old o) new
  rw [hkey] at hput
  rw [setSetting_eq_steps hold]
  -- All that can fail comes one after the other, the name of the key first.
  cases hblank : Text.isBlank key with
  | true =>
    refine iff_of_false (throw_bind_ne_ok _ _ _) ?_
    rintro ⟨hadmits, -⟩
    rw [hadmits.key_named] at hblank
    cases hblank
  | false =>
    simp only [Bool.false_eq_true, if_false]
    rw [bind_check_eq_ok_iff, bind_check_eq_ok_iff, bind_check_eq_ok_iff, bind_check_eq_ok_iff,
      hput]
    subst hold
    constructor
    · rintro ⟨htype, hcategory, hversion, hwindow, hactor, hrefusal, rfl, rfl⟩
      exact ⟨⟨hblank, htype, hcategory, hversion, hwindow, hactor, hrefusal⟩, rfl, rfl⟩
    · rintro ⟨⟨-, htype, hcategory, hversion, hwindow, hactor, hrefusal⟩, rfl, rfl⟩
      exact ⟨htype, hcategory, hversion, hwindow, hactor, hrefusal, rfl, rfl⟩

/-- What is answered has the key and the scope that were asked for. -/
theorem place_of_setSetting {key : String} {value : Value} {options : SettingOptions}
    {new : Setting} (h : e.setSetting key value options o = .ok (new, e')) :
    new.key = key ∧ new.scope = options.scope := by
  obtain ⟨-, rfl, -⟩ := setSetting_eq_ok_iff.1 h
  exact ⟨options.written_key key value e.store o, options.written_scope key value e.store o⟩

/-- **When a setting is deleted, and what then stands.** It has to be there, active or not, and the
actor has to have a name. -/
theorem deleteSetting_eq_ok_iff :
    e.deleteSetting id author o = .ok e'
      ↔ ∃ old, e.store.setting? id = some old ∧ Text.isBlank author.actor = false
        ∧ o.refusal = none ∧ e' = e.withoutSetting id old author o := by
  have htx : ((Transaction.start e.store).removeSetting id).pending = [] := rfl
  unfold deleteSetting findSetting
  simp only [bind_eq_ok_iff, AuditRecord.ofSettingChange, ofChange_eq_ok_iff,
    commit_record_eq_ok_iff htx]
  cases hold : e.store.setting? id with
  | none => simp
  | some old =>
    constructor
    · rintro ⟨_, h, _, ⟨_, hx, hactor, rfl⟩, _, ⟨hrefusal, rfl⟩, h'⟩
      cases h
      cases hx
      cases h'
      exact ⟨_, rfl, hactor, hrefusal, rfl⟩
    · rintro ⟨_, h, hactor, hrefusal, rfl⟩
      cases h
      exact ⟨_, rfl, _, ⟨_, rfl, hactor, rfl⟩, _, ⟨hrefusal, rfl⟩, rfl⟩

/-! ## Categories -/

/-- **When a category is created, and what then stands.** No category may have its name, and no
actor is asked for. -/
theorem createCategory_eq_ok_iff {name : String} {description : Option String} {c : Category} :
    e.createCategory name description o = .ok (c, e')
      ↔ Text.isBlank name = false ∧ e.store.categoryNamed? name = none
        ∧ c = ⟨o.rowId, name, description⟩ ∧ e' = e.withCategory c := by
  unfold createCategory
  cases hblank : Text.isBlank name with
  | true => exact iff_of_false (throw_bind_ne_ok _ _ _) (fun h => by cases h.1)
  | false =>
    cases hnamed : e.store.categoryNamed? name with
    | some old => exact iff_of_false (throw_bind_ne_ok _ _ _) (fun h => by cases h.2.1)
    | none =>
      simp only [Bool.false_eq_true, if_false, Option.isSome_none, true_and]
      constructor
      · intro h
        cases h
        exact ⟨rfl, rfl⟩
      · rintro ⟨rfl, rfl⟩
        rfl

/-! ## Rules

Creating and updating a rule differ in what is stored under the identifier before; the check of the
draft comes first in both. -/

/-- The last steps of writing a rule: its record is made, and both are committed. -/
theorem putRule_eq_ok_iff {old : Option Rule} {new x : Rule} :
    (do
      let record ← AuditRecord.ofRuleChange (.ofOld old) old (some new) author o.recordId o.now
      let e₁ ← e.commit (((Transaction.start e.store).putRule new).record record) o.refusal
      return (new, e₁)) = Except.ok (x, e')
      ↔ Text.isBlank author.actor = false ∧ o.refusal = none ∧ x = new
        ∧ e' = e.withRule old new author o := by
  have htx : ((Transaction.start e.store).putRule new).pending = [] := rfl
  simp only [bind_eq_ok_iff, AuditRecord.ofRuleChange, ofChange_eq_ok_iff,
    commit_record_eq_ok_iff htx]
  constructor
  · rintro ⟨_, ⟨_, hx, hactor, rfl⟩, _, ⟨hrefusal, rfl⟩, h⟩
    cases hx
    cases h
    exact ⟨hactor, hrefusal, rfl, rfl⟩
  · rintro ⟨hactor, hrefusal, rfl, rfl⟩
    exact ⟨_, ⟨_, rfl, hactor, rfl⟩, _, ⟨hrefusal, rfl⟩, rfl⟩

/-- **When a rule is created, and what then stands.** Nothing is said of rules that have the same
name: there may be several. -/
theorem createRule_eq_ok_iff {draft : Draft} {new : Rule} :
    e.createRule draft author o = .ok (new, e')
      ↔ draft.validate = .ok () ∧ Text.isBlank author.actor = false ∧ o.refusal = none
        ∧ new = Rule.ofDraft draft o.rowId author.actor o.now
        ∧ e' = e.withRule none new author o := by
  have hput := @putRule_eq_ok_iff e e' author o none
    (Rule.ofDraft draft o.rowId author.actor o.now) new
  unfold createRule
  rw [bind_check_eq_ok_iff, ofCheck_eq_ok_iff]
  refine and_congr_right (fun _ => hput.trans ?_)
  constructor
  · rintro ⟨hactor, hrefusal, rfl, rfl⟩
    exact ⟨hactor, hrefusal, rfl, rfl⟩
  · rintro ⟨hactor, hrefusal, rfl, rfl⟩
    exact ⟨hactor, hrefusal, rfl, rfl⟩

/-- **When a rule is written anew, and what then stands.** The draft is checked before it is known
whether there is a rule to write it to. -/
theorem updateRule_eq_ok_iff {draft : Draft} {new : Rule} :
    e.updateRule id draft author o = .ok (new, e')
      ↔ draft.validate = .ok () ∧ ∃ old, e.store.rule? id = some old
        ∧ Text.isBlank author.actor = false ∧ o.refusal = none
        ∧ new = old.revise draft author.actor o.now
        ∧ e' = e.withRule (some old) new author o := by
  unfold updateRule
  rw [bind_check_eq_ok_iff, ofCheck_eq_ok_iff]
  refine and_congr_right (fun _ => ?_)
  cases hold : e.store.rule? id with
  | none => simp [throw, throwThe, MonadExceptOf.throw]
  | some old =>
    refine (@putRule_eq_ok_iff e e' author o (some old)
      (old.revise draft author.actor o.now) new).trans ?_
    constructor
    · rintro ⟨hactor, hrefusal, rfl, rfl⟩
      exact ⟨_, rfl, hactor, hrefusal, rfl, rfl⟩
    · rintro ⟨_, h, hactor, hrefusal, rfl, rfl⟩
      cases h
      exact ⟨hactor, hrefusal, rfl, rfl⟩

/-- **When a rule is deleted, and what then stands.** -/
theorem deleteRule_eq_ok_iff :
    e.deleteRule id author o = .ok e'
      ↔ ∃ old, e.store.rule? id = some old ∧ Text.isBlank author.actor = false
        ∧ o.refusal = none ∧ e' = e.withoutRule id old author o := by
  have htx : ((Transaction.start e.store).removeRule id).pending = [] := rfl
  unfold deleteRule
  cases hold : e.store.rule? id with
  | none => simp [throw, throwThe, MonadExceptOf.throw]
  | some old =>
    simp only [bind_eq_ok_iff, AuditRecord.ofRuleChange, ofChange_eq_ok_iff,
      commit_record_eq_ok_iff htx]
    constructor
    · rintro ⟨_, ⟨_, hx, hactor, rfl⟩, hrefusal, rfl⟩
      cases hx
      exact ⟨_, rfl, hactor, hrefusal, rfl⟩
    · rintro ⟨_, h, hactor, hrefusal, rfl⟩
      cases h
      exact ⟨_, ⟨_, rfl, hactor, rfl⟩, hrefusal, rfl⟩

end Engine

end Tariff
