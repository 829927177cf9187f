import Tariff.Engine.Basic

/-!
# Changing settings and categories

A setting is written under its key and exact scope: if an active setting is
there it is changed in place and its version raised, else a new one is created.
A caller may give the version it expects to replace, and is refused if another
one is stored; so of two callers who started from the same version only one
succeeds.
-/

namespace Tariff

/-- **What accompanies the writing of a setting.** All but the author has a
default: no category, open scope, effective at once, never expiring, active. -/
structure SettingOptions where
  categoryId : Option Uuid := none
  /-- The data type that the value is said to have. -/
  declaredType : Option DataType := none
  scope : Scope := {}
  priority : Int32 := 0
  effectiveDate : Option Instant := none
  expiryDate : Option Instant := none
  active : Option Bool := none
  description : Option String := none
  /-- The version to be replaced; 0 says that nothing is stored yet. Without it
  the last change wins. -/
  expectedVersion : Option UInt32 := none
  author : Author

namespace SettingOptions

/-- Whether the value has the type it is said to have. -/
def checkType (options : SettingOptions) (key : String) (value : Value) : Except Error Unit :=
  match options.declaredType with
  | none => .ok ()
  | some declared =>
    if declared = value.dataType then .ok ()
    else .error (.invalid (.declaredType key declared value.dataType))

/-- Whether the category is stored. -/
def checkCategory (options : SettingOptions) (s : Store) : Except Error Unit :=
  match options.categoryId with
  | none => .ok ()
  | some id => if (s.category? id).isSome then .ok () else .error (.categoryNotFound id.toText)

/-- Whether the version stored is the one expected. -/
def checkVersion (options : SettingOptions) (key : String) (old : Option Setting) :
    Except Error Unit :=
  let found := match old with
    | none => 0
    | some s => s.version
  match options.expectedVersion with
  | none => .ok ()
  | some expected =>
    if found = expected then .ok () else .error (.versionConflict key expected found)

/-- The setting as it is created. -/
def create (options : SettingOptions) (key : String) (value : Value) (id : Uuid) (t : Instant) :
    Setting where
  id := id
  key := key
  value := value
  dataType := value.dataType
  categoryId := options.categoryId
  description := options.description
  scope := options.scope
  priority := options.priority
  effectiveDate := options.effectiveDate.getD t
  expiryDate := options.expiryDate
  active := options.active.getD true
  version := 1
  createdBy := options.author.actor
  updatedBy := options.author.actor
  createdAt := t
  updatedAt := t

/-- The setting as it is changed. Its category, description and beginning stay
unless others are given. -/
def revise (options : SettingOptions) (old : Setting) (value : Value) (t : Instant) : Setting :=
  { old with
    value := value
    dataType := value.dataType
    categoryId := options.categoryId.or old.categoryId
    description := options.description.or old.description
    priority := options.priority
    effectiveDate := options.effectiveDate.getD old.effectiveDate
    expiryDate := options.expiryDate
    active := options.active.getD true
    version := old.version + 1
    updatedBy := options.author.actor
    updatedAt := t }

end SettingOptions

/-- Whether the window of a setting has an instant in it. -/
def Setting.checkWindow (s : Setting) : Except Error Unit :=
  match s.expiryDate with
  | none => .ok ()
  | some expiry =>
    if expiry ≤ s.effectiveDate then .error (.invalid (.expiryTooEarly s.effectiveDate))
    else .ok ()

namespace Engine

/-- **Writes a setting** under its key and exact scope. -/
def setSetting (e : Engine) (key : String) (value : Value) (options : SettingOptions)
    (o : Occasion) : Except Error (Setting × Engine) := do
  if Text.isBlank key then throw (.invalid .blankKey)
  options.checkType key value
  options.checkCategory e.store
  let old := e.store.exactSetting? key options.scope
  options.checkVersion key old
  let (change, setting) := match old with
    | some old => (Change.updated, options.revise old value o.now)
    | none => (Change.created, options.create key value o.rowId o.now)
  setting.checkWindow
  let record ← AuditRecord.ofSettingChange change old (some setting) options.author o.recordId
    o.now
  let tx := ((Transaction.start e.store).putSetting setting).record record
  let e ← e.commit tx o.refusal
  return (setting, e.invalidate key)

/-- **Deletes a setting.** -/
def deleteSetting (e : Engine) (id : Uuid) (author : Author) (o : Occasion) :
    Except Error Engine := do
  let old ← e.findSetting id
  let record ← AuditRecord.ofSettingChange .deleted (some old) none author o.recordId o.now
  let tx := ((Transaction.start e.store).removeSetting id).record record
  let e ← e.commit tx o.refusal
  return e.invalidate old.key

/-- **Creates a category.** No other may have its name. -/
def createCategory (e : Engine) (name : String) (description : Option String) (o : Occasion) :
    Except Error (Category × Engine) := do
  if Text.isBlank name then throw (.invalid .blankCategoryName)
  if (e.store.categoryNamed? name).isSome then throw (.invalid (.categoryExists name))
  let category : Category := ⟨o.rowId, name, description⟩
  let e ← e.commit ((Transaction.start e.store).putCategory category) o.refusal
  return (category, e)

end Engine

end Tariff
