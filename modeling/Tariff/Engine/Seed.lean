import Tariff.Engine.Rules
import Tariff.Engine.Settings

/-!
# Seeding

An engine is **seeded** with categories, settings and rules, in this order and
through the same calls that people use. Categories that exist are skipped,
settings are written under their key and exact scope, and rules replace those of
the same name; so seeding twice changes rather than duplicates.

The rules that a draft may replace are those stored when the settings are done, in
the order of `Store.allRules`. Of several rules of one name a draft replaces the
first, so one of the highest priority among them; which one, where several have
that priority, depends on the order in which the rules are enumerated.

Seeding stops at the first error, and what was written before it stays.
-/

namespace Tariff

/-- **How much a seed wrote.** -/
structure SeedReport where
  /-- The categories created. -/
  categories : Nat := 0
  /-- The settings written. -/
  settings : Nat := 0
  /-- The rules written. -/
  rules : Nat := 0
deriving DecidableEq

/-- The report as a JSON value. -/
def SeedReport.toJson (r : SeedReport) : Json :=
  .object [("categories", Json.ofNat r.categories), ("rules", Json.ofNat r.rules),
    ("settings", Json.ofNat r.settings)]

namespace Engine

/-- **What seeding has come to**: the engine, how much was written, how many
entries were gone through, and the error that ended it, if one did. -/
structure Seeding where
  engine : Engine
  report : SeedReport := {}
  entries : Nat := 0
  error : Option Error := none

/-- In whose name a seed is written. -/
def seedAuthor (e : Engine) : Author := ⟨e.config.seedActor, some "seed"⟩

/-- Goes through one more entry, unless seeding has ended. The entry writes or fails;
`count` counts it. -/
def Seeding.next (s : Seeding) (occasion : Nat → Occasion) (count : SeedReport → SeedReport)
    (write : Engine → Occasion → Except Error (Option Engine)) : Seeding :=
  if s.error.isSome then s
  else
    match write s.engine (occasion s.entries) with
    | .error e => { s with error := some e }
    | .ok none => { s with entries := s.entries + 1 }
    | .ok (some e) =>
      { s with engine := e, report := count s.report, entries := s.entries + 1 }

/-- Creates a category, unless there is one of its name. -/
def seedCategory (entry : Seed.CategoryEntry) (e : Engine) (o : Occasion) :
    Except Error (Option Engine) := do
  if (e.store.categoryNamed? entry.name).isSome then return none
  let (_, e) ← e.createCategory entry.name entry.description o
  return some e

/-- The identifier of the category that an entry names, if it names one. -/
def seedCategoryId (entry : Seed.SettingEntry) (e : Engine) : Except Error (Option Uuid) :=
  match entry.category with
  | none => .ok none
  | some name =>
    match e.store.categoryNamed? name with
    | none => .error (.categoryNotFound name)
    | some category => .ok (some category.id)

/-- Writes a setting. -/
def seedSetting (entry : Seed.SettingEntry) (e : Engine) (o : Occasion) :
    Except Error (Option Engine) := do
  let value ← (Value.ofJson entry.dataType entry.value).mapError fun r => .invalid (.value r)
  let categoryId ← seedCategoryId entry e
  let options : SettingOptions :=
    { categoryId
      declaredType := some entry.dataType
      scope := entry.scope
      priority := entry.priority
      description := entry.description
      author := e.seedAuthor }
  let (_, e) ← e.setSetting entry.key value options o
  return some e

/-- Writes a rule, in place of the first of `existing` that has its name. -/
def seedRule (existing : List Rule) (draft : Draft) (e : Engine) (o : Occasion) :
    Except Error (Option Engine) := do
  match existing.find? fun rule => rule.name = draft.name with
  | some rule =>
    let (_, e) ← e.updateRule rule.id draft e.seedAuthor o
    return some e
  | none =>
    let (_, e) ← e.createRule draft e.seedAuthor o
    return some e

/-- Goes through the entries of a seed. -/
def runSeed (e : Engine) (settings : Seed.Settings) (rules : Seed.Rules)
    (occasion : Nat → Occasion) : Seeding :=
  let s : Seeding := { engine := e }
  let s := settings.categories.foldl (fun s entry =>
    s.next occasion (fun r => { r with categories := r.categories + 1 }) (seedCategory entry)) s
  let s := settings.settings.foldl (fun s entry =>
    s.next occasion (fun r => { r with settings := r.settings + 1 }) (seedSetting entry)) s
  let existing := s.engine.store.allRules
  rules.rules.foldl (fun s draft =>
    s.next occasion (fun r => { r with rules := r.rules + 1 }) (seedRule existing draft)) s

/-- **Seeds an engine.** Entry number `i`, from 0, is written on `occasion i`. In the
end the cache is dropped, unless there was an error. -/
def seed (e : Engine) (settings : Seed.Settings) (rules : Seed.Rules)
    (occasion : Nat → Occasion) : Except Error SeedReport × Engine :=
  let s := e.runSeed settings rules occasion
  match s.error with
  | some error => (.error error, s.engine)
  | none => (.ok s.report, s.engine.clearCache)

/-- **The engine that a configuration describes**, seeded. -/
def ofConfig (files : ConfigFiles) (occasion : Nat → Occasion) : Except Error Engine := do
  let config ← Config.load files
  let e ← create config.engine
  match e.seed config.settings config.rules occasion with
  | (.ok _, e) => return e
  | (.error error, _) => throw error

end Engine

end Tariff
