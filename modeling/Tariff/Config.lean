import Tariff.Rule.Validation
import Tariff.Specificity
import Tariff.Tax
import Tariff.Yaml.Reader

/-!
# Configuration

An engine is configured by three YAML files: `engine.yaml` tunes it,
`settings.yaml` and `rules.yaml` hold what a new engine is seeded with. `load`
reads the three in this order and checks the weights and every rule, so that
seeding can fail only on the settings or the actor.
-/

namespace Tariff

/-- **How an engine is tuned.** -/
structure EngineConfig where
  weights : Weights := {}
  /-- The mode of quotes for which no setting gives one. -/
  defaultTaxMode : TaxMode := .exclusive
  /-- The lifetime of a resolved value in seconds; with 0, none is kept. -/
  cacheSeconds : UInt64 := 30
  /-- In whose name an engine is seeded. -/
  seedActor : String := "system"

namespace Seed

/-- **A category to be created.** -/
structure CategoryEntry where
  name : String
  description : Option String := none

/-- **A setting to be written.** -/
structure SettingEntry where
  key : String
  /-- The value as it stands in the file. -/
  value : Json
  dataType : DataType
  /-- The name of the category to file the setting under. -/
  category : Option String := none
  scope : Scope := {}
  priority : Int32 := 0
  description : Option String := none

/-- **The categories and settings of a seed**, in the order of the file. -/
structure Settings where
  categories : List CategoryEntry := []
  settings : List SettingEntry := []

/-- **The rules of a seed**, in the order of the file. -/
structure Rules where
  rules : List Draft := []

end Seed

/-! ## Reading -/

/-- Reads the tuning of an engine. -/
def EngineConfig.ofDocument? {τ : Type} [Document τ] (d : τ) : Option EngineConfig := do
  let fields ← Document.fields? [] ["specificity", "default_tax_mode", "cache_ttl_seconds",
    "seed_actor"] d
  let weights ← Document.withDefault fields "specificity" {} Weights.ofDocument?
  let defaultTaxMode ← Document.withDefault fields "default_tax_mode" .exclusive
    TaxMode.ofDocument?
  let cacheSeconds ← Document.withDefault fields "cache_ttl_seconds" 30 Document.uint64?
  let seedActor ← Document.withDefault fields "seed_actor" "system" Document.text?
  some ⟨weights, defaultTaxMode, cacheSeconds, seedActor⟩

namespace Seed

/-- Reads a category. -/
def CategoryEntry.ofDocument? {τ : Type} [Document τ] (d : τ) : Option CategoryEntry := do
  let fields ← Document.fields? ["name"] ["description"] d
  let name ← Document.required fields "name" Document.text?
  let description ← Document.optional fields "description" Document.text?
  some ⟨name, description⟩

/-- Reads a setting. -/
def SettingEntry.ofDocument? {τ : Type} [Document τ] (d : τ) : Option SettingEntry := do
  let fields ← Document.fields? ["key", "value", "data_type"]
    ["category", "scope", "priority", "description"] d
  let key ← Document.required fields "key" Document.text?
  let value ← Document.required fields "value" Document.value?
  let dataType ← Document.required fields "data_type" DataType.ofDocument?
  let category ← Document.optional fields "category" Document.text?
  let scope ← Document.withDefault fields "scope" {} Scope.ofDocument?
  let priority ← Document.withDefault fields "priority" 0 Document.int32?
  let description ← Document.optional fields "description" Document.text?
  some ⟨key, value, dataType, category, scope, priority, description⟩

/-- Reads the categories and settings of a seed. -/
def Settings.ofDocument? {τ : Type} [Document τ] (d : τ) : Option Settings := do
  let fields ← Document.fields? [] ["categories", "settings"] d
  let categories ← Document.withDefault fields "categories" []
    (Document.list? CategoryEntry.ofDocument?)
  let settings ← Document.withDefault fields "settings" []
    (Document.list? SettingEntry.ofDocument?)
  some ⟨categories, settings⟩

/-- Reads the rules of a seed. -/
def Rules.ofDocument? {τ : Type} [Document τ] (d : τ) : Option Rules := do
  let fields ← Document.fields? [] ["rules"] d
  let rules ← Document.withDefault fields "rules" [] (Document.list? Draft.ofDocument?)
  some ⟨rules⟩

end Seed

/-! ## Loading -/

/-- **The texts of the three files**, as far as they exist. -/
structure ConfigFiles where
  engine : Option String := none
  settings : Option String := none
  rules : Option String := none

/-- **A configuration.** -/
structure Config where
  engine : EngineConfig := {}
  settings : Seed.Settings := {}
  rules : Seed.Rules := {}

namespace Config

/-- Reads one file. -/
def readFile {α : Type} (name : String) (text : Option String) (read? : Yaml.Node → Option α) :
    Except Error α :=
  match text with
  | none => .error (.configNotFound name)
  | some text =>
    match (Yaml.parse? text).bind read? with
    | none => .error (.configUnreadable name "not a document of the expected shape")
    | some a => .ok a

/-- **Loads a configuration.** Of several faults the first counts, file by file. -/
def load (files : ConfigFiles) : Except Error Config := do
  let engine ← readFile "engine.yaml" files.engine EngineConfig.ofDocument?
  Error.ofCheck engine.weights.validate
  let settings ← readFile "settings.yaml" files.settings Seed.Settings.ofDocument?
  let rules ← readFile "rules.yaml" files.rules Seed.Rules.ofDocument?
  rules.rules.forM fun draft => Error.ofCheck draft.validate
  return ⟨engine, settings, rules⟩

end Config

end Tariff
