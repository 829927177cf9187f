import Tariff.Config
import Tariff.Order
import Tariff.Statistics
import Tariff.Store.Transaction

/-!
# The engine

An **engine** is a store, its audit log, a cache and the configuration. Reads
look at what is stored and may fill the cache. Every change of a setting or a
rule goes through one transaction that carries its audit record, and drops what
the cache holds for the key that was changed before the call returns.

Time, fresh identifiers and whether the audit log accepts records come from
outside; the `Occasion` of a call brings them in.
-/

namespace Tariff

/-- **What a change finds outside the engine.** -/
structure Occasion where
  now : Instant
  /-- A fresh identifier, for a new row. -/
  rowId : Uuid
  /-- A fresh identifier, for the audit record. -/
  recordId : Uuid
  /-- The error with which the audit log refuses records, if it does. -/
  refusal : Option Error := none

/-- **An engine.** -/
structure Engine where
  config : EngineConfig
  store : Store := {}
  log : AuditLog := {}
  cache : Option Cache := none

namespace Engine

/-- **A new engine.** The weights must be valid; there is a cache unless its entries
would not live. -/
def create (config : EngineConfig) : Except Error Engine := do
  Error.ofCheck config.weights.validate
  let cache := if config.cacheSeconds = 0 then none else some (.ofSeconds config.cacheSeconds.toNat)
  return { config, cache }

/-- What a resolution looks at. -/
def view (e : Engine) (t : Instant) : View := ⟨e.store, e.config.weights, t⟩

/-! ## Reads through the cache -/

/-- Carries out a computation that uses the cache. -/
def read {α : Type} (e : Engine) (c : Cached α) : α × Engine :=
  let (a, cache) := c.run e.cache
  (a, { e with cache })

/-- **The value of a setting for a request.** -/
def getSetting (e : Engine) (key : String) (r : Request) (t : Instant) : Option Value × Engine :=
  e.read ((e.view t).resolve key r)

/-- **The price of an operation**, before tax. -/
def getPrice (e : Engine) (op : Operation) (r : Request) (t : Instant) :
    Except Failure Decimal × Engine :=
  e.read ((e.view t).price op r)

/-- **The quote for an operation**, with tax. -/
def getQuote (e : Engine) (op : Operation) (r : Request) (t : Instant) :
    Except Failure Quote × Engine :=
  e.read ((e.view t).quote e.config.defaultTaxMode op r)

/-- **The price of an order.** -/
def getOrderPrice (e : Engine) (op : Operation) (lines : List Order.Line) (r : Request)
    (t : Instant) : Except Failure PricedOrder × Engine :=
  e.read ((e.view t).order op lines r)

/-! ## Other reads -/

/-- A stored setting. -/
def findSetting (e : Engine) (id : Uuid) : Except Error Setting :=
  match e.store.setting? id with
  | some s => .ok s
  | none => .error (.settingNotFound id)

/-- Counts of what is stored. -/
def statistics (e : Engine) (filter : Statistics.Filter) (t : Instant) : Statistics :=
  .compute e.store.allSettings e.store.allRules e.store.allCategories e.log.count filter t

/-- The audit records of a setting or rule, oldest first. -/
def history (e : Engine) (subject : Subject) : List AuditRecord := e.log.history subject

/-! ## Changes -/

/-- Commits a transaction. -/
def commit (e : Engine) (tx : Transaction) (refusal : Option Error) : Except Error Engine := do
  let (store, log) ← tx.commit e.log refusal
  return { e with store, log }

/-- Drops what the cache holds for a key. -/
def invalidate (e : Engine) (key : String) : Engine :=
  { e with cache := e.cache.map fun c => c.invalidate key }

/-- Drops what the cache holds. -/
def clearCache (e : Engine) : Engine := { e with cache := e.cache.map Cache.clear }

end Engine

end Tariff
