import Tariff.Setting.Basic

/-!
# The cache of resolved values

Resolving a setting key for a request looks at every setting under the key. The
cache keeps what was found, by key and by the dimensions of the request, also
when nothing was found. An entry is served until it has reached its lifetime,
and is dropped when a setting under its key changes.

A reader that does not find its answer here reads the store and puts the answer
in. The store may change in between. So the reader first takes the
**generation** of the key, and `insert?` refuses an answer whose generation is no
longer current: every invalidation of the key starts a new one.

The number of entries is limited. When an entry for a new pair does not fit, the
expired ones go, and if none has expired the oldest one.
-/

namespace Tariff

namespace Cache

/-- **An answer kept.** -/
structure Entry where
  key : String
  scope : Scope
  /-- The value found, if one was. -/
  value : Option Value
  insertedAt : Instant

/-- Whether the entry is for a key and dimensions. -/
def Entry.isFor (e : Entry) (key : String) (scope : Scope) : Bool := e.key = key && e.scope = scope

/-- **How often a key had been invalidated** when the token was taken. -/
structure Generation where
  count : Nat
deriving DecidableEq

end Cache

/-- **A cache of resolved values.** -/
structure Cache where
  /-- The lifetime of an entry in nanoseconds. -/
  lifetime : Nat
  /-- The number of entries there is room for. -/
  capacity : Nat := 10000
  capacity_pos : 0 < capacity := by decide
  /-- One entry for a pair of key and dimensions, the latest last. -/
  entries : List Cache.Entry := []
  /-- How often everything was dropped. -/
  clearings : Nat := 0
  /-- How often the entries of a key were dropped, for each such key. -/
  invalidations : List (String × Nat) := []

namespace Cache

/-- The empty cache whose entries live so many seconds. -/
def ofSeconds (seconds : Nat) : Cache := { lifetime := seconds * 1000000000 }

/-- The cache with room for another number of entries, but for one at least. -/
def withCapacity (c : Cache) (capacity : Nat) : Cache :=
  { c with capacity := max 1 capacity, capacity_pos := by omega }

/-- The number of entries. -/
def size (c : Cache) : Nat := c.entries.length

/-- Whether an entry may be served at an instant. -/
def isFresh (c : Cache) (t : Instant) (e : Entry) : Bool :=
  (t.nanosSince e.insertedAt).toNat < c.lifetime

/-- The entry for a key and dimensions, fresh or not. -/
def entry? (c : Cache) (key : String) (scope : Scope) : Option Entry :=
  c.entries.find? fun e => e.isFor key scope

/-- **The answer kept for a key and dimensions**, if there is one to be served.
The answer itself may be that there is no value. -/
def find? (c : Cache) (key : String) (scope : Scope) (t : Instant) : Option (Option Value) :=
  match c.entry? key scope with
  | some e => if c.isFresh t e then some e.value else none
  | none => none

/-! ## Generations -/

/-- One more in a table of counts. -/
def increment (key : String) : List (String × Nat) → List (String × Nat)
  | [] => [(key, 1)]
  | (k, n) :: rest => if k = key then (k, n + 1) :: rest else (k, n) :: increment key rest

/-- How often the entries of a key were dropped by name. -/
def invalidationsOf (c : Cache) (key : String) : Nat := (c.invalidations.lookup key).getD 0

/-- **The current generation of a key.** Both counts only grow, so their sum
changes whenever one of them does. -/
def generation (c : Cache) (key : String) : Generation :=
  ⟨c.clearings + c.invalidationsOf key⟩

theorem lookup_increment (key k : String) (counts : List (String × Nat)) :
    ((increment key counts).lookup k).getD 0
      = (counts.lookup k).getD 0 + if k = key then 1 else 0 := by
  induction counts with
  | nil => grind [increment]
  | cons row rest ih => grind [increment]

/-! ## Changes -/

/-- **Drops the entries of a key**, and starts its next generation. -/
def invalidate (c : Cache) (key : String) : Cache :=
  { c with
    entries := c.entries.filter fun e => e.key ≠ key
    invalidations := increment key c.invalidations }

/-- **Drops every entry**, and starts the next generation of every key. -/
def clear (c : Cache) : Cache := { c with entries := [], clearings := c.clearings + 1 }

/-- Drops the entries that may no longer be served. -/
def evictExpired (c : Cache) (t : Instant) : Cache :=
  { c with entries := c.entries.filter (c.isFresh t) }

/-- The entry that was put in first. -/
def oldest? : List Entry → Option Entry
  | [] => none
  | e :: rest =>
    match oldest? rest with
    | none => some e
    | some o => if o.insertedAt < e.insertedAt then some o else some e

/-- Drops the entry that was put in first. -/
def evictOldest (c : Cache) : Cache :=
  match oldest? c.entries with
  | none => c
  | some o => { c with entries := c.entries.filter fun e => !e.isFor o.key o.scope }

/-- Makes room for one more entry. -/
def makeRoom (c : Cache) (t : Instant) : Cache :=
  if c.size < c.capacity then c
  else
    let c := c.evictExpired t
    if c.size < c.capacity then c else c.evictOldest

/-- **Keeps an answer**, read under a generation of the key. It is refused if that
is no longer the current one. -/
def insert? (c : Cache) (key : String) (scope : Scope) (value : Option Value) (g : Generation)
    (t : Instant) : Option Cache :=
  if c.generation key = g then
    let c := if (c.entry? key scope).isSome then c else c.makeRoom t
    let others := c.entries.filter fun e => !e.isFor key scope
    some { c with entries := others ++ [⟨key, scope, value, t⟩] }
  else none

end Cache

end Tariff
