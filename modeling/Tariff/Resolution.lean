import Tariff.Cache
import Tariff.Specificity
import Tariff.Store.Basic

/-!
# Resolution

To **resolve** a key for a request is to find the setting under it that applies:
of those in effect, the most specific one that covers the request. Nothing is
written, and that no setting covers the request is an answer, not an error.

A `View` is what a resolution looks at: the store, the weights and the instant.
With a cache, the answer comes from it if it is there, and else goes into it.
Since the answer depends on the request only through its dimensions, these are
what the cache keeps it under.
-/

namespace Tariff

/-- **What a resolution looks at.** -/
structure View where
  store : Store
  weights : Weights
  now : Instant

/-- A computation that uses the cache, if there is one. It leaves the cache as it
has become, also where the computation fails. -/
abbrev Cached (α : Type) : Type := StateM (Option Cache) α

namespace View

/-- The settings under a key that are in effect. -/
def candidates (v : View) (key : String) : List Setting := v.store.effectiveSettings [key] v.now

/-- **The setting that applies to a request under a key.** -/
def setting? (v : View) (key : String) (r : Request) : Option Setting :=
  Candidate.best? v.weights r (v.candidates key)

/-- Its value. -/
def value? (v : View) (key : String) (r : Request) : Option Value :=
  (v.setting? key r).map (·.value)

/-- **The settings in the running for a request under a key**, the best first. -/
def explain (v : View) (key : String) (r : Request) : List Candidate :=
  Candidate.rank v.weights r (v.candidates key)

/-! ## Several keys -/

/-- **The values of several keys**, all read from one snapshot. Keys without a value
are left out; the others are in order. -/
def values (v : View) (keys : List String) (r : Request) : List (String × Value) :=
  let snapshot := v.store.effectiveSettings keys v.now
  (Text.sortDistinct (snapshot.map (·.key))).filterMap fun key =>
    (Candidate.best? v.weights r (snapshot.filter fun s => s.key = key)).map fun s =>
      (key, s.value)

/-- The values of the keys that occur in a category. -/
def categoryValues (v : View) (name : String) (r : Request) :
    Except Error (List (String × Value)) :=
  match v.store.categoryNamed? name with
  | none => .error (.categoryNotFound name)
  | some category => .ok (v.values (v.store.keysInCategory category.id) r)

/-! ## With a cache -/

/-- The value of a key, read from the store and put into the cache. -/
def refresh (v : View) (key : String) (r : Request) (c : Cache) : Option Value × Cache :=
  let value := v.value? key r
  let c' := c.insert? key r.dimensions value (c.generation key) v.now
  (value, c'.getD c)

/-- **The value of a key for a request**, from the cache if it is there. -/
def resolve (v : View) (key : String) (r : Request) : Cached (Option Value) := fun cache =>
  match cache with
  | none => (v.value? key r, none)
  | some c =>
    match c.find? key r.dimensions v.now with
    | some value => (value, some c)
    | none =>
      let (value, c) := v.refresh key r c
      (value, some c)

end View

end Tariff
