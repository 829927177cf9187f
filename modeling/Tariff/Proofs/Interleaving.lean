import Mathlib.Logic.Function.Basic
import Tariff.Proofs.Coherence

/-!
# Readers and writers at the same time

Calls need not follow one another. A reader that looks a value up makes four steps:
it looks into the cache, takes the generation of the key, reads the store, and puts
the answer in. A writer makes two: it commits, and drops what the cache holds for
the key. Between these steps of one thread, other threads make theirs.

A `System` is an engine with any number of threads, each of which makes calls one
after the other. The steps are those of the engine's own calls, cut where other
threads may come in: the look-up is `View.resolve` in pieces, a commit is what
`Engine.setSetting` does to store and log, and its second step is
`Engine.invalidate`. If no other thread comes in, they are these calls
(`exists_path_getSetting`, `exists_path_setSetting`, `exists_path_deleteSetting`).
Other changes, and the clearing of the cache, may happen at any time.

What the theory needs beside the engine is a history: the stores that there have
been, which of them was read for which instant, which change of which key has
returned, and the instant that the reader of each entry had on its clock when it
read the store. No step depends on it.
-/

namespace Tariff

/-! ## Threads

The places at which a thread may be are those between two of its steps on what is shared: the store,
the cache and the clock. -/

/-- **What a reader is to find out**, and which changes had returned when it began. The second part
is for the theory: it says which changes the reader has to have seen. -/
structure Reading where
  key : String
  request : Request
  /-- For each such change, its key and the number of the store that it made. -/
  since : List (String × Nat)

/-- **What a thread is at.** -/
inductive Thread where
  | idle
  | reading (x : Reading)
  /-- The cache has no answer. -/
  | missed (x : Reading)
  /-- The generation has been taken. -/
  | tagged (x : Reading) (g : Cache.Generation)
  /-- The store has been read, for the instant on the clock. -/
  | loaded (x : Reading) (g : Cache.Generation) (value : Option Value) (t : Instant)
  /-- The reader has its answer. -/
  | served (x : Reading) (value : Option Value)
  /-- A change of a setting under the key has been committed, as the store of this number. -/
  | committed (key : String) (n : Nat)

/-- **An engine and its threads**, with the history of both. -/
structure System where
  engine : Engine
  threads : Nat → Thread
  /-- Every store there has been, the present one last. -/
  stores : List Store
  /-- The reads of a store: its number, and the instant on the clock of the reader. -/
  reads : List (Nat × Instant) := []
  /-- The changes of settings that have returned: the key, and the number of the store. -/
  returned : List (String × Nat) := []
  /-- For each entry of the cache, the instant for which its reader read the store. -/
  readAt : String → Scope → Instant := fun _ _ => ⟨0⟩

namespace System

/-- The system with an engine and no call under way. Its history begins here: the store is the first
that there has been, and no entry has been put in by any thread. -/
def start (e : Engine) : System := { engine := e, threads := fun _ => .idle, stores := [e.store] }

/-- A thread goes on. -/
def set (s : System) (i : Nat) (th : Thread) : System :=
  { s with threads := Function.update s.threads i th }

/-- The store is read, for an instant. -/
def read (s : System) (t : Instant) : System :=
  { s with reads := (s.stores.length - 1, t) :: s.reads }

/-- A new store and log are published. The cache is left as it is, so that between this step and the
next one of the writer the cache may know less than the store. -/
def publish (s : System) (e : Engine) : System :=
  { s with
    engine := { s.engine with store := e.store, log := e.log }
    stores := s.stores ++ [e.store] }

/-- An answer has been put into the cache, and for its key and dimensions the instant of its
reader is noted. -/
def keep (s : System) (x : Reading) (t : Instant) (c : Cache) : System :=
  { s with
    engine := { s.engine with cache := some c }
    readAt := fun key scope =>
      if key = x.key ∧ scope = x.request.dimensions then t else s.readAt key scope }

/-- A change returns, once the cache has dropped its key. Whoever begins after that has
to find it. -/
def conclude (s : System) (key : String) (n : Nat) : System :=
  { s with engine := s.engine.invalidate key, returned := (key, n) :: s.returned }

end System

/-- **A change that is not of a setting.** `ids` are the fresh identifiers that it draws. Such a
change is one step, since the cache has nothing to do with it. -/
inductive Engine.OtherChange (e : Engine) : (ids : List Uuid) → Engine → Prop
  | createCategory {name : String} {description : Option String} {o : Occasion} {c : Category}
      {e' : Engine} (h : e.createCategory name description o = .ok (c, e')) :
      OtherChange e [o.rowId] e'
  | createRule {draft : Draft} {author : Author} {o : Occasion} {new : Rule} {e' : Engine}
      (h : e.createRule draft author o = .ok (new, e')) : OtherChange e [o.rowId] e'
  | updateRule {id : Uuid} {draft : Draft} {author : Author} {o : Occasion} {new : Rule}
      {e' : Engine} (h : e.updateRule id draft author o = .ok (new, e')) : OtherChange e [] e'
  | deleteRule {id : Uuid} {author : Author} {o : Occasion} {e' : Engine}
      (h : e.deleteRule id author o = .ok e') : OtherChange e [] e'

/-- Such a change is a step of the engine. -/
theorem Engine.OtherChange.step {e e' : Engine} {ids : List Uuid} (h : e.OtherChange ids e') :
    Engine.Step e ids [] e' := by
  cases h with
  | createCategory h => exact .createCategory h
  | createRule h => exact .createRule h
  | updateRule h => exact .updateRule h
  | deleteRule h => exact .deleteRule h

/-- Such a change leaves the settings alone. -/
theorem Engine.OtherChange.settings_eq {e e' : Engine} {ids : List Uuid}
    (h : e.OtherChange ids e') : e'.store.settings = e.store.settings := by
  cases h with
  | createCategory h => obtain ⟨-, -, -, rfl⟩ := createCategory_eq_ok_iff.1 h; rfl
  | createRule h => obtain ⟨-, -, -, -, rfl⟩ := createRule_eq_ok_iff.1 h; rfl
  | updateRule h => obtain ⟨-, old, -, -, -, -, rfl⟩ := updateRule_eq_ok_iff.1 h; rfl
  | deleteRule h => obtain ⟨old, -, -, -, rfl⟩ := deleteRule_eq_ok_iff.1 h; rfl

namespace System

/-! ## Steps

What a thread does between two of these places is one step. That nothing comes between the parts of
a step is what the locks of the engine are for. -/

/-- **One step of one thread.** `ids` are the fresh identifiers that it draws.

Each step is what the engine's own calls do between two points at which another thread may come in.
Steps of a reader that look at a clock have an instant of their own, and nothing is assumed about
how these are related; so the steps of a reader may well be made at an earlier instant than those
before them. -/
inductive Step (s : System) : (ids : List Uuid) → System → Prop
  /-- A reader begins. -/
  | begin (i : Nat) (key : String) (r : Request) (hi : s.threads i = .idle) :
      Step s [] (s.set i (.reading ⟨key, r, s.returned⟩))
  /-- It finds its answer in the cache. -/
  | hit {i : Nat} {x : Reading} {c : Cache} {value : Option Value} (t : Instant)
      (hi : s.threads i = .reading x) (hc : s.engine.cache = some c)
      (h : c.find? x.key x.request.dimensions t = some value) :
      Step s [] (s.set i (.served x value))
  /-- It does not. -/
  | miss {i : Nat} {x : Reading} {c : Cache} (t : Instant) (hi : s.threads i = .reading x)
      (hc : s.engine.cache = some c) (h : c.find? x.key x.request.dimensions t = none) :
      Step s [] (s.set i (.missed x))
  /-- It takes the generation of the key. -/
  | tag {i : Nat} {x : Reading} {c : Cache} (hi : s.threads i = .missed x)
      (hc : s.engine.cache = some c) : Step s [] (s.set i (.tagged x (c.generation x.key)))
  /-- It reads the store, for the instant that it has on its clock. The instants of different
  steps need have nothing to do with each other. -/
  | load {i : Nat} {x : Reading} {g : Cache.Generation} (t : Instant)
      (hi : s.threads i = .tagged x g) :
      Step s [] ((s.read t).set i (.loaded x g ((s.engine.view t).value? x.key x.request) t))
  /-- The cache keeps the answer. -/
  | keep {i : Nat} {x : Reading} {g : Cache.Generation} {value : Option Value} {t : Instant}
      {c c' : Cache} (now : Instant) (hi : s.threads i = .loaded x g value t)
      (hc : s.engine.cache = some c)
      (h : c.insert? x.key x.request.dimensions value g now = some c') :
      Step s [] ((s.keep x t c').set i (.served x value))
  /-- The cache refuses the answer. -/
  | refuse {i : Nat} {x : Reading} {g : Cache.Generation} {value : Option Value} {t : Instant}
      {c : Cache} (now : Instant) (hi : s.threads i = .loaded x g value t)
      (hc : s.engine.cache = some c)
      (h : c.insert? x.key x.request.dimensions value g now = none) :
      Step s [] (s.set i (.served x value))
  /-- Without a cache the reader reads the store at once. -/
  | loadUncached {i : Nat} {x : Reading} (t : Instant) (hi : s.threads i = .reading x)
      (hc : s.engine.cache = none) :
      Step s [] ((s.read t).set i (.served x ((s.engine.view t).value? x.key x.request)))
  /-- A reader returns. -/
  | finish {i : Nat} {x : Reading} {value : Option Value} (hi : s.threads i = .served x value) :
      Step s [] (s.set i .idle)
  /-- A setting is written and committed. -/
  | commitSetting {i : Nat} {key : String} {value : Value} {options : SettingOptions}
      {o : Occasion} {new : Setting} {e' : Engine} (hi : s.threads i = .idle)
      (h : s.engine.setSetting key value options o = .ok (new, e')) :
      Step s [o.rowId] ((s.publish e').set i (.committed key s.stores.length))
  /-- A setting is deleted, and this is committed. -/
  | commitDeletion {i : Nat} {id : Uuid} {author : Author} {o : Occasion} {old : Setting}
      {e' : Engine} (hi : s.threads i = .idle) (hold : s.engine.store.setting? id = some old)
      (h : s.engine.deleteSetting id author o = .ok e') :
      Step s [] ((s.publish e').set i (.committed old.key s.stores.length))
  /-- The key of the change is dropped, and the writer returns. -/
  | conclude {i : Nat} {key : String} {n : Nat} (hi : s.threads i = .committed key n) :
      Step s [] ((s.conclude key n).set i .idle)
  /-- Something else than a setting is changed. -/
  | other {ids : List Uuid} {e' : Engine} (h : s.engine.OtherChange ids e') :
      Step s ids (s.publish e')
  /-- The cache is cleared. -/
  | clear : Step s [] { s with engine := s.engine.clearCache }

/-- **One step after another**, of any threads. This is the order in which they happen, and any
order is one; which thread is next is left open at each step. -/
inductive Path (s : System) : (ids : List Uuid) → System → Prop
  | refl : Path s [] s
  | step {ids ids' : List Uuid} {s₁ s₂ : System} (path : Path s ids s₁)
      (last : Step s₁ ids' s₂) : Path s (ids ++ ids') s₂

theorem Path.trans {s s₁ s₂ : System} {ids ids' : List Uuid} (h : Path s ids s₁)
    (h' : Path s₁ ids' s₂) : Path s (ids ++ ids') s₂ := by
  induction h' with
  | refl => rwa [List.append_nil]
  | step _ last ih =>
    rw [← List.append_assoc]
    exact ih.step last

end System

/-! ## Calls that nothing comes between

Steps would be worth little if they were not those of the engine. Put together, and with no other
thread in between, they are its calls: the answer is the same, and so is the engine that is left. -/

namespace Engine

variable {e : Engine} {key : String} {r : Request} {t : Instant} {c c' : Cache}

/-- A look-up is read off what resolving a key comes to. -/
theorem getSetting_eq_of_resolve {value : Option Value} {cache : Option Cache}
    (h : (e.view t).resolve key r e.cache = (value, cache)) :
    e.getSetting key r t = (value, { e with cache }) := by
  unfold getSetting read
  exact congrArg (fun x => (x.1, { e with cache := x.2 })) h

/-- Without a cache a look-up answers from the store. -/
theorem getSetting_of_uncached (hc : e.cache = none) :
    e.getSetting key r t = ((e.view t).value? key r, e) := by
  have hresolve : (e.view t).resolve key r e.cache = ((e.view t).value? key r, e.cache) := by
    unfold View.resolve
    rw [hc]
  exact getSetting_eq_of_resolve hresolve

/-- With an answer in the cache it leaves everything as it is. -/
theorem getSetting_of_hit {value : Option Value} (hc : e.cache = some c)
    (h : c.find? key r.dimensions t = some value) : e.getSetting key r t = (value, e) := by
  have hresolve : (e.view t).resolve key r e.cache = (value, e.cache) := by
    unfold View.resolve
    rw [hc]
    dsimp only [view]
    rw [h]
  exact getSetting_eq_of_resolve hresolve

/-- Otherwise it answers from the store, and the cache keeps the answer. -/
theorem getSetting_of_miss (hc : e.cache = some c) (h : c.find? key r.dimensions t = none)
    (hc' : c.insert? key r.dimensions ((e.view t).value? key r) (c.generation key) t = some c') :
    e.getSetting key r t = ((e.view t).value? key r, { e with cache := some c' }) := by
  have hresolve : (e.view t).resolve key r e.cache = ((e.view t).value? key r, some c') := by
    unfold View.resolve View.refresh
    rw [hc]
    dsimp only [view] at hc' ⊢
    rw [h, hc']
    rfl
  exact getSetting_eq_of_resolve hresolve

end Engine

/-- What is inserted under the current generation is kept. Where nothing comes between, the
generation that was taken is current still. -/
theorem Cache.exists_insert?_generation (c : Cache) (key : String) (scope : Scope)
    (value : Option Value) (t : Instant) :
    ∃ c', c.insert? key scope value (c.generation key) t = some c' := by
  unfold insert?
  rw [if_pos rfl]
  exact ⟨_, rfl⟩

namespace System

@[simp] theorem set_threads (s : System) (i : Nat) (th : Thread) :
    (s.set i th).threads i = th := Function.update_self _ _ _

/-- **A reader that nothing comes between** has the answer of the look-up, and leaves the engine as
the look-up does. There are three ways through the steps: without a cache, with an answer in it, and
with none. -/
theorem exists_path_getSetting (s : System) {i : Nat} (hi : s.threads i = .idle) (key : String)
    (r : Request) (t : Instant) :
    ∃ s', Path s [] s' ∧ s'.engine = (s.engine.getSetting key r t).2
      ∧ s'.threads i = .served ⟨key, r, s.returned⟩ (s.engine.getSetting key r t).1 := by
  have hbegin : Path s [] _ := Path.refl.step (.begin i key r hi)
  -- A step of the reader after the other, each one the only one that is possible.
  cases hc : s.engine.cache with
  | none =>
    rw [Engine.getSetting_of_uncached hc]
    exact ⟨_, hbegin.step (.loadUncached t (set_threads _ _ _) hc), rfl, set_threads _ _ _⟩
  | some c =>
    cases hfind : c.find? key r.dimensions t with
    | some value =>
      rw [Engine.getSetting_of_hit hc hfind]
      exact ⟨_, hbegin.step (.hit t (set_threads _ _ _) hc hfind), rfl, set_threads _ _ _⟩
    | none =>
      have hmiss := hbegin.step (.miss t (set_threads _ _ _) hc hfind)
      have htag := hmiss.step (.tag (set_threads _ _ _) hc)
      have hload := htag.step (.load t (set_threads _ _ _))
      obtain ⟨c', hc'⟩ := c.exists_insert?_generation key r.dimensions
        ((s.engine.view t).value? key r) t
      rw [Engine.getSetting_of_miss hc hfind hc']
      exact ⟨_, hload.step (.keep t (set_threads _ _ _) hc hc'), rfl, set_threads _ _ _⟩

/-- A thread that goes on and is idle again has left the threads as they were. -/
theorem update_threads (s : System) {i : Nat} (hi : s.threads i = .idle) (th : Thread) :
    Function.update (Function.update s.threads i th) i .idle = s.threads := by
  rw [Function.update_idem, ← hi, Function.update_eq_self]

/-- **A writer that nothing comes between** leaves the engine as the call does, and adds the store
that the call makes to those that there have been. It makes two steps, and the cache is cut between
them as the call cuts it at its end. -/
theorem exists_path_setSetting (s : System) {i : Nat} (hi : s.threads i = .idle) {key : String}
    {value : Value} {options : SettingOptions} {o : Occasion} {new : Setting} {e' : Engine}
    (h : s.engine.setSetting key value options o = .ok (new, e')) :
    ∃ s', Path s [o.rowId] s' ∧ s'.engine = e' ∧ s'.threads = s.threads
      ∧ s'.stores = s.stores ++ [e'.store] := by
  have hcommit : Path s [o.rowId] _ := Path.refl.step (.commitSetting hi h)
  refine ⟨_, hcommit.step (.conclude (set_threads _ _ _)), ?_, s.update_threads hi _, rfl⟩
  obtain ⟨rfl, -⟩ := Engine.place_of_setSetting h
  obtain ⟨-, -, rfl⟩ := Engine.setSetting_eq_ok_iff.1 h
  rfl

/-- So does one that deletes a setting. -/
theorem exists_path_deleteSetting (s : System) {i : Nat} (hi : s.threads i = .idle) {id : Uuid}
    {author : Author} {o : Occasion} {e' : Engine}
    (h : s.engine.deleteSetting id author o = .ok e') :
    ∃ s', Path s [] s' ∧ s'.engine = e' ∧ s'.threads = s.threads
      ∧ s'.stores = s.stores ++ [e'.store] := by
  obtain ⟨old, hold, -, -, rfl⟩ := Engine.deleteSetting_eq_ok_iff.1 h
  have hcommit : Path s [] _ := Path.refl.step (.commitDeletion hi hold h)
  exact ⟨_, hcommit.step (.conclude (set_threads _ _ _)), rfl, s.update_threads hi _, rfl⟩

end System

end Tariff
