import Tariff.Proofs.Interleaving

/-!
# No answer is older than the changes before it

A reader may put an answer into the cache long after it has read the store, when a
writer has changed the setting, and the answer is old. That this does no harm is due
to the generations. The answer is kept only if the key still has the generation that
the reader took before it read the store. So no change of the key has returned in
between, since every change starts a generation before it returns. This is what is
said here of a reader on its way (`System.Holds`), and it is kept by every step of
every thread (`System.Step.sound`).

An entry therefore comes from a store that has every change of its key that has
returned (`System.IsKept`). If no writer is between its two steps, these are all
changes of the key that there are, and where a store has all changes of a key, it
says what the present store says (`System.Consistent`). Together this is
`System.path_serves_recent`.

Writers do come late: one that has committed may drop the entries of its key after
another has committed and returned. This drops good answers and starts one more
generation, and the argument does not mind.
-/

namespace Tariff

/-- **The store of this number has these changes of the key**: none is of a later store. Stores are
numbered in the order of their commits, and a change is recorded as the key that it changed and the
number of the store that it led to. -/
def Includes (changes : List (String × Nat)) (key : String) (n : Nat) : Prop :=
  ∀ m, (key, m) ∈ changes → m ≤ n

/-- A store that has some changes has fewer of them, too. -/
theorem Includes.mono {changes changes' : List (String × Nat)} {key : String} {n : Nat}
    (h : Includes changes key n) (hsub : ∀ m, (key, m) ∈ changes' → (key, m) ∈ changes) :
    Includes changes' key n := fun m hm => h m (hsub m hm)

/-! ## Generations -/

namespace Cache

variable {c c' : Cache} {key : String}

/-- Entries may go without their keys' generations ending. So an answer may go out to make room and
be put in again by a reader who was on its way meanwhile. -/
theorem generation_makeRoom (c : Cache) (t : Instant) (key : String) :
    (c.makeRoom t).generation key = c.generation key := by
  obtain ⟨entries, heq, -⟩ := c.exists_makeRoom_eq t
  rw [heq]
  rfl

/-- **An answer that is kept was read under the current generation**, and starts no other. -/
theorem generation_of_insert? {scope : Scope} {value : Option Value} {g : Generation}
    {t : Instant} (h : c.insert? key scope value g t = some c') :
    c.generation key = g ∧ ∀ key', c'.generation key' = c.generation key' := by
  unfold insert? at h
  split at h
  · rename_i hg
    cases h
    refine ⟨hg, fun key' => ?_⟩
    by_cases hentry : (c.entry? key scope).isSome
    · simp only [if_pos hentry]
      rfl
    · simp only [if_neg hentry]
      exact c.generation_makeRoom t key'
  · cases h

/-- An answer that is kept takes the place of the one before. Every other entry has another key or
other dimensions. -/
theorem not_isFor_of_insert? {scope : Scope} {value : Option Value} {g : Generation}
    {t : Instant} (h : c.insert? key scope value g t = some c') {e : Entry}
    (he : e ∈ c'.entries) : e.isFor key scope = false ∨ e = ⟨key, scope, value, t⟩ := by
  unfold insert? at h
  split at h
  · cases h
    rcases List.mem_append.1 he with hold | hnew
    · have hnot := (List.mem_filter.1 hold).2
      exact .inl (by simpa using hnot)
    · exact .inr (List.mem_singleton.1 hnew)
  · cases h

/-- **Invalidation starts a generation of its key** and of no other. -/
theorem count_generation_invalidate (c : Cache) (key key' : String) :
    ((c.invalidate key).generation key').count
      = (c.generation key').count + if key' = key then 1 else 0 := by
  show c.clearings + ((increment key c.invalidations).lookup key').getD 0 = _
  rw [lookup_increment, ← Nat.add_assoc]
  rfl

/-- Clearing starts a generation of every key. -/
theorem count_generation_clear (c : Cache) (key : String) :
    (c.clear.generation key).count = (c.generation key).count + 1 :=
  Nat.add_right_comm c.clearings 1 _

end Cache

namespace System

/-! ## What is true of threads and entries

What a store gives is about an instant that has passed, and what a reader may rely on is about
changes that have returned. Neither can be told from the engine as it is now, and this is why a
system has its history. -/

/-- **The store of this number gives the value**, for an instant for which it was read. Values
depend on the time, so both have to be said. That the store was in fact read for this instant is
part of it. -/
def Gives (s : System) (n : Nat) (t : Instant) (key : String) (r : Request)
    (value : Option Value) : Prop :=
  (n, t) ∈ s.reads ∧ ∃ store, s.stores[n]? = some store
    ∧ value = View.value? ⟨store, s.engine.config.weights, t⟩ key r

/-- **What is true of a thread.** A reader that has read the store has an answer with all changes
from before it began; and while its generation is current, with all that have returned by now.

There is a case for each place that a thread may be at. The longest one is that of a reader
which has read and not yet tried to keep its answer, since it depends on what all others do
until then. The others say what is needed to get there, and what a reader may rely on when it
has been served. -/
def Holds (s : System) : Thread → Prop
  | .idle => True
  | .reading x | .missed x => x.since ⊆ s.returned
  | .tagged x g => x.since ⊆ s.returned
      ∧ ∀ c, s.engine.cache = some c → g.count ≤ (c.generation x.key).count
  | .loaded x g value t => ∃ n, s.Gives n t x.key x.request value ∧ Includes x.since x.key n
      ∧ ∀ c, s.engine.cache = some c → g.count ≤ (c.generation x.key).count
        ∧ (c.generation x.key = g → Includes s.returned x.key n)
  | .served x value => ∃ n t, s.Gives n t x.key x.request value ∧ Includes x.since x.key n
  | .committed _ n => n < s.stores.length

/-- **What is true of an entry**: it comes from a store with all changes of its key that have
returned. The request for which it was read is not kept with it, so it is said of all with its
dimensions. -/
def IsKept (s : System) (e : Cache.Entry) : Prop :=
  ∃ n, Includes s.returned e.key n
    ∧ ∀ r : Request, r.dimensions = e.scope → s.Gives n (s.readAt e.key e.scope) e.key r e.value

/-- **What is true of a system.** The last of its stores is the engine's. Everything that has
returned has led to one of them. And what is said above is true of each thread and of each entry. -/
structure Sound (s : System) : Prop where
  last : ∃ before, s.stores = before ++ [s.engine.store]
  returned : ∀ key n, (key, n) ∈ s.returned → n < s.stores.length
  threads : ∀ i, s.Holds (s.threads i)
  entries : ∀ c, s.engine.cache = some c → ∀ e ∈ c.entries, s.IsKept e

/-! ## What time does

Other threads only add to the history. So what is true of a thread that waits stays true, whichever
steps they make. -/

/-- **What may happen while a thread waits.** Stores are added and read, changes return, and while a
key keeps its generation, no change of it returns. The last part is what writers are for: each
starts a generation in the step in which its change returns. What is true of a thread stays true of
it by this alone, so that steps need not be looked at again for each kind of thread. -/
structure Advance (s s' : System) : Prop where
  config : s'.engine.config = s.engine.config
  stores : s.stores <+: s'.stores
  reads : s.reads ⊆ s'.reads
  returned : s.returned ⊆ s'.returned
  generation : ∀ c', s'.engine.cache = some c' → ∃ c, s.engine.cache = some c ∧ ∀ key,
    (c.generation key).count ≤ (c'.generation key).count
      ∧ (c'.generation key = c.generation key →
        ∀ m, (key, m) ∈ s'.returned → (key, m) ∈ s.returned)

/-- Stores are kept in the record of what was read, so what one gave it still gives. -/
theorem Gives.advance {s s' : System} {n : Nat} {t : Instant} {key : String} {r : Request}
    {value : Option Value} (h : s.Gives n t key r value) (hs : s.Advance s') :
    s'.Gives n t key r value := by
  obtain ⟨hread, store, hstore, hvalue⟩ := h
  refine ⟨hs.reads hread, store, ?_, by rw [hs.config]; exact hvalue⟩
  obtain ⟨rest, hrest⟩ := hs.stores
  rw [← hrest, List.getElem?_append_left (List.getElem?_eq_some_iff.1 hstore).1]
  exact hstore

/-- **What is true of a thread stays true** while it waits. For a reader with an answer there are
two cases: if its generation has ended, nothing is claimed of what has returned since; if it has
not, nothing of its key has. -/
theorem Holds.advance {s s' : System} {th : Thread} (h : s.Holds th) (hs : s.Advance s') :
    s'.Holds th := by
  cases th with
  | idle => trivial
  | reading x => exact List.Subset.trans h hs.returned
  | missed x => exact List.Subset.trans h hs.returned
  | tagged x g =>
    obtain ⟨hsince, hg⟩ := h
    refine ⟨List.Subset.trans hsince hs.returned, fun c' hc' => ?_⟩
    obtain ⟨c, hc, hle⟩ := hs.generation c' hc'
    exact Nat.le_trans (hg c hc) (hle x.key).1
  | loaded x g value t =>
    obtain ⟨n, hgives, hsince, hg⟩ := h
    refine ⟨n, hgives.advance hs, hsince, fun c' hc' => ?_⟩
    obtain ⟨c, hc, hgrow⟩ := hs.generation c' hc'
    obtain ⟨hle, hkeeps⟩ := hgrow x.key
    obtain ⟨hfirst, hincludes⟩ := hg c hc
    refine ⟨Nat.le_trans hfirst hle, fun hcurrent => ?_⟩
    -- A generation that is current again has been current all the time.
    have hcount : (c.generation x.key).count = g.count :=
      Nat.le_antisymm (by rw [← hcurrent]; exact hle) hfirst
    have hsame : c.generation x.key = g := by
      cases hgen : c.generation x.key
      rw [hgen] at hcount
      cases g
      exact congrArg _ hcount
    exact (hincludes hsame).mono (hkeeps (hcurrent.trans hsame.symm))
  | served x value =>
    obtain ⟨n, t, hgives, hsince⟩ := h
    exact ⟨n, t, hgives.advance hs, hsince⟩
  | committed key n => exact Nat.lt_of_lt_of_le h hs.stores.length_le

/-- An entry stays good as long as no change of its key returns. -/
theorem IsKept.advance {s s' : System} {e : Cache.Entry} (h : s.IsKept e) (hs : s.Advance s')
    (hreturned : ∀ m, (e.key, m) ∈ s'.returned → (e.key, m) ∈ s.returned)
    (hread : s'.readAt e.key e.scope = s.readAt e.key e.scope) : s'.IsKept e := by
  obtain ⟨n, hincludes, hgives⟩ := h
  refine ⟨n, hincludes.mono hreturned, fun r hr => ?_⟩
  rw [hread]
  exact (hgives r hr).advance hs

/-! ## Each kind of change

There is a lemma for each way in which a step changes the system, and the steps are then gone
through. -/

namespace Sound

variable {s : System}

/-- A thread goes on with what is true. All others are where they were. -/
theorem set (h : s.Sound) (i : Nat) {th : Thread} (hth : s.Holds th) : (s.set i th).Sound where
  last := h.last
  returned := h.returned
  threads j := by
    show s.Holds (Function.update s.threads i th j)
    by_cases hj : j = i
    · rw [hj, Function.update_self]
      exact hth
    · rw [Function.update_of_ne hj]
      exact h.threads j
  entries := h.entries

/-- **The store is read.** One more reading is recorded, and nothing else happens. -/
theorem read (h : s.Sound) (t : Instant) : (s.read t).Sound := by
  have hadvance : s.Advance (s.read t) :=
    { config := rfl
      stores := List.prefix_rfl
      reads := List.subset_cons_self _ _
      returned := List.Subset.refl _
      generation := fun c hc => ⟨c, hc, fun key => ⟨Nat.le_refl _, fun _ _ hm => hm⟩⟩ }
  exact
    { last := h.last
      returned := h.returned
      threads := fun i => (h.threads i).advance hadvance
      entries := fun c hc e he => (h.entries c hc e he).advance hadvance (fun _ hm => hm) rfl }

/-- What is read in the present store has all changes that have returned, since every change that
has returned has led to a store that is not later than the present one. -/
theorem exists_gives_read (h : s.Sound) (t : Instant) (key : String) (r : Request) :
    ∃ n, (s.read t).Gives n t key r ((s.engine.view t).value? key r)
      ∧ Includes s.returned key n := by
  obtain ⟨before, hbefore⟩ := h.last
  have hlength : s.stores.length = before.length + 1 := by rw [hbefore, List.length_append]; rfl
  refine ⟨s.stores.length - 1, ⟨List.mem_cons_self, s.engine.store, ?_, rfl⟩, fun m hm => ?_⟩
  · show s.stores[s.stores.length - 1]? = _
    rw [hlength, hbefore]
    exact List.getElem?_concat_length
  · exact Nat.le_pred_of_lt (h.returned key m hm)

/-- **A commit.** The cache does not know of it. Entries may be out of date from here on until the
writer returns, and this is no contradiction: its change has not returned. -/
theorem publish (h : s.Sound) (e : Engine) : (s.publish e).Sound := by
  have hadvance : s.Advance (s.publish e) :=
    { config := rfl
      stores := List.prefix_append _ _
      reads := List.Subset.refl _
      returned := List.Subset.refl _
      generation := fun c hc => ⟨c, hc, fun key => ⟨Nat.le_refl _, fun _ _ hm => hm⟩⟩ }
  exact
    { last := ⟨s.stores, rfl⟩
      returned := fun key n hn =>
        Nat.lt_of_lt_of_le (h.returned key n hn) hadvance.stores.length_le
      threads := fun i => (h.threads i).advance hadvance
      entries := fun c hc e he => (h.entries c hc e he).advance hadvance (fun _ hm => hm) rfl }

/-- **An answer is kept.** Its generation is current, so it has all changes that have returned. The
other entries are those from before, with the exception of some that may have gone. -/
theorem keep (h : s.Sound) {i : Nat} {x : Reading} {g : Cache.Generation}
    {value : Option Value} {t now : Instant} {c c' : Cache}
    (hi : s.threads i = .loaded x g value t) (hc : s.engine.cache = some c)
    (hc' : c.insert? x.key x.request.dimensions value g now = some c') :
    (s.keep x t c').Sound := by
  obtain ⟨hcurrent, hsame⟩ := Cache.generation_of_insert? hc'
  have hadvance : s.Advance (s.keep x t c') :=
    { config := rfl
      stores := List.prefix_rfl
      reads := List.Subset.refl _
      returned := List.Subset.refl _
      generation := fun c₁ hc₁ => by
        cases hc₁
        refine ⟨c, hc, fun key => ⟨?_, fun _ _ hm => hm⟩⟩
        exact Nat.le_of_eq (congrArg _ (hsame key).symm) }
  refine ⟨h.last, h.returned, fun j => (h.threads j).advance hadvance, fun c₁ hc₁ e he => ?_⟩
  cases hc₁
  have hread : ∀ key scope, (s.keep x t c').readAt key scope
      = if key = x.key ∧ scope = x.request.dimensions then t else s.readAt key scope :=
    fun _ _ => rfl
  obtain hother | rfl := Cache.not_isFor_of_insert? hc' he
  · have hne : ¬ (e.key = x.key ∧ e.scope = x.request.dimensions) := by
      simpa [Cache.Entry.isFor] using hother
    obtain hold | hnew := Cache.mem_of_insert?_eq_some hc' he
    · refine (h.entries c hc e hold).advance hadvance (fun _ hm => hm) ?_
      rw [hread, if_neg hne]
    · rw [hnew] at hne
      exact absurd ⟨rfl, rfl⟩ hne
  · have hloaded := h.threads i
    rw [hi] at hloaded
    obtain ⟨n, hgives, -, hg⟩ := hloaded
    refine ⟨n, (hg c hc).2 hcurrent, fun r hr => ?_⟩
    rw [hread, if_pos ⟨rfl, rfl⟩]
    obtain ⟨hmem, store, hstore, hvalue⟩ := hgives.advance hadvance
    exact ⟨hmem, store, hstore, hvalue.trans (View.value?_eq_of_dimensions_eq _ _ hr.symm)⟩

/-- **A change returns.** No reader on its way under the key can have its answer kept, since the
key has a new generation. Entries of the key are dropped, and the change does not concern any
other one. -/
theorem conclude (h : s.Sound) {key : String} {n : Nat} (hn : n < s.stores.length) :
    (s.conclude key n).Sound := by
  have hother : ∀ key' m, key' ≠ key →
      (key', m) ∈ (s.conclude key n).returned → (key', m) ∈ s.returned := by
    intro key' m hne hm
    obtain hnew | hold := List.mem_cons.1 hm
    · cases hnew
      exact absurd rfl hne
    · exact hold
  have hadvance : s.Advance (s.conclude key n) :=
    { config := rfl
      stores := List.prefix_rfl
      reads := List.Subset.refl _
      returned := List.subset_cons_self _ _
      generation := fun c' hc' => by
        obtain ⟨c, hc, rfl⟩ := Option.map_eq_some_iff.1 hc'
        refine ⟨c, hc, fun key' => ?_⟩
        have hcount := c.count_generation_invalidate key key'
        refine ⟨by omega, fun hsame m => hother key' m (fun hkey => ?_)⟩
        rw [hsame, if_pos hkey] at hcount
        omega }
  refine ⟨h.last, fun key' m hm => ?_, fun i => (h.threads i).advance hadvance,
    fun c' hc' e he => ?_⟩
  · obtain hnew | hold := List.mem_cons.1 hm
    · cases hnew
      exact hn
    · exact h.returned key' m hold
  · obtain ⟨c, hc, rfl⟩ := Option.map_eq_some_iff.1 hc'
    obtain ⟨hmem, hkey⟩ := List.mem_filter.1 he
    have hne : e.key ≠ key := of_decide_eq_true hkey
    exact (h.entries c hc e hmem).advance hadvance (fun m => hother e.key m hne) rfl

/-- Clearing drops what there is. -/
theorem clear (h : s.Sound) : { s with engine := s.engine.clearCache }.Sound := by
  have hadvance : s.Advance { s with engine := s.engine.clearCache } :=
    { config := rfl
      stores := List.prefix_rfl
      reads := List.Subset.refl _
      returned := List.Subset.refl _
      generation := fun c' hc' => by
        obtain ⟨c, hc, rfl⟩ := Option.map_eq_some_iff.1 hc'
        refine ⟨c, hc, fun key => ⟨?_, fun _ _ hm => hm⟩⟩
        rw [c.count_generation_clear]
        exact Nat.le_succ _ }
  refine ⟨h.last, h.returned, fun i => (h.threads i).advance hadvance, fun c' hc' e he => ?_⟩
  obtain ⟨c, -, rfl⟩ := Option.map_eq_some_iff.1 hc'
  cases he

end Sound

/-- **Every step of every thread** leaves true what is true of threads and entries. Each case is one
of the changes above, together with what the thread goes on with. -/
theorem Step.sound {s s' : System} {ids : List Uuid} (h : Step s ids s') (hs : s.Sound) :
    s'.Sound := by
  -- What is known of the thread that makes the step, at its place.
  have hat : ∀ {i th}, s.threads i = th → s.Holds th := fun hi => hi ▸ hs.threads _
  cases h with
  | begin i key r hi => exact hs.set i (List.Subset.refl s.returned)
  | @hit i x c value t hi hc h =>
    refine hs.set i ?_
    obtain ⟨e, hentry, -, rfl⟩ := Cache.find?_eq_some h
    obtain ⟨hmem, hkey, hscope⟩ := Cache.entry?_eq_some hentry
    obtain ⟨n, hincludes, hgives⟩ := hs.entries c hc e hmem
    rw [hkey] at hincludes hgives
    exact ⟨n, _, hgives x.request hscope.symm, hincludes.mono fun m hm => hat hi hm⟩
  | @miss i x c t hi hc h =>
    have hsince : x.since ⊆ s.returned := hat hi
    exact hs.set i hsince
  | @tag i x c hi hc =>
    refine hs.set i ⟨hat hi, fun c' hc' => ?_⟩
    rw [hc] at hc'
    cases hc'
    exact Nat.le_refl _
  | @load i x g t hi =>
    obtain ⟨hsince, hg⟩ := hat hi
    obtain ⟨n, hgives, hincludes⟩ := hs.exists_gives_read t x.key x.request
    exact (hs.read t).set i ⟨n, hgives, hincludes.mono fun m hm => hsince hm,
      fun c hc => ⟨hg c hc, fun _ => hincludes⟩⟩
  | @keep i x g value t c c' now hi hc h =>
    obtain ⟨n, hgives, hsince, -⟩ := hat hi
    exact (hs.keep hi hc h).set i ⟨n, t, hgives, hsince⟩
  | @refuse i x g value t c now hi hc h =>
    obtain ⟨n, hgives, hsince, -⟩ := hat hi
    exact hs.set i ⟨n, t, hgives, hsince⟩
  | @loadUncached i x t hi hc =>
    obtain ⟨n, hgives, hincludes⟩ := hs.exists_gives_read t x.key x.request
    exact (hs.read t).set i ⟨n, t, hgives, hincludes.mono fun m hm => hat hi hm⟩
  | @finish i x value hi => exact hs.set i trivial
  | @commitSetting i key value options o new e' hi h =>
    exact (hs.publish e').set i (by simp [Holds, publish])
  | @commitDeletion i id author o old e' hi hold h =>
    exact (hs.publish e').set i (by simp [Holds, publish])
  | @conclude i key n hi => exact (hs.conclude (hat hi)).set i trivial
  | other h => exact hs.publish _
  | clear => exact hs.clear

/-! ## Stores with all changes of a key

A store may be an old one and still say under one key what the present one says, if it has all
changes of that key. This is the second invariant, and it is what an entry of the cache is held
against the present store with. -/

/-- **The store of this number has all changes of the key that there are**: those that have
returned, and those of writers between their two steps. `Includes` speaks of the former only. -/
def HasAll (s : System) (key : String) (n : Nat) : Prop :=
  Includes s.returned key n ∧ ∀ i m, s.threads i = .committed key m → m ≤ n

/-- **A store with all changes of a key says under it what the present store says.** Later
commits have changed other keys, or the rules, or categories. They have not touched what is found
under this one. -/
def Consistent (s : System) : Prop :=
  ∀ key n store, s.stores[n]? = some store → s.HasAll key n →
    ∀ t, store.effectiveSettings [key] t = s.engine.store.effectiveSettings [key] t

/-- A thread may go on if its change, where it has committed one, has returned. -/
theorem HasAll.of_set {s : System} {i : Nat} {th : Thread} {key : String} {n : Nat}
    (h : (s.set i th).HasAll key n)
    (hi : ∀ m, s.threads i = .committed key m → (key, m) ∈ s.returned) : s.HasAll key n := by
  refine ⟨h.1, fun j m hj => ?_⟩
  by_cases hji : j = i
  · rw [hji] at hj
    exact h.1 m (hi m hj)
  · refine h.2 j m ?_
    show Function.update s.threads i th j = _
    rw [Function.update_of_ne hji]
    exact hj

namespace Consistent

variable {s : System}

/-- A thread that goes on takes no change away. -/
theorem set (h : s.Consistent) {i : Nat} (th : Thread)
    (hi : ∀ key m, s.threads i = .committed key m → (key, m) ∈ s.returned) :
    (s.set i th).Consistent := fun key n store hstore hall =>
  h key n store hstore (hall.of_set (hi key))

/-- **A new store is published**, and earlier ones with all changes of a key say the same as
before, if the new one does under that key. -/
theorem publish (h : s.Consistent) {e : Engine} {threads : Nat → Thread}
    (hframe : ∀ key n, n < s.stores.length → { s.publish e with threads }.HasAll key n →
      s.HasAll key n
        ∧ ∀ t, e.store.effectiveSettings [key] t = s.engine.store.effectiveSettings [key] t) :
    { s.publish e with threads }.Consistent := by
  intro key n store hstore hall t
  have happend : (s.stores ++ [e.store])[n]? = some store := hstore
  by_cases hn : n < s.stores.length
  · rw [List.getElem?_append_left hn] at happend
    obtain ⟨hbefore, heq⟩ := hframe key n hn hall
    exact (h key n store happend hbefore t).trans (heq t).symm
  · rw [List.getElem?_append_right (Nat.le_of_not_lt hn), List.getElem?_singleton] at happend
    split at happend
    · cases happend
      rfl
    · cases happend

/-- **A commit of a change of one key.** No earlier store has it. So for this key the new store is
the only one that has all changes, and for other keys it says what they said. -/
theorem commit (h : s.Consistent) {e : Engine} {i : Nat} {key : String}
    (hi : s.threads i = .idle)
    (hframe : ∀ key', key ≠ key' → ∀ t,
      e.store.effectiveSettings [key'] t = s.engine.store.effectiveSettings [key'] t) :
    ((s.publish e).set i (.committed key s.stores.length)).Consistent := by
  refine h.publish (fun key' n hn hall => ?_)
  have hne : key ≠ key' := by
    rintro rfl
    have hle : s.stores.length ≤ n := hall.2 i _ (Function.update_self _ _ _)
    omega
  refine ⟨HasAll.of_set (s := s) ⟨hall.1, hall.2⟩ (fun m hm => ?_), hframe key' hne⟩
  rw [hi] at hm
  cases hm

theorem conclude (h : s.Consistent) (key : String) (n : Nat) :
    (s.conclude key n).Consistent := fun key' n' store hstore hall =>
  h key' n' store hstore ⟨hall.1.mono fun _ hm => List.mem_cons_of_mem _ hm, hall.2⟩

end Consistent

/-- **Every step leaves it so**, if the identifiers that it draws are unused. This is what is needed
for a new setting to take the place of none that is there under another key. -/
theorem Step.consistent {s s' : System} {ids : List Uuid} (h : Step s ids s')
    (hwell : s.engine.store.WellFormed) (hids : ∀ id ∈ ids, s.engine.Unused id)
    (hs : s.Consistent) : s'.Consistent := by
  -- Where only a reader goes on, no change returns.
  have hreader : ∀ {i th}, s.threads i = th → (∀ key m, th ≠ .committed key m) →
      ∀ key m, s.threads i = .committed key m → (key, m) ∈ s.returned :=
    fun hi hth key m hm => absurd (hi.symm.trans hm) (hth key m)
  cases h with
  | begin i key r hi => exact hs.set _ (hreader hi nofun)
  | hit t hi hc h => exact hs.set _ (hreader hi nofun)
  | miss t hi hc h => exact hs.set _ (hreader hi nofun)
  | tag hi hc => exact hs.set _ (hreader hi nofun)
  | @load i x g t hi =>
    have hread : (s.read t).Consistent := hs
    exact hread.set _ (hreader hi nofun)
  | @keep i x g value t c c' now hi hc h =>
    have hkeep : (s.keep x t c').Consistent := hs
    exact hkeep.set _ (hreader hi nofun)
  | refuse now hi hc h => exact hs.set _ (hreader hi nofun)
  | @loadUncached i x t hi hc =>
    have hread : (s.read t).Consistent := hs
    exact hread.set _ (hreader hi nofun)
  | finish hi => exact hs.set _ (hreader hi nofun)
  | @commitSetting i key value options o new e' hi h =>
    have hunused : s.engine.Unused o.rowId := hids o.rowId (List.mem_singleton_self _)
    exact hs.commit hi fun key' hne => Engine.effectiveSettings_of_setSetting hwell hunused h hne
  | commitDeletion hi hold h =>
    exact hs.commit hi fun key' hne => Engine.effectiveSettings_of_deleteSetting hold h hne
  | @conclude i key n hi =>
    refine (hs.conclude key n).set _ (fun key' m hm => ?_)
    cases hi.symm.trans hm
    exact List.mem_cons_self
  | @other ids e' h =>
    have hpublish : { s.publish e' with threads := s.threads }.Consistent := by
      refine hs.publish fun key n hn hall => ⟨hall, fun t => ?_⟩
      unfold Store.effectiveSettings
      rw [h.settings_eq]
    exact hpublish
  | clear => exact hs

/-! ## Every path -/

/-- **A step leaves what is stored as it is**, or publishes what a change of the engine comes to. So
what the changes of an engine keep of its store is kept by interleaved ones as well. -/
theorem Step.store_cases {s s' : System} {ids : List Uuid} (h : Step s ids s') :
    (s'.engine.store = s.engine.store ∧ s'.engine.log = s.engine.log ∧ s'.stores = s.stores)
      ∨ ∃ e', Engine.Step s.engine ids [] e' ∧ s'.engine.store = e'.store
        ∧ s'.engine.log = e'.log ∧ s'.stores = s.stores ++ [e'.store] := by
  cases h with
  | commitSetting hi h => exact .inr ⟨_, .setSetting h, rfl, rfl, rfl⟩
  | commitDeletion hi hold h => exact .inr ⟨_, .deleteSetting h, rfl, rfl, rfl⟩
  | other h => exact .inr ⟨_, h.step, rfl, rfl, rfl⟩
  | _ => exact .inl ⟨rfl, rfl, rfl⟩

/-- In particular a step leaves the store well formed. -/
theorem Step.wellFormed {s s' : System} {ids : List Uuid} (h : Step s ids s')
    (hs : s.engine.store.WellFormed) : s'.engine.store.WellFormed := by
  obtain ⟨hstore, -, -⟩ | ⟨e', hstep, hstore, -, -⟩ := h.store_cases
  · rwa [hstore]
  · rw [hstore]
    exact hstep.wellFormed hs

/-- And it uses no identifiers but those that it draws. -/
theorem Step.unused {s s' : System} {ids : List Uuid} (h : Step s ids s')
    (hs : s.engine.store.WellFormed) {id : Uuid} (hid : s.engine.Unused id) (hnot : id ∉ ids) :
    s'.engine.Unused id := by
  obtain ⟨hstore, hlog, -⟩ | ⟨e', hstep, hstore, hlog, -⟩ := h.store_cases
  · exact ⟨hstore ▸ hid.setting, hstore ▸ hid.rule, hlog ▸ hid.record⟩
  · have hunused := hstep.unused hs hid hnot
    exact ⟨hstore ▸ hunused.setting, hstore ▸ hunused.rule, hlog ▸ hunused.record⟩

section Start

variable {config : EngineConfig} {e : Engine}

/-- Nothing has happened yet: there is one store, no change has returned, and the cache is empty. -/
theorem sound_start (h : Engine.create config = .ok e) : (start e).Sound where
  last := ⟨[], rfl⟩
  returned := nofun
  threads _ := trivial
  entries := by
    intro c hc entry hentry
    obtain ⟨-, rfl⟩ := Engine.create_eq_ok_iff.1 h
    have hnew : (if config.cacheSeconds = 0 then none
        else some (Cache.ofSeconds config.cacheSeconds.toNat)) = some c := hc
    split at hnew
    · cases hnew
    · cases hnew
      cases hentry

/-- There is one store, and it is the present one. -/
theorem consistent_start (e : Engine) : (start e).Consistent := by
  intro key n store hstore _ t
  cases n with
  | zero =>
    cases hstore
    rfl
  | succ n => cases hstore

/-- **What every step with fresh identifiers keeps, every path keeps** of a new engine in which no
identifier is given out twice. The induction carries along that the store is well formed and that
the identifiers still to come are unused. -/
theorem Path.keeps_fresh {P : System → Prop} (h : Engine.create config = .ok e)
    {ids : List Uuid} {s : System} (hpath : Path (start e) ids s) (hids : ids.Nodup)
    (hstart : P (start e))
    (hstep : ∀ {s₁ s₂ : System} {ids : List Uuid}, Step s₁ ids s₂ →
      s₁.engine.store.WellFormed → (∀ id ∈ ids, s₁.engine.Unused id) → P s₁ → P s₂) : P s := by
  obtain ⟨hwell, hunused⟩ := Engine.unused_of_create h
  -- What has not been drawn so far is unused.
  suffices hall : s.engine.store.WellFormed ∧ (∀ id, id ∉ ids → s.engine.Unused id) ∧ P s from
    hall.2.2
  induction hpath with
  | refl => exact ⟨hwell, fun id _ => hunused id, hstart⟩
  | step _ last ih =>
    obtain ⟨hfirst, -, hdisjoint⟩ := List.nodup_append.1 hids
    obtain ⟨hwell, hunused, hP⟩ := ih hfirst
    refine ⟨last.wellFormed hwell, fun id hid => ?_, ?_⟩
    · rw [List.mem_append, not_or] at hid
      exact last.unused hwell (hunused id hid.1) hid.2
    · refine hstep last hwell (fun id hid => hunused id (fun hbefore => ?_)) hP
      exact hdisjoint id hbefore id hid rfl

theorem Path.sound_and_consistent (h : Engine.create config = .ok e) {ids : List Uuid}
    {s : System} (hpath : Path (start e) ids s) (hids : ids.Nodup) :
    s.Sound ∧ s.Consistent :=
  hpath.keeps_fresh (P := fun s => s.Sound ∧ s.Consistent) h hids
    ⟨sound_start h, consistent_start e⟩
    (fun last hwell hunused hs => ⟨last.sound hs.1, last.consistent hwell hunused hs.2⟩)

end Start

/-- **The cache is current where no writer is on its way, and no answer is older than the changes
before it.** Whatever steps the threads of a new engine have made, in whatever order: if no writer
of its key is between commit and return, an entry has the value that the present store gives for the
instant at which its reader read the store. And what a reader is served has been read in a store
that has every change of the key that had returned when the reader began.

The first part takes both invariants. By soundness the entry comes from a store that has all changes
of its key that have returned, and these are all that there are. By consistency such a store says
under the key what the present one says. The second part is soundness alone. -/
theorem path_serves_recent {config : EngineConfig} {e : Engine}
    (h : Engine.create config = .ok e) {ids : List Uuid} {s : System}
    (hpath : Path (start e) ids s) (hids : ids.Nodup) :
    (∀ c, s.engine.cache = some c → ∀ entry ∈ c.entries,
        (∀ i n, s.threads i ≠ .committed entry.key n) →
        ∀ r : Request, r.dimensions = entry.scope →
          entry.value
            = (s.engine.view (s.readAt entry.key entry.scope)).value? entry.key r)
      ∧ ∀ i x value, s.threads i = .served x value →
        ∃ n store t, (n, t) ∈ s.reads ∧ s.stores[n]? = some store
          ∧ (∀ m, (x.key, m) ∈ x.since → m ≤ n)
          ∧ value = View.value? ⟨store, s.engine.config.weights, t⟩ x.key x.request := by
  obtain ⟨hsound, hconsistent⟩ := hpath.sound_and_consistent h hids
  refine ⟨fun c hc entry hentry hquiet r hr => ?_, fun i x value hi => ?_⟩
  · obtain ⟨n, hincludes, hgives⟩ := hsound.entries c hc entry hentry
    obtain ⟨-, store, hstore, hvalue⟩ := hgives r hr
    have hall : s.HasAll entry.key n := ⟨hincludes, fun i m hi => absurd hi (hquiet i m)⟩
    have hsame : View.candidates ⟨store, s.engine.config.weights, _⟩ entry.key
        = (s.engine.view (s.readAt entry.key entry.scope)).candidates entry.key :=
      hconsistent entry.key n store hstore hall _
    rw [hvalue]
    refine View.value?_eq_of_candidates_eq ?_ hsame r
    rfl
  · have hserved := hsound.threads i
    rw [hi] at hserved
    obtain ⟨n, t, ⟨hread, store, hstore, hvalue⟩, hsince⟩ := hserved
    exact ⟨n, store, t, hread, hstore, hsince, hvalue⟩

/-- A reader has read the empty store when a setting is written. Its answer is refused, and when it
comes again, it is served the new value, which the cache keeps. The steps are those of two threads
that take turns. -/
theorem path_serves_recent_of_race :
    Engine.create {} = .ok Engine.initial
      ∧ ∃ ids s, Path (start Engine.initial) ids s ∧ ids.Nodup
        ∧ (∃ c entry, s.engine.cache = some c ∧ c.entry? "a" {} = some entry
          ∧ entry.value = (s.engine.view (s.readAt "a" {})).value? "a" {})
        ∧ ∃ value, s.threads 1 = .served ⟨"a", {}, [("a", 1)]⟩ value
          ∧ ∃ n store t, (n, t) ∈ s.reads ∧ s.stores[n]? = some store ∧ 1 ≤ n
            ∧ value = View.value? ⟨store, {}, t⟩ "a" {} := by
  have hmiss : Path (start Engine.initial) [] _ :=
    (Path.refl.step (.begin 1 "a" {} rfl)).step (.miss (i := 1) ⟨0⟩ rfl rfl rfl)
  have hload := (hmiss.step (.tag (i := 1) rfl rfl)).step (.load (i := 1) ⟨0⟩ rfl)
  have hset : Engine.initial.setSetting "a" (.boolean true) { author := ⟨"ann", none⟩ }
    (.number 1) = .ok (_, _) := rfl
  have hwrite := (hload.step (.commitSetting (i := 0) rfl hset)).step (.conclude (i := 0) rfl)
  have hrefuse := (hwrite.step (.refuse (i := 1) ⟨2⟩ rfl rfl rfl)).step (.finish (i := 1) rfl)
  have hmiss' := (hrefuse.step (.begin 1 "a" {} rfl)).step (.miss (i := 1) ⟨2⟩ rfl rfl rfl)
  have hload' := (hmiss'.step (.tag (i := 1) rfl rfl)).step (.load (i := 1) ⟨2⟩ rfl)
  have hkeep := hload'.step (.keep (i := 1) ⟨2⟩ rfl rfl rfl)
  obtain ⟨hentries, hserved⟩ := path_serves_recent Engine.create_initial hkeep (by decide)
  obtain ⟨n, store, t, hread, hstore, hsince, hvalue⟩ := hserved 1 ⟨"a", {}, [("a", 1)]⟩ _ rfl
  refine ⟨rfl, _, _, hkeep, by decide, ⟨_, _, rfl, rfl, hentries _ rfl _ (.head _) ?_ {} rfl⟩,
    _, rfl, n, store, t, hread, hstore, hsince 1 (.head _), hvalue⟩
  -- The writer has returned.
  intro i n hi
  by_cases hreader : i = 1
  · subst hreader
    cases hi
  · by_cases hwriter : i = 0
    · subst hwriter
      cases hi
    · simp [set, read, keep, conclude, publish, start, hreader, hwriter] at hi

end System

end Tariff
