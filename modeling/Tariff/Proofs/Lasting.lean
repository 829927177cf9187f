import Tariff.Proofs.Coherence

/-!
# Answers that last

A look-up may put its answer into the cache, and another one may have to go for it. So what
is answered may depend on what was asked before: an answer that is out of date, since a
setting has begun or expired meanwhile, is served until it goes, and is then read anew.

It depends on nothing else. Where nothing that may be served is out of date
(`View.UpToDate`), an answer that goes comes back as it was; and where there is room for the
answers to come, none goes. In both cases a number of look-ups leaves all answers as they
are (`View.Lasting.resolve`). What is put together from so many look-ups then ends the same
whatever was asked before it (`View.LooksUp.eq_of_sameAnswers`).
-/

namespace Tariff

/-! ## What the cache serves -/

namespace Cache

variable {c : Cache} {key : String} {scope : Scope} {t : Instant}

/-- Making room takes entries out and changes nothing else, so what is fresh stays fresh. -/
theorem lifetime_makeRoom : (c.makeRoom t).lifetime = c.lifetime := by
  obtain ⟨entries, heq, -⟩ := c.exists_makeRoom_eq t
  rw [heq]

/-- There is an oldest entry unless there is none at all. -/
theorem oldest?_eq_none_iff {entries : List Entry} : oldest? entries = none ↔ entries = [] := by
  cases entries with
  | nil => exact iff_of_true rfl rfl
  | cons e rest =>
    refine iff_of_false ?_ (List.cons_ne_nil e rest)
    rw [oldest?]
    split
    · nofun
    · split <;> nofun

/-- **The oldest entry** is one of them, and none was put in before it. The induction follows
`oldest?`, which prefers the later of two entries only if it was put in strictly before. So each
case ends in a comparison of three instants. -/
theorem oldest?_eq_some {entries : List Entry} {o : Entry} (h : oldest? entries = some o) :
    o ∈ entries ∧ ∀ e ∈ entries, o.insertedAt ≤ e.insertedAt := by
  induction entries generalizing o with
  | nil => cases h
  | cons e rest ih =>
    rw [oldest?] at h
    cases hrest : oldest? rest with
    | none =>
      rw [hrest] at h
      cases h
      rw [oldest?_eq_none_iff.1 hrest]
      simp [Instant.le_iff]
    | some o' =>
      obtain ⟨hmem, hle⟩ := ih hrest
      rw [hrest] at h
      dsimp only at h
      rw [List.forall_mem_cons]
      simp only [Instant.le_iff] at hle ⊢
      split at h
      · next hlt =>
        cases h
        rw [Instant.lt_iff] at hlt
        exact ⟨List.mem_cons_of_mem e hmem, by omega, hle⟩
      · next hge =>
        cases h
        rw [Instant.lt_iff] at hge
        exact ⟨List.mem_cons_self, by omega, fun x hx => by have := hle x hx; omega⟩

/-- **There is no room, and nothing has expired.** Then what makes room for an answer puts out one
that could still have been served. This is the only case in which an answer is lost that a look-up
would have given. -/
def IsFull (c : Cache) (t : Instant) : Prop :=
  c.capacity ≤ c.size ∧ ∀ e ∈ c.entries, c.isFresh t e = true

/-- **The oldest entry goes where nothing has expired.** Room is made in two steps, the expired ones
first and the oldest one if that does not help; here the first step takes nothing out. -/
theorem makeRoom_of_isFull (h : c.IsFull t) : c.makeRoom t = c.evictOldest := by
  have hexpired : c.evictExpired t = c := by
    unfold evictExpired
    rw [List.filter_eq_self.2 h.2]
  unfold makeRoom
  rw [if_neg (Nat.not_lt.2 h.1), hexpired]
  exact if_neg (Nat.not_lt.2 h.1)

/-- **The cache with an entry** in the place of the one for its key and dimensions. The entry is put
at the end, as a fresh answer is. No generation is asked for here, nor is any room made: this is
what remains of putting in once both have been settled. -/
def put (c : Cache) (entry : Entry) : Cache :=
  { c with
    entries := (c.entries.filter fun e => !e.isFor entry.key entry.scope) ++ [entry] }

/-- **The entry is found** for its key and dimensions, and for others what was found before.
The entries with the same key and dimensions have been taken out, so the one at the end is
the only one. -/
theorem entry?_put (entry : Entry) : entry? (c.put entry) key scope
    = if key = entry.key ∧ scope = entry.scope then some entry else c.entry? key scope := by
  unfold entry? put
  rw [List.find?_append]
  split
  · next h =>
    obtain ⟨rfl, rfl⟩ := h
    have hnone : (c.entries.filter fun e => !e.isFor entry.key entry.scope).find?
        (fun e => e.isFor entry.key entry.scope) = none := by
      refine List.find?_eq_none.2 fun e he hfor => ?_
      have hnot := (List.mem_filter.1 he).2
      rw [hfor] at hnot
      cases hnot
    have hnew : entry.isFor entry.key entry.scope = true := Entry.isFor_iff.2 ⟨rfl, rfl⟩
    rw [hnone, List.find?_singleton, hnew]
    rfl
  · next h =>
    -- No entry is for both pairs.
    have hother : ∀ e : Entry, e.isFor key scope = true →
        e.isFor entry.key entry.scope = false := by
      intro e hfor
      obtain ⟨rfl, rfl⟩ := Entry.isFor_iff.1 hfor
      exact Bool.eq_false_iff.2 fun hfor' => h (Entry.isFor_iff.1 hfor')
    have hsame : (c.entries.filter fun e => !e.isFor entry.key entry.scope).find?
        (fun e => e.isFor key scope) = c.entries.find? fun e => e.isFor key scope := by
      rw [List.find?_filter]
      congr 1
      funext e
      cases hfor : e.isFor key scope with
      | false => simp
      | true => simp [hother e hfor]
    have hnew : entry.isFor key scope = false := Bool.eq_false_iff.2 fun hfor =>
      h ⟨(Entry.isFor_iff.1 hfor).1.symm, (Entry.isFor_iff.1 hfor).2.symm⟩
    rw [hsame, List.find?_singleton, hnew]
    exact Option.or_none

/-- What is served after an entry has been put in is that entry where it is asked for and still
fresh, and for other keys and dimensions what was served before. -/
theorem find?_put (entry : Entry) : (c.put entry).find? key scope t
    = if key = entry.key ∧ scope = entry.scope then
        if c.isFresh t entry then some entry.value else none
      else c.find? key scope t := by
  unfold find?
  rw [entry?_put]
  by_cases h : key = entry.key ∧ scope = entry.scope
  · rw [if_pos h, if_pos h]
    rfl
  · rw [if_neg h, if_neg h]
    rfl

/-- **An answer of the current generation is put in**, and room is made if it has no entry yet. An
answer that takes the place of an older one needs no room, so a full cache loses nothing by it. -/
theorem insert?_generation (value : Option Value) :
    c.insert? key scope value (c.generation key) t
      = some ((if (c.entry? key scope).isSome then c else c.makeRoom t).put
        ⟨key, scope, value, t⟩) :=
  if_pos rfl

/-- A cache grows by one entry at most. -/
theorem size_put_le (entry : Entry) : (c.put entry).size ≤ c.size + 1 := by
  unfold size put
  rw [List.length_append]
  exact Nat.add_le_add_right (List.length_filter_le _ _) 1

end Cache

/-! ## Look-ups -/

namespace View

section Resolve

variable {v : View} {c c' : Cache} {key : String} {r : Request}

/-- **A look-up answers what is found**, and else what the store says. The cache matters to the
answer through `find?` alone. -/
theorem resolve_fst : (v.resolve key r (some c)).1
    = (c.find? key r.dimensions v.now).getD (v.value? key r) := by
  unfold resolve
  dsimp only
  cases c.find? key r.dimensions v.now with
  | none => rfl
  | some value => rfl

/-- **A look-up leaves the cache as it is**, or with its answer, for which room may have been made.
The generation that the answer was computed in is the current one, since nothing comes in between,
so it is never refused. -/
theorem resolve_snd : (v.resolve key r (some c)).2
    = some (if (c.find? key r.dimensions v.now).isSome then c
        else (if (c.entry? key r.dimensions).isSome then c else c.makeRoom v.now).put
          ⟨key, r.dimensions, v.value? key r, v.now⟩) := by
  unfold resolve
  dsimp only
  cases c.find? key r.dimensions v.now with
  | none =>
    dsimp only [refresh]
    rw [Cache.insert?_generation]
    rfl
  | some value => rfl

/-- The lifetime is part of the configuration, and no look-up changes it. -/
theorem lifetime_resolve (h : (v.resolve key r (some c)).2 = some c') :
    c'.lifetime = c.lifetime := by
  rw [resolve_snd] at h
  cases h
  split
  · rfl
  · unfold Cache.put
    split
    · rfl
    · exact Cache.lifetime_makeRoom

/-- **Where there is room, one answer is put in** at most, and none goes for it. -/
theorem resolve_snd_of_room (hroom : c.size < c.capacity) : (v.resolve key r (some c)).2
    = some (if (c.find? key r.dimensions v.now).isSome then c
        else c.put ⟨key, r.dimensions, v.value? key r, v.now⟩) := by
  have hmakeRoom : c.makeRoom v.now = c := if_pos hroom
  rw [resolve_snd, hmakeRoom, ite_self]

end Resolve

/-- **Nothing that the cache may serve is out of date**: what it says the store would say now.
Expired entries are left out, as they are never served. A request need not be the one that the entry
was put in for: all with the same dimensions are served by it. -/
def UpToDate (v : View) (cache : Option Cache) : Prop :=
  ∀ c, cache = some c → ∀ entry ∈ c.entries, c.isFresh v.now entry = true →
    ∀ r : Request, r.dimensions = entry.scope → v.value? entry.key r = entry.value

/-- **Answers last** for so many look-ups: nothing that may be served is out of date, or there is
room for all that these look-ups may put in. Either is enough. In the first case an answer that goes
is found again as it was. In the second case none goes, and what is out of date stays so. -/
def Lasting (v : View) (n : Nat) (cache : Option Cache) : Prop :=
  v.UpToDate cache ∨ ∀ c, cache = some c → c.size + n ≤ c.capacity

/-- **All look-ups answer the same** with two caches. The caches themselves may differ, by what one
of them has put in and the other one would still have to read. -/
def SameAnswers (v : View) (c c' : Option Cache) : Prop :=
  ∀ key r, (v.resolve key r c).1 = (v.resolve key r c').1

variable {v : View} {cache : Option Cache}

namespace UpToDate

/-- A look-up answers what the store says, whether it is served from the cache or not. -/
theorem resolve_eq (h : v.UpToDate cache) (key : String) (r : Request) :
    (v.resolve key r cache).1 = v.value? key r := by
  cases cache with
  | none => rfl
  | some c =>
    rw [resolve_fst]
    cases hfind : c.find? key r.dimensions v.now with
    | none => rfl
    | some value =>
      obtain ⟨entry, hentry, hfresh, rfl⟩ := Cache.find?_eq_some hfind
      obtain ⟨hmem, rfl, hscope⟩ := Cache.entry?_eq_some hentry
      exact (h c rfl entry hmem hfresh r hscope.symm).symm

/-- **A look-up puts in what is not out of date**, since it has just been read. So the property is
kept, also by a look-up that puts another answer out. -/
theorem resolve (h : v.UpToDate cache) (key : String) (r : Request) :
    v.UpToDate (v.resolve key r cache).2 := by
  intro c hc entry hentry hfresh r' hr'
  obtain ⟨c₀, rfl, hold⟩ | rfl := mem_resolve hc hentry
  · refine h c₀ rfl entry hold ?_ r' hr'
    unfold Cache.isFresh at hfresh ⊢
    rwa [← lifetime_resolve hc]
  · exact v.value?_eq_of_dimensions_eq key hr'

end UpToDate

/-- **A look-up changes no answer where there is room** for its own. What it puts in is what it has
just answered, so whoever asks for the same next is told the same, and all other entries stay. -/
theorem sameAnswers_resolve_of_room {c : Cache} (hroom : c.size < c.capacity) (key : String)
    (r : Request) : v.SameAnswers (v.resolve key r (some c)).2 (some c) := by
  intro key' r'
  rw [resolve_snd_of_room hroom]
  split
  · rfl
  · next hmiss =>
    rw [resolve_fst, resolve_fst, Cache.find?_put]
    split
    · next hsame =>
      -- The answer that was put in is the one that the store gives.
      obtain ⟨rfl, hdimensions⟩ := hsame
      dsimp only at hdimensions
      have hvalue := v.value?_eq_of_dimensions_eq key' hdimensions
      rw [hdimensions, Option.not_isSome_iff_eq_none.1 hmiss, hvalue]
      split <;> rfl
    · rfl

namespace Lasting

variable {n k : Nat}

/-- Answers that last for some look-ups last for fewer. -/
theorem mono (h : v.Lasting k cache) (hle : n ≤ k) : v.Lasting n cache :=
  h.imp id fun hroom c hc => Nat.le_trans (Nat.add_le_add_left hle c.size) (hroom c hc)

/-- **A look-up changes no answer where answers last**, and the answers last for those to come.
This is the step that everything else here repeats. Of the look-ups there was room for, one has
been used up. -/
theorem resolve (h : v.Lasting (n + 1) cache) (key : String) (r : Request) :
    v.Lasting n (v.resolve key r cache).2
      ∧ v.SameAnswers (v.resolve key r cache).2 cache := by
  cases cache with
  | none => exact ⟨.inl nofun, fun _ _ => rfl⟩
  | some c =>
    obtain hup | hroom := h
    · have hleft := hup.resolve key r
      exact ⟨.inl hleft, fun key' r' =>
        (hleft.resolve_eq key' r').trans (hup.resolve_eq key' r').symm⟩
    · have hsize := hroom c rfl
      have hlt : c.size < c.capacity := by omega
      refine ⟨.inr fun c' hc' => ?_, sameAnswers_resolve_of_room hlt key r⟩
      rw [resolve_snd_of_room hlt] at hc'
      cases hc'
      split
      · omega
      · have hput := Cache.size_put_le (c := c) ⟨key, r.dimensions, v.value? key r, v.now⟩
        exact Nat.le_trans (Nat.add_le_add_right hput n) (by rwa [Nat.add_right_comm])

end Lasting

/-! ## What is put together from look-ups -/

/-- **A computation ends the same with two caches that answer the same**, if their answers last for
its look-ups. It leaves them lasting for as many more as they had been, and changes none.

The induction is on how the computation is put together. The first part alone would not go through
it: what follows a look-up runs in the cache that this one leaves, so it has to be known that this
cache answers as the first one did, and that its answers last for what is still to come. -/
theorem LooksUp.eq_of_sameAnswers {α : Type} {n k : Nat} {m : Pricing α} (hm : v.LooksUp n m)
    {c c' : Option Cache} (hc : v.Lasting (n + k) c) (hc' : v.Lasting (n + k) c')
    (hsame : v.SameAnswers c c') :
    (m c).1 = (m c').1 ∧ v.Lasting k (m c).2 ∧ v.SameAnswers (m c).2 c := by
  induction hm generalizing k c c' with
  | @pure α n a => exact ⟨rfl, hc.mono (Nat.le_add_left k n), fun _ _ => rfl⟩
  | @throw α n f => exact ⟨rfl, hc.mono (Nat.le_add_left k n), fun _ _ => rfl⟩
  | resolve key r =>
    rw [Nat.add_comm] at hc
    obtain ⟨hleft, hkept⟩ := hc.resolve key r
    exact ⟨congrArg Except.ok (hsame key r), hleft, hkept⟩
  | @bind α β n l m g _ _ hm hg =>
    rw [Nat.add_assoc] at hc hc'
    obtain ⟨heq, hleft, hkept⟩ := hm hc hc' hsame
    -- The same statement with the caches exchanged says that the other one keeps its answers too.
    obtain ⟨-, hleft', hkept'⟩ := hm hc' hc fun key r => (hsame key r).symm
    rw [Pricing.bind_apply, Pricing.bind_apply, heq]
    cases (m c').1 with
    | error f => exact ⟨rfl, hleft.mono (Nat.le_add_left k l), hkept⟩
    | ok a =>
      have hboth : v.SameAnswers (m c).2 (m c').2 := fun key r =>
        (hkept key r).trans ((hsame key r).trans (hkept' key r).symm)
      obtain ⟨hend, hlast, hsame'⟩ := hg a hleft hleft' hboth
      exact ⟨hend, hlast, fun key r => (hsame' key r).trans (hkept key r)⟩
  | mono _ hle hm =>
    exact hm (hc.mono (Nat.add_le_add_right hle k)) (hc'.mono (Nat.add_le_add_right hle k)) hsame

/-- **Computations one after the other end as each does on its own** where answers last for all of
them: each finds the answers that there were before the first. On the right all of them run in one
and the same cache. -/
theorem mapM_eq_of_sameAnswers {α β : Type} {n k : Nat} {f : α → Pricing β}
    (hf : ∀ a, v.LooksUp n (f a)) {l : List α} {c c' : Option Cache}
    (hc : v.Lasting (l.length * n + k) c) (hc' : v.Lasting (l.length * n + k) c')
    (hsame : v.SameAnswers c c') :
    ((l.mapM f : Pricing (List β)) c).1 = l.mapM fun a => (f a c').1 := by
  induction l generalizing c with
  | nil => rfl
  | cons a rest ih =>
    have hlength : (a :: rest).length * n + k = n + (rest.length * n + k) := by
      rw [List.length_cons, Nat.succ_mul]
      omega
    rw [hlength] at hc hc'
    obtain ⟨heq, hleft, hkept⟩ := (hf a).eq_of_sameAnswers hc hc' hsame
    have hrest := ih hleft (hc'.mono (Nat.le_add_left _ n))
      fun key r => (hkept key r).trans (hsame key r)
    rw [List.mapM_cons, List.mapM_cons, Pricing.bind_apply, heq]
    cases (f a c').1 with
    | error x => rfl
    | ok b =>
      show ((rest.mapM f >>= fun bs => pure (b :: bs) : Pricing (List β)) (f a c).2).1 = _
      rw [Pricing.bind_apply, hrest]
      cases rest.mapM fun a => (f a c').1 with
      | error x => rfl
      | ok bs => rfl

end View

end Tariff
