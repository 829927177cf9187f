import Tariff.Proofs.Fresh

/-!
# What the cache says is what the store says

An entry of the cache was right when it was put in. By then the store may have
changed, and the entry is still served. It is right all the same, in this sense:
the store **as it is now**, asked for the instant at which the entry was put in,
would answer the same (`Coherent`).

Two things make this so. A change of a setting drops the entries of its key, and
leaves what the store says under every other key as it was, whatever else it may
change (`effectiveSettings_insert`, `effectiveSettings_erase`). And an answer
depends on the request only through the dimensions that the entry is kept under
(`value?_eq_of_dimensions_eq`). How the cache makes room, and when it forgets, does
not matter.

An answer for one instant is the answer for a later one, if no setting under the
key begins or expires in between (`value?_eq_of_no_boundary`). So a value read
through the cache may differ from the value in the store only where one does.
-/

namespace Tariff

/-! ## What an answer depends on

An entry is kept under the key and the dimensions of a request. It is served to all requests with
these dimensions, so nothing else about them may matter. -/

/-- Whether a scope covers a request depends on its dimensions. What else a request carries, a
quantity or a size, is for the conditions of rules. -/
theorem Scope.covers_eq_of_dimensions_eq {r r' : Request} (h : r.dimensions = r'.dimensions)
    (s : Scope) : s.covers r = s.covers r' := by
  unfold Request.dimensions at h
  injection h with houtlet hcylinder htier hoperation
  unfold covers
  rw [houtlet, hcylinder, htier, hoperation]

/-- So the same setting is best for two requests with the same dimensions. -/
theorem Candidate.best?_eq_of_dimensions_eq {r r' : Request} (h : r.dimensions = r'.dimensions)
    (w : Weights) (settings : List Setting) : best? w r settings = best? w r' settings := by
  have hof : of? w r = of? w r' := by
    funext s
    unfold of? Weights.score?
    rw [s.scope.covers_eq_of_dimensions_eq h]
  unfold best? rank
  rw [hof]

namespace View

/-- **An answer depends on the request through its dimensions only.** -/
theorem value?_eq_of_dimensions_eq (v : View) (key : String) {r r' : Request}
    (h : r.dimensions = r'.dimensions) : v.value? key r = v.value? key r' := by
  unfold value? setting?
  rw [Candidate.best?_eq_of_dimensions_eq h]

/-- Of the store and the instant only the settings in effect under the key count. A change of the
store that leaves these alone, and their order, is no change to the answer. -/
theorem value?_eq_of_candidates_eq {v v' : View} {key : String} (hw : v'.weights = v.weights)
    (h : v'.candidates key = v.candidates key) (r : Request) :
    v'.value? key r = v.value? key r := by
  unfold value? setting?
  rw [hw, h]

end View

/-! ## What an answer for another instant is

Time changes answers only where a setting begins or expires. Between two such instants an answer may
be kept as it is. -/

theorem Instant.le_iff (t t' : Instant) : t ≤ t' ↔ t.ticks ≤ t'.ticks := Iff.rfl

theorem Instant.lt_iff (t t' : Instant) : t < t' ↔ t.ticks < t'.ticks := Iff.rfl

namespace Setting

/-- **The setting begins or expires** after one instant and not after another. An instant at which
it begins belongs to the time in which it is in effect, and an instant at which it expires does not,
so that both count as a turn once they are reached. -/
def TurnsBetween (s : Setting) (t t' : Instant) : Prop :=
  t < s.effectiveDate ∧ s.effectiveDate ≤ t' ∨ ∃ x, s.expiryDate = some x ∧ t < x ∧ x ≤ t'

/-- A setting that does not turn applies later where it applies now. Between two instants nothing
else can happen to a setting that is not written. -/
theorem isEffectiveAt_eq_of_not_turns {s : Setting} {t t' : Instant} (hle : t ≤ t')
    (h : ¬ s.TurnsBetween t t') : s.isEffectiveAt t' = s.isEffectiveAt t := by
  unfold TurnsBetween at h
  rw [not_or] at h
  obtain ⟨hbegin, hend⟩ := h
  have heffective : s.effectiveDate ≤ t' ↔ s.effectiveDate ≤ t := by
    simp only [Instant.le_iff, Instant.lt_iff] at hle hbegin ⊢
    omega
  have hexpiry : s.expiryDate.all (fun x => decide (t' < x))
      = s.expiryDate.all fun x => decide (t < x) := by
    cases hx : s.expiryDate with
    | none => rfl
    | some x =>
      have hstays : t' < x ↔ t < x := by
        have hnot : ¬ (t < x ∧ x ≤ t') := fun hturn => hend ⟨x, hx, hturn⟩
        simp only [Instant.le_iff, Instant.lt_iff] at hle hnot ⊢
        omega
      simp [hstays]
  unfold isEffectiveAt
  rw [hexpiry, decide_eq_decide.2 heffective]

end Setting

/-- **An answer stays the same until a setting under the key begins or expires.** So an answer that
was right is wrong later only if one has, as long as the store is the same. -/
theorem View.value?_eq_of_not_turns {v : View} {key : String} {t : Instant} (hle : v.now ≤ t)
    (h : ∀ s ∈ v.store.settings.values, s.key = key → ¬ s.TurnsBetween v.now t) (r : Request) :
    { v with now := t }.value? key r = v.value? key r := by
  refine @value?_eq_of_candidates_eq v { v with now := t } key rfl ?_ r
  unfold candidates Store.effectiveSettings
  congr 1
  refine List.filter_congr (fun s hs => ?_)
  by_cases hkey : s.key = key
  · rw [Setting.isEffectiveAt_eq_of_not_turns hle (h s hs hkey)]
  · simp [hkey]

/-! ## What a change leaves alone

A change drops the entries of its own key. So those of all other keys have to be right after it as
well, and this is what is shown here, for a row that is written and for one that is taken out. -/

namespace Store

variable {s : Store} {key : String} {t : Instant}

/-- **A setting that is written under another key changes nothing under this one**, nor does the one
whose place it takes. That the old setting has the same key as the new one is not a matter of
tables: the place is found by key and scope. -/
theorem effectiveSettings_insert {new : Setting} (hkey : new.key ≠ key)
    (hold : ∀ old, s.setting? new.id = some old → old.key ≠ key) :
    { s with settings := s.settings.insert new.id new }.effectiveSettings [key] t
      = s.effectiveSettings [key] t := by
  unfold effectiveSettings
  rw [Table.filter_values_insert]
  · simp [hkey]
  · intro old h
    simp [hold old h]

/-- **A setting that is deleted under another key changes nothing under this one.** The settings
that are left keep their order. -/
theorem effectiveSettings_erase {id : Uuid}
    (hold : ∀ old, s.setting? id = some old → old.key ≠ key) :
    { s with settings := s.settings.erase id }.effectiveSettings [key] t
      = s.effectiveSettings [key] t := by
  unfold effectiveSettings
  rw [Table.filter_values_erase]
  intro old h
  simp [hold old h]

end Store

/-! ## What the cache holds

Of the cache it is only needed that it makes no entries up: whatever it holds it held before, or it
has just been read from the store. -/

namespace Cache

variable {c : Cache} {e : Entry} {key : String} {scope : Scope} {t : Instant}

/-- **Making room only drops entries**, and leaves everything else about the cache as it was. -/
theorem exists_makeRoom_eq (c : Cache) (t : Instant) :
    ∃ entries, c.makeRoom t = { c with entries } ∧ entries.Sublist c.entries := by
  have hexpired : (c.evictExpired t).entries.Sublist c.entries := List.filter_sublist
  unfold makeRoom
  -- Nothing goes, or what has expired, or besides that what is oldest.
  split
  · exact ⟨_, rfl, List.Sublist.refl _⟩
  · dsimp only
    split
    · exact ⟨_, rfl, hexpired⟩
    · unfold evictOldest
      split
      · exact ⟨_, rfl, hexpired⟩
      · exact ⟨_, rfl, List.filter_sublist.trans hexpired⟩

theorem mem_of_mem_makeRoom (h : e ∈ (c.makeRoom t).entries) : e ∈ c.entries := by
  obtain ⟨entries, heq, hsublist⟩ := c.exists_makeRoom_eq t
  rw [heq] at h
  exact hsublist.subset h

/-- **After an answer was kept there is its entry** and those that were there before. Which of those
are left is of no interest here: the fewer there are, the less there is to be right. -/
theorem mem_of_insert?_eq_some {value : Option Value} {g : Generation} {c' : Cache}
    (hc : c.insert? key scope value g t = some c') (h : e ∈ c'.entries) :
    e ∈ c.entries ∨ e = ⟨key, scope, value, t⟩ := by
  unfold insert? at hc
  split at hc
  · cases hc
    rcases List.mem_append.1 h with hold | hnew
    · have hold := List.mem_of_mem_filter hold
      split at hold
      · exact .inl hold
      · exact .inl (mem_of_mem_makeRoom hold)
    · exact .inr (List.mem_singleton.1 hnew)
  · cases hc

/-- What is found is an entry for the key and dimensions that may be served. -/
theorem find?_eq_some {value : Option Value} (h : c.find? key scope t = some value) :
    ∃ e, c.entry? key scope = some e ∧ c.isFresh t e = true ∧ e.value = value := by
  unfold find? at h
  cases hentry : c.entry? key scope with
  | none => rw [hentry] at h; cases h
  | some e =>
    rw [hentry] at h
    dsimp only at h
    split at h
    · next hfresh => exact ⟨e, rfl, hfresh, Option.some.inj h⟩
    · cases h

theorem Entry.isFor_iff : e.isFor key scope = true ↔ e.key = key ∧ e.scope = scope := by
  unfold isFor
  rw [Bool.and_eq_true, decide_eq_true_eq, decide_eq_true_eq]

theorem entry?_eq_some (h : c.entry? key scope = some e) :
    e ∈ c.entries ∧ e.key = key ∧ e.scope = scope := by
  have hfor := List.find?_some h
  exact ⟨List.mem_of_find?_eq_some h, Entry.isFor_iff.1 hfor⟩

end Cache

/-- **What a look-up leaves in the cache**: entries that were there, and the answer for its instant.
The answer is that of the store, as it was read in the look-up. -/
theorem View.mem_resolve {v : View} {key : String} {r : Request} {cache : Option Cache}
    {c : Cache} (hc : (v.resolve key r cache).2 = some c) {e : Cache.Entry} (h : e ∈ c.entries) :
    (∃ c₀, cache = some c₀ ∧ e ∈ c₀.entries)
      ∨ e = ⟨key, r.dimensions, v.value? key r, v.now⟩ := by
  cases cache with
  | none => cases hc
  | some c₀ =>
    -- A look-up that finds an answer changes nothing. One that does not keeps the answer of the
    -- store, unless it is refused.
    unfold resolve at hc
    dsimp only at hc
    split at hc
    · cases hc
      exact .inl ⟨_, rfl, h⟩
    · unfold refresh at hc
      dsimp only at hc
      cases hinsert : c₀.insert? key r.dimensions (v.value? key r) (c₀.generation key) v.now with
      | none =>
        rw [hinsert] at hc
        cases hc
        exact .inl ⟨_, rfl, h⟩
      | some c₁ =>
        rw [hinsert] at hc
        cases hc
        rcases Cache.mem_of_insert?_eq_some hinsert h with hold | hnew
        · exact .inl ⟨c₀, rfl, hold⟩
        · exact .inr hnew

namespace Engine

/-! ## Changes of settings -/

section Change

variable {e e' : Engine} {key key' : String} {o : Occasion}

/-- **What is written under one key is no news under another**, if the identifier that is drawn is
unused. Were it in use, the new setting would take the place of one that may have another key,
without the entries of that key being dropped. -/
theorem effectiveSettings_of_setSetting {value : Value} {options : SettingOptions} {new : Setting}
    (he : e.store.WellFormed) (hid : e.Unused o.rowId)
    (h : e.setSetting key value options o = .ok (new, e')) (hne : key ≠ key') (t : Instant) :
    e'.store.effectiveSettings [key'] t = e.store.effectiveSettings [key'] t := by
  have hkey : new.key = key := (place_of_setSetting h).1
  have hreplaced : ∀ old, e.store.setting? new.id = some old → old.key = key :=
    fun old hold => (place_of_replaced he (fun _ => hid.setting) h hold).1
  obtain ⟨-, -, rfl⟩ := setSetting_eq_ok_iff.1 h
  exact Store.effectiveSettings_insert (by rwa [hkey])
    (fun old hold => by rwa [hreplaced old hold])

/-- **Nor is what is deleted**: the setting that goes is the one whose key is dropped from
the cache. -/
theorem effectiveSettings_of_deleteSetting {id : Uuid} {author : Author} {old : Setting}
    (hold : e.store.setting? id = some old) (h : e.deleteSetting id author o = .ok e')
    (hne : old.key ≠ key') (t : Instant) :
    e'.store.effectiveSettings [key'] t = e.store.effectiveSettings [key'] t := by
  obtain ⟨old', hold', -, -, rfl⟩ := deleteSetting_eq_ok_iff.1 h
  refine Store.effectiveSettings_erase (fun b hb => ?_)
  rw [hold] at hb
  cases hb
  exact hne

end Change

/-! ## The invariant

Every step keeps it. A look-up puts in what it has just read, a change leaves what it has not
dropped right, and a cache that is cleared has nothing that could be wrong. -/

/-- **An entry is right**: the store would answer the same for the instant at which the entry was
put in. It is the store as it is now that is asked, not as it was then. So it is not enough that the
entry was right when it was put in, and the store may not be changed behind its back. -/
def IsRight (e : Engine) (entry : Cache.Entry) : Prop :=
  ∀ r : Request, r.dimensions = entry.scope →
    (e.view entry.insertedAt).value? entry.key r = entry.value

/-- **All entries are right**, and they were put in when the clock was read. The second part is
what allows to compare the instant of an entry with the instant of a look-up, if the clock does
not go back. -/
def Coherent (e : Engine) (readings : List Instant) : Prop :=
  ∀ c, e.cache = some c → ∀ entry ∈ c.entries,
    e.IsRight entry ∧ entry.insertedAt ∈ readings

/-- What is right stays right where nothing changes under its key. The instant is left open, since
the entry is about an instant that has passed. -/
theorem IsRight.of_frame {e e' : Engine} {entry : Cache.Entry} (h : e.IsRight entry)
    (hconfig : e'.config = e.config)
    (hframe : ∀ t, e'.store.effectiveSettings [entry.key] t
      = e.store.effectiveSettings [entry.key] t) :
    e'.IsRight entry := by
  intro r hr
  have hweights : (e'.view entry.insertedAt).weights = (e.view entry.insertedAt).weights := by
    show e'.config.weights = e.config.weights
    rw [hconfig]
  rw [← h r hr]
  exact View.value?_eq_of_candidates_eq hweights (hframe entry.insertedAt) r

/-- **A change under one key, whose entries it drops, keeps the cache coherent** if it changes
nothing under the others. Of the entries that are left none is for the key. -/
theorem Coherent.of_invalidate {e e' : Engine} {readings : List Instant}
    (h : e.Coherent readings) (key : String)
    (hcache : e'.cache = e.cache.map fun c => c.invalidate key)
    (hconfig : e'.config = e.config)
    (hframe : ∀ key', key ≠ key' → ∀ t, e'.store.effectiveSettings [key'] t
      = e.store.effectiveSettings [key'] t) :
    e'.Coherent readings := by
  intro c hc entry hentry
  rw [hcache] at hc
  obtain ⟨c₀, hc₀, rfl⟩ := Option.map_eq_some_iff.1 hc
  obtain ⟨hmem, hkey⟩ := List.mem_filter.1 hentry
  obtain ⟨hright, hreading⟩ := h c₀ hc₀ entry hmem
  have hne : key ≠ entry.key := fun heq => of_decide_eq_true hkey heq.symm
  exact ⟨hright.of_frame hconfig (hframe entry.key hne), hreading⟩

/-- **Every step keeps the cache coherent** if the identifiers that it draws are unused.

There is one case for each kind of step. A change of a setting drops the entries of its key and
changes nothing under other keys. Categories and rules are not what look-ups answer. A look-up adds
an entry at most, which is right because it was computed from this very store. -/
theorem Step.coherent {e e' : Engine} {ids : List Uuid} {ts : List Instant}
    {readings : List Instant} (h : Step e ids ts e') (he : e.store.WellFormed)
    (hids : ∀ id ∈ ids, e.Unused id) (hts : ∀ t ∈ ts, t ∈ readings)
    (hcoherent : e.Coherent readings) : e'.Coherent readings := by
  -- Only changes of settings and look-ups can do harm.
  cases h with
  | @setSetting key value options o new e' h =>
    have hunused : e.Unused o.rowId := hids o.rowId (List.mem_singleton_self _)
    have hframe := fun key' (hne : key ≠ key') => effectiveSettings_of_setSetting he hunused h hne
    obtain ⟨rfl, -⟩ := place_of_setSetting h
    obtain ⟨-, -, rfl⟩ := setSetting_eq_ok_iff.1 h
    exact hcoherent.of_invalidate new.key rfl rfl hframe
  | @deleteSetting id author o e' h =>
    obtain ⟨old, hold, -, -, rfl⟩ := deleteSetting_eq_ok_iff.1 h
    exact hcoherent.of_invalidate old.key rfl rfl fun key' hne =>
      effectiveSettings_of_deleteSetting hold h hne
  | createCategory h =>
    obtain ⟨-, -, -, rfl⟩ := createCategory_eq_ok_iff.1 h
    exact hcoherent
  | createRule h =>
    obtain ⟨-, -, -, -, rfl⟩ := createRule_eq_ok_iff.1 h
    exact hcoherent
  | updateRule h =>
    obtain ⟨-, old, -, -, -, -, rfl⟩ := updateRule_eq_ok_iff.1 h
    exact hcoherent
  | deleteRule h =>
    obtain ⟨old, -, -, -, rfl⟩ := deleteRule_eq_ok_iff.1 h
    exact hcoherent
  | clearCache =>
    intro c hc entry hentry
    obtain ⟨c₀, -, rfl⟩ := Option.map_eq_some_iff.1 hc
    cases hentry
  | lookUp key r t =>
    intro c hc entry hentry
    obtain ⟨c₀, hc₀, hold⟩ | hnew := View.mem_resolve (v := e.view t) hc hentry
    · exact hcoherent c₀ hc₀ entry hold
    · subst hnew
      refine ⟨fun r' hr' => ?_, hts t (List.mem_singleton_self t)⟩
      exact View.value?_eq_of_dimensions_eq _ key hr'

/-- **The caches of all runs of new engines are coherent**, by induction on the steps: a new cache
has no entries, and every identifier that a step draws is unused if none is given out twice. -/
theorem coherent_run {config : EngineConfig} {e : Engine} (h : Engine.create config = .ok e)
    (calls : List Call) (hids : (calls.flatMap Call.rowIds).Nodup) :
    (e.run calls).Coherent (calls.flatMap Call.readings) := by
  refine run_keeps_fresh (P := fun e => e.Coherent (calls.flatMap Call.readings)) h calls hids ?_
    (fun hstep hwell hunused hts he => hstep.coherent hwell hunused hts he)
  intro c hc entry hentry
  rw [(create_eq_ok_iff.1 h).2] at hc
  dsimp only at hc
  split at hc
  · cases hc
  · cases hc
    cases hentry

/-- **A look-up answers from the store or from an entry** for the key and dimensions. Which of the
two it is depends on whether there is an entry and how old it is. -/
theorem getSetting_eq_or (e : Engine) (key : String) (r : Request) (t : Instant) :
    (e.getSetting key r t).1 = (e.view t).value? key r
      ∨ ∃ c entry, e.cache = some c ∧ c.entry? key r.dimensions = some entry
        ∧ (e.getSetting key r t).1 = entry.value := by
  show ((e.view t).resolve key r e.cache).1 = _ ∨ ∃ c entry, _ ∧ _
    ∧ ((e.view t).resolve key r e.cache).1 = _
  unfold View.resolve
  cases hcache : e.cache with
  | none => exact .inl rfl
  | some c =>
    dsimp only
    cases hfind : c.find? key r.dimensions (e.view t).now with
    | none => exact .inl rfl
    | some value =>
      obtain ⟨entry, hentry, -, hvalue⟩ := Cache.find?_eq_some hfind
      exact .inr ⟨c, entry, rfl, hentry, hvalue.symm⟩

end Engine

/-- **The cache says what the store says.** After any run of a new engine in which no identifier is
given out twice, the present store would answer every entry's key for every request with its
dimensions as the entry does, for the instant at which it was put in. So if the clock does not go
back, a value that is read through the cache is the one in the store, unless a setting under the key
has begun or expired since the entry was put in.

The exception is real, and is what an entry is given a lifetime for. Nothing else makes a
difference: no change that was made by calls, and nothing that the cache does to make room. -/
theorem getSetting_run_eq_value? {config : EngineConfig} {e : Engine}
    (h : Engine.create config = .ok e) (calls : List Call)
    (hids : (calls.flatMap Call.rowIds).Nodup) :
    (∀ c, (e.run calls).cache = some c → ∀ entry ∈ c.entries, ∀ r : Request,
        r.dimensions = entry.scope →
          entry.value = ((e.run calls).view entry.insertedAt).value? entry.key r)
      ∧ ∀ key r now, (calls.flatMap Call.readings ++ [now]).Pairwise (· ≤ ·) →
        ((e.run calls).getSetting key r now).1 = ((e.run calls).view now).value? key r
          ∨ ∃ c entry, (e.run calls).cache = some c
            ∧ c.entry? key r.dimensions = some entry
            ∧ ∃ s ∈ (e.run calls).store.settings.values, s.key = key
              ∧ s.TurnsBetween entry.insertedAt now := by
  have hcoherent := Engine.coherent_run h calls hids
  refine ⟨fun c hc entry hentry r hr => ((hcoherent c hc entry hentry).1 r hr).symm, ?_⟩
  intro key r now hclock
  have hbefore : ∀ t ∈ calls.flatMap Call.readings, t ≤ now := fun t ht =>
    (List.pairwise_append.1 hclock).2.2 t ht now (List.mem_singleton_self now)
  obtain hstore | ⟨c, entry, hc, hentry, hvalue⟩ := (e.run calls).getSetting_eq_or key r now
  · exact .inl hstore
  · -- The entry is right for its own instant. If nothing has turned since, it is right for now.
    obtain ⟨hmem, rfl, hscope⟩ := Cache.entry?_eq_some hentry
    obtain ⟨hright, hreading⟩ := hcoherent c hc entry hmem
    by_cases hturns : ∃ s ∈ (e.run calls).store.settings.values,
        s.key = entry.key ∧ s.TurnsBetween entry.insertedAt now
    · exact .inr ⟨c, entry, hc, hentry, hturns⟩
    · refine .inl (hvalue.trans ?_)
      rw [← hright r hscope.symm]
      symm
      refine View.value?_eq_of_not_turns (v := (e.run calls).view entry.insertedAt)
        (hbefore _ hreading) (fun s hs hkey hturn => hturns ⟨s, hs, hkey, hturn⟩) r

/-- A setting is written and looked up. The entry that this leaves is right, and the next
look-up, which it answers, too. -/
theorem getSetting_run_eq_value?_of_entry :
    Engine.create {} = .ok Engine.initial
      ∧ ∃ e, e = Engine.initial.run
          [.setSetting "a" (.boolean true) { author := ⟨"ann", none⟩ } (.number 1),
          .getSetting "a" {} ⟨2⟩]
        ∧ (∃ c entry, e.cache = some c ∧ c.entry? "a" {} = some entry
          ∧ entry.value = (e.view ⟨2⟩).value? "a" {})
        ∧ (e.getSetting "a" {} ⟨3⟩).1 = (e.view ⟨3⟩).value? "a" {} := by
  obtain ⟨hentries, hlookup⟩ := getSetting_run_eq_value? Engine.create_initial
    [.setSetting "a" (.boolean true) { author := ⟨"ann", none⟩ } (.number 1),
      .getSetting "a" {} ⟨2⟩] (by decide)
  have hclock := hlookup "a" {} ⟨3⟩ (by decide)
  refine ⟨rfl, _, rfl, ⟨_, _, rfl, rfl, hentries _ rfl _ (.head _) {} rfl⟩, ?_⟩
  obtain hstore | ⟨c, entry, hc, hentry, s, hs, hkey, hturns⟩ := hclock
  · exact hstore
  · -- The only setting begins before the entry is put in, and does not expire.
    cases hc
    cases hentry
    obtain rfl := List.mem_singleton.1 (show s ∈ [_] from hs)
    rcases hturns with ⟨hbegins, -⟩ | ⟨x, hx, -⟩
    · exact absurd hbegins (by decide)
    · cases hx

end Tariff
