import Mathlib.Data.List.Chain
import Tariff.Proofs.Locality
import Tariff.Proofs.Recency

/-!
# What a version stands for

Whoever has read a setting and writes it again may give the version that was read.
The write is refused if another version is found, so that nobody writes over a
change that he has not seen. A version is a number, however, and the question is
whether it can come back: whether the setting can have changed, and then changed
again, until it has the number that was read.

Changes are committed one after the other, whatever the threads do in between, and
what there is under a key and exact scope can go three ways from one store to the
next (`Store.Follows`). It may be the same setting as before; or there is a setting
whose version is one more, where no setting counts as version 0; or there was a
setting, and there is none. So a number comes back in two ways only. A setting
that was taken away, by deleting it or by writing it inactive, is followed by one
whose versions begin again at 1. And versions have 32 bits. If neither has happened,
a write that gives the version it has read is made where nothing has changed
(`System.path_unchanged_of_expected`).
-/

namespace Tariff

namespace Store

/-- **The version of the active setting under a key and exact scope**, 0 if there is none. No
setting has that version until versions come round. -/
def versionAt (s : Store) (key : String) (scope : Scope) : UInt32 :=
  match s.exactSetting? key scope with
  | none => 0
  | some x => x.version

/-- **What may have become of the active setting under a key and exact scope** from one store to the
next. One that was not there and is written now is at version 1, which is one more than 0; so a
creation and an update are one case. -/
inductive Follows (key : String) (scope : Scope) (s s' : Store) : Prop
  | same (h : s'.exactSetting? key scope = s.exactSetting? key scope)
  | written (h : s'.versionAt key scope = s.versionAt key scope + 1)
  | removed (hbefore : (s.exactSetting? key scope).isSome = true)
      (hafter : s'.exactSetting? key scope = none)

variable {s s' : Store} {key : String} {scope : Scope}

/-- **The setting found under a key and exact scope is the active one that has them.** -/
theorem WellFormed.exactSetting?_eq_some_iff (hs : s.WellFormed) {x : Setting} :
    s.exactSetting? key scope = some x
      ↔ s.setting? x.id = some x ∧ x.active = true ∧ x.key = key ∧ x.scope = scope := by
  constructor
  · intro hx
    exact ⟨hs.setting?_of_exactSetting? hx, (exactSetting?_eq_some hx).2⟩
  · rintro ⟨hfind, hactive, hkey, hscope⟩
    have hmem : x ∈ s.settings.values := (hs.settings_keyed.mem_values_iff x).2 hfind
    cases hy : s.exactSetting? key scope with
    | none => exact absurd hscope (not_active_of_exactSetting?_eq_none hy hmem hactive hkey)
    | some y =>
      obtain ⟨hmem', hactive', hkey', hscope'⟩ := exactSetting?_eq_some hy
      rw [hs.active_unique x hmem y hmem' hactive hactive' (hkey.trans hkey'.symm)
        (hscope.trans hscope'.symm)]

/-- **Where the setting that differs is not the one in question, the same one is found.** -/
theorem SameBut.exactSetting?_eq {x : Setting} (h : s.SameBut x s') (hs : s.WellFormed)
    (hs' : s'.WellFormed)
    (hout : ∀ y, s.setting? x.id = some y ∨ s'.setting? x.id = some y → y.active = true →
      y.key = key → y.scope ≠ scope) :
    s'.exactSetting? key scope = s.exactSetting? key scope := by
  refine Option.ext (fun y => ?_)
  rw [hs.exactSetting?_eq_some_iff, hs'.exactSetting?_eq_some_iff]
  refine and_congr_left (fun ⟨hactive, hkey, hscope⟩ => ?_)
  by_cases hid : y.id = x.id
  · rw [hid]
    exact iff_of_false (fun hy => hout y (.inr hy) hactive hkey hscope)
      (fun hy => hout y (.inl hy) hactive hkey hscope)
  · rw [h.others y.id hid]

end Store

namespace SettingOptions

variable {options : SettingOptions}

/-- **A write that expects a version finds it.** Where there is no setting, this is version 0. -/
theorem versionAt_eq_of_expected {s : Store} {key : String} {v : UInt32}
    (hv : options.expectedVersion = some v)
    (h : options.checkVersion key (s.exactSetting? key options.scope) = .ok ()) :
    s.versionAt key options.scope = v := by
  by_contra hne
  have hrefused : options.checkVersion key (s.exactSetting? key options.scope)
      = .error (.versionConflict key v (s.versionAt key options.scope)) := by
    unfold checkVersion
    rw [hv]
    exact if_neg hne
  rw [hrefused] at h
  cases h

/-- What is written has the next version. -/
theorem version_written (options : SettingOptions) (key : String) (value : Value) (s : Store)
    (o : Occasion) :
    (options.written key value (s.exactSetting? key options.scope) o).version
      = s.versionAt key options.scope + 1 := by
  unfold Store.versionAt
  cases s.exactSetting? key options.scope <;> rfl

end SettingOptions

/-! ## Every step of an engine

For each setting it is told what a step makes of it. This has two cases, the setting that the step
is about and any other. -/

namespace Engine

variable {e e' : Engine} {o : Occasion} {key : String} {scope : Scope}

/-- **What is found where a setting was written** is that setting, or none if it was
written inactive. -/
theorem exactSetting?_of_setSetting {value : Value} {options : SettingOptions} {new : Setting}
    (he : e.store.WellFormed) (h : e.setSetting key value options o = .ok (new, e')) :
    e'.store.exactSetting? key options.scope = if new.active then some new else none := by
  have he' := (Step.setSetting h).wellFormed he
  obtain ⟨hnewkey, hnewscope⟩ := place_of_setSetting h
  obtain ⟨-, hnew, rfl⟩ := setSetting_eq_ok_iff.1 h
  refine Option.ext (fun y => ?_)
  rw [he'.exactSetting?_eq_some_iff, setting?_withSetting]
  constructor
  · rintro ⟨hfind, hactive, hkey, hscope⟩
    split at hfind
    · cases hfind
      rw [if_pos hactive]
    · next hother =>
      -- An active setting that was there before has lost its place.
      have hmem : y ∈ e.store.settings.values := (he.settings_keyed.mem_values_iff y).2 hfind
      have hid : y.id = new.id := by
        rw [hnew]
        exact id_written_of_active he hmem hactive hkey hscope
      exact absurd hid hother
  · intro hy
    split at hy
    · next hactive =>
      obtain rfl := Option.some.inj hy
      rw [if_pos rfl]
      exact ⟨rfl, hactive, hnewkey, hnewscope⟩
    · cases hy

/-- **Writing a setting** makes the next version of it, or takes it away if it is written
inactive, and leaves all others. -/
theorem follows_setSetting {key' : String} {value : Value} {options : SettingOptions}
    {new : Setting} (he : e.store.WellFormed) (hid : e.Unused o.rowId)
    (h : e.setSetting key' value options o = .ok (new, e')) :
    e.store.Follows key scope e'.store := by
  have he' := (Step.setSetting h).wellFormed he
  have hsame := sameBut_setSetting he (fun _ => hid.setting) h
  have hfound := exactSetting?_of_setSetting he h
  obtain ⟨hkey, hscope⟩ := place_of_setSetting h
  obtain ⟨-, hnew, -⟩ := setSetting_eq_ok_iff.1 h
  by_cases hplace : new.key = key ∧ new.scope = scope
  · -- The setting in question is written.
    obtain ⟨rfl, rfl⟩ := hplace
    subst hkey
    rw [hscope]
    by_cases hactive : new.active = true
    · rw [if_pos hactive] at hfound
      refine .written ?_
      rw [← options.version_written new.key value e.store o, ← hnew]
      unfold Store.versionAt
      rw [hfound]
    · rw [if_neg hactive] at hfound
      cases hold : e.store.exactSetting? new.key options.scope with
      | none => exact .same (hfound.trans hold.symm)
      | some old => exact .removed (by rw [hold]; rfl) hfound
  · -- Another one is.
    refine .same (hsame.exactSetting?_eq he he' (fun y hy _ hykey hyscope => hplace ?_))
    obtain ⟨hkey', hscope'⟩ := hsame.place y hy
    exact ⟨hkey'.symm.trans hykey, hscope'.symm.trans hyscope⟩

/-- **Deleting a setting** takes it away, and leaves all others. -/
theorem follows_deleteSetting {id : Uuid} {author : Author} (he : e.store.WellFormed)
    (h : e.deleteSetting id author o = .ok e') : e.store.Follows key scope e'.store := by
  have he' := (Step.deleteSetting h).wellFormed he
  obtain ⟨old, hold, hsame⟩ := sameBut_deleteSetting he h
  have hrow : old.id = id := he.settings_keyed id old hold
  subst hrow
  have hgone : e'.store.setting? old.id = none := by
    obtain ⟨-, -, -, -, rfl⟩ := deleteSetting_eq_ok_iff.1 h
    rw [setting?_withoutSetting, if_pos rfl]
  by_cases hplace : old.active = true ∧ old.key = key ∧ old.scope = scope
  · -- The active setting in question is deleted.
    have hfound : e.store.exactSetting? key scope = some old := by
      rw [he.exactSetting?_eq_some_iff]
      exact ⟨hold, hplace⟩
    refine .removed (by rw [hfound]; rfl) (Option.eq_none_iff_forall_ne_some.2 fun y hy => ?_)
    obtain ⟨hfind, hplace'⟩ := he'.exactSetting?_eq_some_iff.1 hy
    by_cases hid : y.id = old.id
    · rw [hid, hgone] at hfind
      cases hfind
    · -- Another setting with the key and scope would have been found before.
      rw [hsame.others y.id hid] at hfind
      have hfound' := he.exactSetting?_eq_some_iff.2 ⟨hfind, hplace'⟩
      rw [hfound] at hfound'
      cases hfound'
      exact hid rfl
  · -- Another setting is, or one that was inactive.
    refine .same (hsame.exactSetting?_eq he he' (fun y hy hactive hkey hscope => hplace ?_))
    rcases hy with hy | hy
    · rw [hold] at hy
      cases hy
      exact ⟨hactive, hkey, hscope⟩
    · rw [hgone] at hy
      cases hy

/-- **Every step of an engine**, if the identifiers that it draws are unused. Most steps leave the
setting as it is, since they write another one or none. -/
theorem Step.follows {ids : List Uuid} {ts : List Instant} (h : Step e ids ts e')
    (he : e.store.WellFormed) (hids : ∀ id ∈ ids, e.Unused id) (key : String) (scope : Scope) :
    e.store.Follows key scope e'.store := by
  have hother : e'.store.settings = e.store.settings → e.store.Follows key scope e'.store := by
    intro hsettings
    refine .same ?_
    unfold Store.exactSetting?
    rw [hsettings]
  cases h with
  | @setSetting key' value options o new e' h =>
    exact follows_setSetting he (hids o.rowId (List.mem_singleton_self _)) h
  | deleteSetting h => exact follows_deleteSetting he h
  | createCategory h => exact hother (OtherChange.createCategory h).settings_eq
  | createRule h => exact hother (OtherChange.createRule h).settings_eq
  | updateRule h => exact hother (OtherChange.updateRule h).settings_eq
  | deleteRule h => exact hother (OtherChange.deleteRule h).settings_eq
  | clearCache => exact hother rfl
  | lookUp key' r t => exact hother rfl

end Engine

/-! ## What the stores of a run go through

The history of a system is a list of its stores, and each follows the one before. So a version is
followed through the list. -/

/-- **The versions of a setting along a chain of stores.** Either the setting was taken away on the
way, or its last version is its first one and as many more as it has changed; and if it has not
changed, every store has the same setting. The induction is along the chain, one store at a time. As
versions are added with 32 bits, the number of changes is kept beside them. -/
theorem Store.exists_changes_of_chain {key : String} {scope : Scope} {store : Store}
    {later : List Store} (h : (store :: later).IsChain (Follows key scope)) {last : Store}
    (hlast : (store :: later).getLast? = some last) :
    (∃ a b, [a, b] <:+: store :: later ∧ (a.exactSetting? key scope).isSome = true
        ∧ b.exactSetting? key scope = none)
      ∨ ∃ n ≤ later.length,
        last.versionAt key scope = store.versionAt key scope + UInt32.ofNat n
        ∧ (n = 0 → ∀ s ∈ later, s.exactSetting? key scope = store.exactSetting? key scope) := by
  induction later generalizing store with
  | nil =>
    cases hlast
    exact .inr ⟨0, Nat.le_refl _, by simp, fun _ => by simp⟩
  | cons next later ih =>
    obtain ⟨hfirst, hrest⟩ := List.isChain_cons_cons.1 h
    rw [List.getLast?_cons_cons] at hlast
    obtain ⟨a, b, hinfix, hgone⟩ | ⟨n, hn, hversion, hsame⟩ := ih hrest hlast
    · -- If the setting is taken away later on, it is taken away in the whole chain.
      exact .inl ⟨a, b, hinfix.trans (List.suffix_cons _ _).isInfix, hgone⟩
    · -- Otherwise the first step adds to what the others count.
      cases hfirst with
      | same heq =>
        refine .inr ⟨n, Nat.le_succ_of_le hn, ?_, fun hzero s hs => ?_⟩
        · rw [hversion]
          unfold versionAt
          rw [heq]
        · rcases List.mem_cons.1 hs with rfl | hs
          · exact heq
          · exact (hsame hzero s hs).trans heq
      | written hnext =>
        refine .inr ⟨n + 1, Nat.succ_le_succ hn, ?_, nofun⟩
        rw [hversion, hnext, UInt32.ofNat_add, UInt32.add_assoc, UInt32.add_comm 1]
        rfl
      | removed hbefore hafter =>
        exact .inl ⟨store, next, (List.prefix_append [store, next] later).isInfix, hbefore, hafter⟩

namespace System

/-- **The stores that there have been follow one another**, and the present one is the last. -/
structure Chained (s : System) (key : String) (scope : Scope) : Prop where
  follows : s.stores.IsChain (Store.Follows key scope)
  last : s.stores.getLast? = some s.engine.store

/-- **Every step of every thread** leaves it so, if the identifiers that it draws are unused. -/
theorem Step.chained {s s' : System} {ids : List Uuid} (h : Step s ids s')
    (hwell : s.engine.store.WellFormed) (hids : ∀ id ∈ ids, s.engine.Unused id) {key : String}
    {scope : Scope} (hs : s.Chained key scope) : s'.Chained key scope := by
  obtain ⟨hstore, -, hstores⟩ | ⟨e', hstep, hstore, -, hstores⟩ := h.store_cases
  · exact ⟨hstores ▸ hs.follows, by rw [hstores, hstore]; exact hs.last⟩
  · refine ⟨?_, by rw [hstores, hstore]; exact List.getLast?_concat⟩
    rw [hstores, List.isChain_append]
    refine ⟨hs.follows, List.isChain_singleton _, fun a ha b hb => ?_⟩
    rw [hs.last] at ha
    cases ha
    cases hb
    exact hstep.follows hwell hids key scope

theorem Path.chained {config : EngineConfig} {e : Engine} (h : Engine.create config = .ok e)
    {ids : List Uuid} {s : System} (hpath : Path (start e) ids s) (hids : ids.Nodup)
    (key : String) (scope : Scope) : s.Chained key scope :=
  hpath.keeps_fresh (P := fun s => s.Chained key scope) h hids ⟨List.isChain_singleton _, rfl⟩
    (fun last hwell hunused hs => last.chained hwell hunused hs)

/-- **A write that gives the version it has read is made where nothing has changed**, or where the
setting has been taken away in between, or where so many changes have been made that versions have
come round. Whatever steps the threads of a new engine have made, in whatever order: let one of the
stores that there have been be the one that was read, and let a setting be written in the present
one, expecting the version that was read.

The last two cases cannot be left out. The example at the end has the second one. The third one
takes `2 ^ 32` commits, and it is said so without a proof that it happens. -/
theorem path_unchanged_of_expected {config : EngineConfig} {e : Engine}
    (h : Engine.create config = .ok e) {ids : List Uuid} {s : System}
    (hpath : Path (start e) ids s) (hids : ids.Nodup) {before later : List Store} {store : Store}
    (hstores : s.stores = before ++ store :: later) {key : String} {value : Value}
    {options : SettingOptions} {o : Occasion} {new : Setting} {e' : Engine}
    (hversion : options.expectedVersion = some (store.versionAt key options.scope))
    (hset : s.engine.setSetting key value options o = .ok (new, e')) :
    (∀ x ∈ later, x.exactSetting? key options.scope = store.exactSetting? key options.scope)
      ∨ (∃ a b, [a, b] <:+: store :: later ∧ (a.exactSetting? key options.scope).isSome = true
        ∧ b.exactSetting? key options.scope = none)
      ∨ 2 ^ 32 ≤ later.length := by
  obtain ⟨hfollows, hlast⟩ := hpath.chained h hids key options.scope
  rw [hstores] at hfollows hlast
  have hchain := (List.isChain_append.1 hfollows).2.1
  rw [List.getLast?_append_of_ne_nil _ (List.cons_ne_nil _ _)] at hlast
  have hexpected := SettingOptions.versionAt_eq_of_expected hversion
    (Engine.setSetting_eq_ok_iff.1 hset).1.version_expected
  obtain hgone | ⟨n, hn, hcount, hsame⟩ := Store.exists_changes_of_chain hchain hlast
  · exact .inr (.inl hgone)
  · rw [hexpected] at hcount
    -- The version is the same after `n` changes, so `n` is no number of 32 bits unless it is zero.
    have hround : UInt32.ofNat n = 0 := by simpa using hcount
    have hmod : n % 2 ^ 32 = 0 := by simpa using congrArg UInt32.toNat hround
    by_cases hzero : n = 0
    · exact .inl (hsame hzero)
    · exact .inr (.inr (by omega))

/-- Another thread writes under another key, and a write that expects the version from before
is made. The setting that it changes is the one that was read. -/
theorem path_unchanged_of_expected_other_key :
    Engine.create {} = .ok Engine.initial
      ∧ ∃ ids s before store later, Path (start Engine.initial) ids s ∧ ids.Nodup
        ∧ s.stores = before ++ store :: later ∧ later.length = 1 ∧ store.versionAt "a" {} = 1
        ∧ (∃ new e', s.engine.setSetting "a" (.boolean false)
          { expectedVersion := some 1, author := ⟨"ann", none⟩ } (.number 3) = .ok (new, e'))
        ∧ ∀ x ∈ later, x.exactSetting? "a" {} = store.exactSetting? "a" {} := by
  let first : Call := .setSetting "a" (.boolean true) { author := ⟨"ann", none⟩ } (.number 1)
  let second : Call := .setSetting "b" (.boolean true) { author := ⟨"bob", none⟩ } (.number 2)
  let e₁ := Engine.initial.run [first]
  let e₂ := Engine.initial.run [first, second]
  have hfirst : Engine.initial.setSetting "a" (.boolean true) { author := ⟨"ann", none⟩ }
    (.number 1) = .ok (_, e₁) := rfl
  have hsecond : e₁.setSetting "b" (.boolean true) { author := ⟨"bob", none⟩ } (.number 2)
    = .ok (_, e₂) := rfl
  have hset : e₂.setSetting "a" (.boolean false)
    { expectedVersion := some 1, author := ⟨"ann", none⟩ } (.number 3) = .ok (_, _) := rfl
  obtain ⟨s₁, hpath₁, he₁, hthreads₁, hstores₁⟩ :=
    (start Engine.initial).exists_path_setSetting (i := 0) rfl hfirst
  rw [← he₁] at hsecond
  obtain ⟨s₂, hpath₂, he₂, -, hstores₂⟩ :=
    s₁.exists_path_setSetting (i := 1) (by rw [hthreads₁]; rfl) hsecond
  rw [← he₂] at hset
  have hpath := hpath₁.trans hpath₂
  have hstores : s₂.stores = [Engine.initial.store] ++ e₁.store :: [e₂.store] := by
    rw [hstores₂, hstores₁]
    rfl
  refine ⟨rfl, _, s₂, _, e₁.store, [e₂.store], hpath, by decide, hstores, rfl, rfl,
    ⟨_, _, hset⟩, ?_⟩
  obtain hsame | ⟨a, b, hinfix, -, hgone⟩ | hround :=
    path_unchanged_of_expected Engine.create_initial hpath (by decide) hstores rfl hset
  · exact hsame
  · -- There is one step only, and there is a setting after it.
    have hlast : [a, b] = [e₁.store, e₂.store] := hinfix.eq_of_length rfl
    cases hlast
    cases hgone
  · exact absurd hround (by decide)

/-- **A version can come back.** A setting is read at version 1 and deleted by another thread, which
then writes it anew. The write that expects version 1 is made, though the setting that it changes is
not the one that was read. -/
theorem path_changed_of_expected_after_deletion :
    ∃ ids s before store later, Path (start Engine.initial) ids s ∧ ids.Nodup
      ∧ s.stores = before ++ store :: later ∧ store.versionAt "a" {} = 1
      ∧ (∃ new e', s.engine.setSetting "a" (.boolean false)
        { expectedVersion := some 1, author := ⟨"ann", none⟩ } (.number 4) = .ok (new, e'))
      ∧ s.engine.store.exactSetting? "a" {} ≠ store.exactSetting? "a" {} := by
  let first : Call := .setSetting "a" (.boolean true) { author := ⟨"ann", none⟩ } (.number 1)
  let second : Call := .deleteSetting (Occasion.number 1).rowId ⟨"bob", none⟩ (.number 2)
  let third : Call := .setSetting "a" (.boolean true) { author := ⟨"bob", none⟩ } (.number 3)
  let e₁ := Engine.initial.run [first]
  let e₂ := Engine.initial.run [first, second]
  let e₃ := Engine.initial.run [first, second, third]
  have hfirst : Engine.initial.setSetting "a" (.boolean true) { author := ⟨"ann", none⟩ }
    (.number 1) = .ok (_, e₁) := rfl
  have hsecond : e₁.deleteSetting (Occasion.number 1).rowId ⟨"bob", none⟩ (.number 2)
    = .ok e₂ := rfl
  have hthird : e₂.setSetting "a" (.boolean true) { author := ⟨"bob", none⟩ } (.number 3)
    = .ok (_, e₃) := rfl
  have hset : e₃.setSetting "a" (.boolean false)
    { expectedVersion := some 1, author := ⟨"ann", none⟩ } (.number 4) = .ok (_, _) := rfl
  obtain ⟨s₁, hpath₁, he₁, hthreads₁, hstores₁⟩ :=
    (start Engine.initial).exists_path_setSetting (i := 0) rfl hfirst
  rw [← he₁] at hsecond
  obtain ⟨s₂, hpath₂, he₂, hthreads₂, hstores₂⟩ :=
    s₁.exists_path_deleteSetting (i := 1) (by rw [hthreads₁]; rfl) hsecond
  rw [← he₂] at hthird
  obtain ⟨s₃, hpath₃, he₃, -, hstores₃⟩ :=
    s₂.exists_path_setSetting (i := 1) (by rw [hthreads₂, hthreads₁]; rfl) hthird
  rw [← he₃] at hset
  have hstores : s₃.stores = [Engine.initial.store] ++ e₁.store :: [e₂.store, e₃.store] := by
    rw [hstores₃, hstores₂, hstores₁]
    rfl
  refine ⟨_, s₃, _, e₁.store, _, (hpath₁.trans hpath₂).trans hpath₃, by decide, hstores, rfl,
    ⟨_, _, hset⟩, ?_⟩
  rw [he₃]
  intro heq
  have hid : some (Occasion.number 3).rowId = some (Occasion.number 1).rowId :=
    congrArg (Option.map Setting.id) heq
  exact absurd hid (by decide)

end System

end Tariff
