import Tariff.Proofs.Coherence
import Tariff.Proofs.Locality

/-!
# Reading what was written

Whoever writes a setting, and says neither from when on it shall apply nor until
when, may expect to read its value at once. Whether this is so depends on what
was there before.

For a request whose dimensions are exactly the scope of a setting, no other
setting can take precedence over that one while it is in effect
(`setting?_eq_some_of_exact`). A scope that covers the request too leaves a
dimension open that this scope constrains, and is less specific, or it is the same
scope, and then the setting is the same as well. Nor can the cache hide the
setting, since what it held for the key is dropped when the setting is written.

So the value is read if the setting is in effect. One that is new begins when it
is written. But one that is changed keeps the beginning that it had, unless
another is given. If that lies ahead, the setting was not in effect before the
call and is not in effect after it, and what is read is what was read before.
-/

namespace Tariff

/-! ## Writes without dates -/

namespace SettingOptions

/-- **Neither beginning nor end nor activity is given.** The scope may be any, and so may the
priority and all other options. -/
def IsDefaulted (options : SettingOptions) : Prop :=
  options.effectiveDate = none ∧ options.expiryDate = none ∧ options.active = none

variable {options : SettingOptions}

/-- What is written has the value that was given, also where it takes the place of another one. -/
theorem value_written (key : String) (value : Value) (old : Option Setting) (o : Occasion) :
    (options.written key value old o).value = value := by
  cases old <;> rfl

/-- **A setting written by default is in effect from its beginning on**: from when it is written if
it is new, or else from when the old one began. It has no end then, since the end of the old one is
not kept, and it is active. -/
theorem isEffectiveAt_written_iff (h : options.IsDefaulted) (key : String) (value : Value)
    (old : Option Setting) (o : Occasion) (t : Instant) :
    (options.written key value old o).isEffectiveAt t = true
      ↔ (old.elim o.now (·.effectiveDate)) ≤ t := by
  obtain ⟨hdate, hexpiry, hactive⟩ := h
  unfold Setting.isEffectiveAt
  cases old with
  | none => simp [written, create, hdate, hexpiry, hactive]
  | some old => simp [written, revise, hdate, hexpiry, hactive]

end SettingOptions

namespace Engine

/-- **After a write the store answers**, since the cache holds nothing for the key. There may be no
cache at all, and then the store answers as well. -/
theorem getSetting_withSetting (e : Engine) (old : Option Setting) (new : Setting)
    (author : Author) (o : Occasion) (r : Request) (t : Instant) :
    ((e.withSetting old new author o).getSetting new.key r t).1
      = ((e.withSetting old new author o).view t).value? new.key r := by
  obtain hstore | ⟨c, entry, hc, hentry, -⟩ :=
    (e.withSetting old new author o).getSetting_eq_or new.key r t
  · exact hstore
  · obtain ⟨c₀, -, rfl⟩ := Option.map_eq_some_iff.1 hc
    obtain ⟨hmem, hkey, -⟩ := Cache.entry?_eq_some hentry
    exact absurd hkey (of_decide_eq_true (List.mem_filter.1 hmem).2)

section Write

variable {e e' : Engine} {key : String} {value : Value} {options : SettingOptions} {o : Occasion}
  {new : Setting} {r : Request} {t : Instant}

/-- **A setting that is in effect once it is written is read.** No other one comes before it for a
request of exactly its dimensions. -/
theorem value?_of_setSetting (he : e.store.WellFormed) (hw : e.config.weights.isValid = true)
    (h : e.setSetting key value options o = .ok (new, e')) (heffective : new.isEffectiveAt t = true)
    (hr : r.dimensions = options.scope) : (e'.view t).value? key r = some value := by
  have he' := (Step.setSetting h).wellFormed he
  obtain ⟨hkey, hscope⟩ := place_of_setSetting h
  obtain ⟨-, hnew, rfl⟩ := setSetting_eq_ok_iff.1 h
  have hvalue : new.value = value := by rw [hnew, SettingOptions.value_written]
  have hmem : new ∈ (e.withSetting (e.store.exactSetting? key options.scope) new
      options.author o).store.settings.values :=
    (he.settings_keyed.mem_values_insert new new).2 (.inl rfl)
  subst hkey hvalue
  unfold View.value?
  rw [View.setting?_eq_some_of_exact he' hw hmem heffective (hr.trans hscope.symm)]
  rfl

/-- **A setting that is in effect neither before nor after it is written changes no answer.** It is
not in the running either time, and all others are what they were. This is the case of a setting
that was written for later and is now written again: its beginning stays. -/
theorem value?_of_setSetting_of_not_effective (he : e.store.WellFormed)
    (hw : e.config.weights.isValid = true) {old : Setting}
    (hold : e.store.exactSetting? key options.scope = some old)
    (h : e.setSetting key value options o = .ok (new, e'))
    (hbefore : old.isEffectiveAt t = false) (hafter : new.isEffectiveAt t = false) :
    (e'.view t).value? key r = (e.view t).value? key r := by
  have he' := (Step.setSetting h).wellFormed he
  have hsame := sameBut_setSetting he (fun hnone => by rw [hold] at hnone; cases hnone) h
  obtain ⟨-, hnew, rfl⟩ := setSetting_eq_ok_iff.1 h
  have hid : new.id = old.id := by rw [hnew, hold]; rfl
  have hnot : ∀ s : Setting, s.isEffectiveAt t = false → s.isRunningFor key r t = false := by
    intro s hs
    refine Bool.eq_false_iff.2 (fun hrunning => ?_)
    rw [(Setting.isRunningFor_iff.1 hrunning).2.1] at hs
    cases hs
  have hout : ∀ y, e.store.setting? new.id = some y ∨ (e.withSetting (e.store.exactSetting? key
      options.scope) new options.author o).store.setting? new.id = some y →
      y.isRunningFor key r t = false := by
    rintro y (hy | hy)
    · rw [hid] at hy
      obtain rfl := Option.some.inj (hy.symm.trans (he.setting?_of_exactSetting? hold))
      exact hnot y hbefore
    · rw [setting?_withSetting, if_pos rfl] at hy
      obtain rfl := Option.some.inj hy
      exact hnot new hafter
  have hsetting := (View.eq_of_sameBut (v := e.view t) he he' hw hsame hout).1
  unfold View.value?
  rw [← hsetting]
  rfl

end Write

end Engine

/-- **When a setting that is written by default is read.** After any run of a new engine, let
a setting be written with neither beginning nor end nor activity given. A request whose
dimensions are its scope then reads, with or without a cache and at any time that is not
before the write, the value just written: if no active setting was there, or if the one that
was there had begun by then. Otherwise the setting keeps that beginning, which lies ahead,
and what is read is what was read before. -/
theorem getSetting_setSetting_run {config : EngineConfig} {e : Engine}
    (h : Engine.create config = .ok e) (calls : List Call) {key : String} {value : Value}
    {options : SettingOptions} {o : Occasion} {new : Setting} {e' : Engine}
    (hset : (e.run calls).setSetting key value options o = .ok (new, e'))
    (hdefaults : options.IsDefaulted) {r : Request} (hr : r.dimensions = options.scope)
    {t : Instant} (ht : o.now ≤ t) :
    (e'.getSetting key r t).1 =
      match (e.run calls).store.exactSetting? key options.scope with
      | none => some value
      | some old =>
        if old.effectiveDate ≤ t then some value else ((e.run calls).view t).value? key r := by
  have hs : (e.run calls).store.WellFormed := Engine.wellFormed_run h calls
  have hw : (e.run calls).config.weights.isValid = true := Engine.isValid_weights_run h calls
  obtain ⟨-, hnew, he'⟩ := Engine.setSetting_eq_ok_iff.1 hset
  have hread : (e'.getSetting key r t).1 = (e'.view t).value? key r := by
    rw [he', ← (Engine.place_of_setSetting hset).1, Engine.getSetting_withSetting]
  have heffective := SettingOptions.isEffectiveAt_written_iff hdefaults key value
    ((e.run calls).store.exactSetting? key options.scope) o t
  rw [← hnew] at heffective
  rw [hread]
  cases hold : (e.run calls).store.exactSetting? key options.scope with
  | none =>
    rw [hold] at heffective
    exact Engine.value?_of_setSetting hs hw hset (heffective.2 ht) hr
  | some old =>
    rw [hold] at heffective
    dsimp only
    split
    · next hbegun => exact Engine.value?_of_setSetting hs hw hset (heffective.2 hbegun) hr
    · next hahead =>
      refine Engine.value?_of_setSetting_of_not_effective hs hw hold hset ?_
        (Bool.eq_false_iff.2 fun hnow => hahead (heffective.1 hnow))
      unfold Setting.isEffectiveAt
      simp [hahead]

/-- A setting that has begun is written again, and its new value is read. The old one had been read
before, and so was in the cache. -/
theorem getSetting_setSetting_run_again :
    Engine.create {} = .ok Engine.initial
      ∧ ∃ e, e = Engine.initial.run
          [.setSetting "a" (.boolean true) { author := ⟨"ann", none⟩ } (.number 1),
          .getSetting "a" {} ⟨1⟩]
        ∧ ∃ new e', e.setSetting "a" (.boolean false) { author := ⟨"bob", none⟩ } (.number 2)
            = .ok (new, e')
          ∧ (e'.getSetting "a" {} ⟨2⟩).1 = some (.boolean false) := by
  have hset : (Engine.initial.run
      [.setSetting "a" (.boolean true) { author := ⟨"ann", none⟩ } (.number 1),
      .getSetting "a" {} ⟨1⟩]).setSetting "a" (.boolean false) { author := ⟨"bob", none⟩ }
      (.number 2) = .ok (_, _) := rfl
  have hread := getSetting_setSetting_run Engine.create_initial _ hset ⟨rfl, rfl, rfl⟩
    (r := {}) rfl (t := ⟨2⟩) (by decide)
  exact ⟨rfl, _, rfl, _, _, rfl, hread⟩

/-- **A value that is written by default is not always read.** A setting that was written for later
is written again, without a beginning. No value is read just after that, though the call has said
nothing of a time to come. -/
theorem getSetting_setSetting_of_scheduled :
    ∃ e new e', e = Engine.initial.run
        [.setSetting "a" (.boolean true)
          { effectiveDate := some ⟨1000⟩, author := ⟨"ann", none⟩ } (.number 1)]
      ∧ e.setSetting "a" (.boolean false) { author := ⟨"bob", none⟩ } (.number 2) = .ok (new, e')
      ∧ (e'.getSetting "a" {} ⟨2⟩).1 = none := by
  suffices h : ∀ e', e' = Engine.initial.run
      [.setSetting "a" (.boolean true)
        { effectiveDate := some ⟨1000⟩, author := ⟨"ann", none⟩ } (.number 1),
      .setSetting "a" (.boolean false) { author := ⟨"bob", none⟩ } (.number 2)] →
      (e'.getSetting "a" {} ⟨2⟩).1 = none from ⟨_, _, _, rfl, rfl, h _ rfl⟩
  rintro e' rfl
  obtain hstore | ⟨c, entry, hc, hentry, -⟩ := Engine.getSetting_eq_or _ "a" {} ⟨2⟩
  · rw [hstore]
    unfold View.value?
    rw [(View.setting?_eq_none_iff (Engine.wellFormed_run Engine.create_initial _) rfl "a" {}).2
      (by decide)]
    rfl
  · cases hc
    cases hentry

end Tariff
