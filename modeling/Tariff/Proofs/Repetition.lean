import Mathlib.Data.List.Find
import Tariff.Proofs.Versions

/-!
# Writing a setting once more

A caller who does not know whether his write has arrived writes again. He may do so: the second
write finds the setting that the first one left, active, under the same key and exact scope, and
changes it in place. What was created is then changed, so that the second write takes another way
than the first one did; but it has nothing to say that was not said before. A description, a
category or a beginning that is not given stays what it was, and what was given is given again
(`revise_written`). Only the version goes up, and the time of the last change.

No resolution sees this. Of a setting it looks at the identifier, the key, the scope, the
priority, the age, the activity, the window and the value, and on none of these do the two
settings differ (`Setting.SameTerms`). Where every row of a store is replaced by one on the same
terms, in its place, each request finds what it found before, replaced in the same way
(`setting?_map`). The weights do not matter for that.
-/

namespace Tariff

/-! ## Settings on the same terms

A look-up reads of a setting what is compared here. The version and the record of the last writing
are not among it. -/

/-- **Settings on the same terms**: a resolution makes no difference between them. They may differ
in description, category and version, in who wrote them, and in when they were last changed. -/
structure Setting.SameTerms (a b : Setting) : Prop where
  id : a.id = b.id
  key : a.key = b.key
  value : a.value = b.value
  scope : a.scope = b.scope
  priority : a.priority = b.priority
  effectiveDate : a.effectiveDate = b.effectiveDate
  expiryDate : a.expiryDate = b.expiryDate
  active : a.active = b.active
  createdAt : a.createdAt = b.createdAt

namespace Setting.SameTerms

variable {a b c d : Setting}

theorem refl (a : Setting) : a.SameTerms a := ⟨rfl, rfl, rfl, rfl, rfl, rfl, rfl, rfl, rfl⟩

/-- They are in effect at the same times. -/
theorem isEffectiveAt_eq (h : a.SameTerms b) (t : Instant) :
    a.isEffectiveAt t = b.isEffectiveAt t := by
  unfold isEffectiveAt
  rw [h.active, h.effectiveDate, h.expiryDate]

/-- They are listed at the same place. -/
theorem ageOrder_eq (h : a.SameTerms b) (h' : c.SameTerms d) :
    Store.ageOrder a c = Store.ageOrder b d := by
  unfold Store.ageOrder
  rw [h.createdAt, h'.createdAt, h.id, h'.id]

/-- They make the same candidate. -/
theorem of?_eq (h : a.SameTerms b) (w : Weights) (r : Request) :
    Candidate.of? w r a = Candidate.of? w r b := by
  unfold Candidate.of?
  rw [h.scope, h.id, h.priority, h.createdAt]

end Setting.SameTerms

/-! ## Rows replaced in their places

A setting that is written again stays in its row. So what is found, ranked and explained is a map of
what it was. -/

section Replaced

variable {f : Setting → Setting}

namespace Candidate

variable {settings : List Setting} (hf : ∀ x ∈ settings, (f x).SameTerms x)
include hf

/-- So candidates are ranked alike. The ranking does not hold the settings, and so it is equal. -/
theorem rank_map (w : Weights) (r : Request) :
    rank w r (settings.map f) = rank w r settings := by
  have hof : settings.filterMap (of? w r ∘ f) = settings.filterMap (of? w r) :=
    List.filterMap_congr fun x hx => (hf x hx).of?_eq w r
  unfold rank
  rw [List.filterMap_map, hof]

/-- What is looked up under the first identifier is a setting, and so it is the one that was put in
its place. -/
theorem best?_map (w : Weights) (r : Request) :
    best? w r (settings.map f) = (best? w r settings).map f := by
  unfold best?
  rw [rank_map hf]
  cases rank w r settings with
  | nil => rfl
  | cons best rest =>
    show (settings.map f).find? _ = (settings.find? _).map f
    rw [List.find?_map, List.find?_congr fun x hx => ?_]
    show decide ((f x).id = best.settingId) = decide (x.id = best.settingId)
    rw [(hf x hx).id]

end Candidate

namespace View

variable {v : View} {s : Store} (hf : ∀ x ∈ v.store.settings.values, (f x).SameTerms x)
include hf

/-- The candidates under a key are stored settings, so each is replaced by one on its terms. -/
theorem sameTerms_candidates {key : String} {x : Setting} (hx : x ∈ v.candidates key) :
    (f x).SameTerms x :=
  hf x (Store.mem_effectiveSettings_iff.1 hx).1

variable (hs : s.settings.values = v.store.settings.values.map f) (key : String) (r : Request)
include hs

/-- The candidates under a key are replaced in their places as well. -/
theorem candidates_map : { v with store := s }.candidates key = (v.candidates key).map f := by
  unfold candidates Store.effectiveSettings
  rw [hs, List.filter_map, List.map_mergeSort fun a ha b hb => ?_,
    List.filter_congr fun x hx => ?_]
  · rw [Function.comp_apply, (hf x hx).key, (hf x hx).isEffectiveAt_eq]
  · rw [(hf a (List.mem_of_mem_filter ha)).ageOrder_eq (hf b (List.mem_of_mem_filter hb))]

theorem explain_map : { v with store := s }.explain key r = v.explain key r := by
  unfold explain
  rw [candidates_map hf hs]
  exact Candidate.rank_map (fun x => sameTerms_candidates hf) v.weights r

/-- **What applies is replaced**, and is otherwise what applied before. -/
theorem setting?_map : { v with store := s }.setting? key r = (v.setting? key r).map f := by
  unfold setting?
  rw [candidates_map hf hs]
  exact Candidate.best?_map (fun x => sameTerms_candidates hf) v.weights r

/-- **So the value is the same.** -/
theorem value?_map : { v with store := s }.value? key r = v.value? key r := by
  unfold value?
  rw [setting?_map hf hs, Option.map_map]
  refine Option.map_congr fun x hx => ?_
  exact (sameTerms_candidates hf (Candidate.mem_of_best?_eq_some hx)).value

end View

end Replaced

/-- **Where a setting is written in place of one on the same terms**, there are as many settings as
before, and every request is answered as before. The row is replaced where it is, so the settings
are a map of those before, and the lemmas above apply. -/
theorem Engine.eq_of_sameTerms {e e' : Engine} {old new : Setting} {author : Author}
    {o : Occasion} (he : e.store.WellFormed) (h : new.SameTerms old)
    (hold : e.store.setting? new.id = some old) (he' : e' = e.withSetting (some old) new author o) :
    e'.store.settings.values.length = e.store.settings.values.length
      ∧ ∀ key r t, (e'.view t).value? key r = (e.view t).value? key r
        ∧ (e'.view t).explain key r = (e.view t).explain key r := by
  subst he'
  have hvalues : (e.withSetting (some old) new author o).store.settings.values
      = e.store.settings.values.map fun x => if x.id = new.id then new else x :=
    he.settings_keyed.values_insert_of_find? hold
  have hterms : ∀ x ∈ e.store.settings.values,
      (if x.id = new.id then new else x).SameTerms x := by
    intro x hx
    split
    · next hid =>
      have hx' : e.store.setting? x.id = some x := (he.settings_keyed.mem_values_iff x).1 hx
      rw [hid, hold] at hx'
      exact Option.some.inj hx' ▸ h
    · exact .refl x
  refine ⟨by rw [hvalues, List.length_map], fun key r t => ⟨?_, ?_⟩⟩
  · exact View.value?_map (v := e.view t) hterms hvalues key r
  · exact View.explain_map (v := e.view t) hterms hvalues key r

/-! ## Options given again

An option may mean something else when it is given once more. The expected version does, as it is
then another one; and a setting that is written inactive is not found the second time. All others
mean the same. -/

/-- **A setting as it is after the same was written once more** at an instant. -/
def Setting.rewritten (s : Setting) (t : Instant) : Setting :=
  { s with version := s.version + 1, updatedAt := t }

theorem Setting.sameTerms_rewritten (s : Setting) (t : Instant) : (s.rewritten t).SameTerms s :=
  ⟨rfl, rfl, rfl, rfl, rfl, rfl, rfl, rfl, rfl⟩

namespace SettingOptions

variable (options : SettingOptions) (key : String) (value : Value) (old : Option Setting)
  (o : Occasion)

/-- **Options given again change nothing** of what was written with them but its version and the
time. An option that is given is the one that is there already. One that is not given keeps what is
there, with the exception of the end, which is cleared; but then the first write has cleared it. -/
theorem revise_written (t : Instant) :
    options.revise (options.written key value old o) value t
      = (options.written key value old o).rewritten t := by
  have hdate : ∀ t, options.effectiveDate.getD (options.effectiveDate.getD t)
      = options.effectiveDate.getD t := fun t => by
    cases options.effectiveDate <;> rfl
  unfold Setting.rewritten
  cases old with
  | none => simp only [written, create, revise, Option.or_self, hdate]
  | some old => simp only [written, revise, ← Option.or_assoc, Option.or_self, hdate]

/-- What is written is active unless it is said not to be. So a second write finds it. -/
theorem active_written :
    (options.written key value old o).active = options.active.getD true := by
  cases old <;> rfl

end SettingOptions

namespace Engine

variable {e e' : Engine} {key : String} {value : Value} {options : SettingOptions}
  {o o' : Occasion} {new : Setting}

/-- **The same is written once more**, if no version is expected, the setting was not written
inactive, and the log accepts records. A version that was expected the first time is no longer
the one that is there. And an inactive setting is not found, so that a second write makes
another one. -/
theorem setSetting_again (he : e.store.WellFormed)
    (h : e.setSetting key value options o = .ok (new, e'))
    (hversion : options.expectedVersion = none) (hactive : options.active ≠ some false)
    (ho' : o'.refusal = none) :
    e'.setSetting key value options o' = .ok (new.rewritten o'.now,
      e'.withSetting (some new) (new.rewritten o'.now) options.author o') := by
  have hfound := exactSetting?_of_setSetting he h
  obtain ⟨hadmits, hnew, he'⟩ := setSetting_eq_ok_iff.1 h
  have hstill : new.active = true := by
    rw [hnew, SettingOptions.active_written]
    cases hgiven : options.active with
    | none => rfl
    | some b => cases b with
      | false => exact absurd hgiven hactive
      | true => rfl
  rw [if_pos hstill] at hfound
  have hagain : options.written key value (some new) o' = new.rewritten o'.now := by
    rw [hnew]
    exact options.revise_written _ _ _ _ _
  rw [setSetting_eq_ok_iff, hfound, hagain]
  refine ⟨⟨hadmits.key_named, hadmits.type_agrees, ?_, ?_, ?_, hadmits.actor_named, ho'⟩, rfl, rfl⟩
  · rw [he']
    exact hadmits.category_stored
  · unfold SettingOptions.checkVersion
    rw [hversion]
  · -- The window is the one that was checked before.
    rw [hfound, hagain, hnew]
    exact hadmits.window_open

end Engine

/-! ## Every run -/

/-- **Writing the same once more changes a version and a time.** After any run of a new engine,
let a setting be written, with no version expected and not inactive. The same call on the engine
that results then succeeds, on any occasion on which the log accepts records. It answers
with the setting just written, its version one more and the time its own; in the store this
setting takes the place of the other, and nothing else changes. What applies to any request under
any key at any instant has the same value before and after, and is ranked alike. One record is
added to the log, of a change from the one setting to the other. -/
theorem setSetting_again_run {config : EngineConfig} {e : Engine}
    (h : Engine.create config = .ok e) (calls : List Call) {key : String} {value : Value}
    {options : SettingOptions} {o : Occasion} {new : Setting} {e' : Engine}
    (hset : (e.run calls).setSetting key value options o = .ok (new, e'))
    (hversion : options.expectedVersion = none) (hactive : options.active ≠ some false)
    {o' : Occasion} (ho' : o'.refusal = none) :
    ∃ again e'', e'.setSetting key value options o' = .ok (again, e'')
      ∧ again = { new with version := new.version + 1, updatedAt := o'.now }
      ∧ (new.version.toNat + 1 < 2 ^ 32 → again.version.toNat = new.version.toNat + 1)
      ∧ e'.store.setting? new.id = some new
      ∧ e''.store.settings.values.length = e'.store.settings.values.length
      ∧ (∀ id, e''.store.setting? id = if id = new.id then some again else e'.store.setting? id)
      ∧ e''.store.categories = e'.store.categories ∧ e''.store.rules = e'.store.rules
      ∧ (∀ key r t, (e''.view t).value? key r = (e'.view t).value? key r
        ∧ (e''.view t).explain key r = (e'.view t).explain key r)
      ∧ e''.log.records = e'.log.records ++ [o'.record options.author (.setting new.id) .updated
        (some new.toJson) (some again.toJson)] := by
  have hs : (e.run calls).store.WellFormed := Engine.wellFormed_run h calls
  have hs' : e'.store.WellFormed := (Engine.Step.setSetting hset).wellFormed hs
  have hfound : e'.store.setting? new.id = some new := by
    obtain ⟨-, -, rfl⟩ := Engine.setSetting_eq_ok_iff.1 hset
    rw [Engine.setting?_withSetting, if_pos rfl]
  obtain ⟨hlength, hanswers⟩ :=
    Engine.eq_of_sameTerms hs' (new.sameTerms_rewritten o'.now) hfound rfl
  refine ⟨_, _, Engine.setSetting_again hs hset hversion hactive ho', rfl, fun hbound => ?_,
    hfound, hlength, fun id => Engine.setting?_withSetting _ _ _ _ _ id, rfl, rfl, hanswers, rfl⟩
  show (new.version + 1).toNat = _
  rw [UInt32.toNat_add]
  exact Nat.mod_eq_of_lt hbound

/-- A setting is created under a category, with a description. Written once more, without an end to
its window as before, it is changed to version 2, and it is the only setting still. -/
theorem setSetting_again_run_created :
    Engine.create {} = .ok Engine.initial
      ∧ ∃ e options, e = Engine.initial.run [.createCategory "fees" none (.number 1)]
        ∧ options = {
          categoryId := some (Occasion.number 1).rowId
          description := some "swaps"
          author := ⟨"ann", none⟩ }
        ∧ ∃ new e' again e'', e.setSetting "a" (.boolean true) options (.number 2) = .ok (new, e')
          ∧ e'.setSetting "a" (.boolean true) options (.number 3) = .ok (again, e'')
          ∧ new.version.toNat = 1 ∧ again.version.toNat = 2 ∧ again.id = new.id
          ∧ e''.store.settings.values.length = 1 ∧ e''.log.records.length = 2
          ∧ (e''.view ⟨4⟩).value? "a" {} = (e'.view ⟨4⟩).value? "a" {} := by
  have hset : (Engine.initial.run [.createCategory "fees" none (.number 1)]).setSetting "a"
    (.boolean true) {
      categoryId := some (Occasion.number 1).rowId
      description := some "swaps"
      author := ⟨"ann", none⟩ } (.number 2) = .ok (_, _) := rfl
  have hrefusal : (Occasion.number 3).refusal = none := rfl
  obtain ⟨again, e'', hagain, hnew, hversion, -, hlength, -, -, -, hvalue, hlog⟩ :=
    setSetting_again_run Engine.create_initial _ hset rfl (by decide) hrefusal
  exact ⟨rfl, _, _, rfl, rfl, _, _, again, e'', hset, hagain, rfl, hversion (by decide),
    by rw [hnew], hlength, by rw [hlog]; rfl, (hvalue _ _ _).1⟩

end Tariff
