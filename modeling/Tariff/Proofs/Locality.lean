import Tariff.Proofs.Batches
import Tariff.Proofs.Fresh

/-!
# Overrides are local

A price for one outlet is written as a setting whose scope names the outlet, and
whoever writes it does not look through what is charged elsewhere. This is safe,
since a change of a setting is *local*: nothing becomes of it for another key, nor
for a request that its scope does not cover. That holds whether the setting is
new, is changed, is made inactive or is deleted, and whatever else is ranked with
it.

A change of a setting concerns one row. Before and after it the stores have the
same rows but for those under one identifier, and if there is a row under that
identifier, in either store, it has the key and the scope of the setting
(`Store.SameBut`). So where the key is another one, or the scope does not cover
the request, the row was not in the running and is not in it now
(`running_perm_of_sameBut`). The settings in the running are the same ones then,
and which of them applies, and how they are ranked, depends on nothing else.

The answers for several keys at once are the answers for each alone
(`lookup_values`), so nothing becomes of these either.
-/

namespace Tariff

/-! ## Stores that differ in one setting -/

/-- **The same rows but for one setting**: under its identifier there may be anything that has its
key and scope, or nothing. So a setting that is new, one that is changed and one that is deleted are
three cases of one relation, which is symmetric in the two stores. -/
structure Store.SameBut (x : Setting) (s s' : Store) : Prop where
  place : ∀ y, s.setting? x.id = some y ∨ s'.setting? x.id = some y →
    y.key = x.key ∧ y.scope = x.scope
  others : ∀ id, id ≠ x.id → s'.setting? id = s.setting? id
  categories : s'.categories = s.categories
  rules : s'.rules = s.rules

namespace Engine

variable {e e' : Engine} {o : Occasion}

/-- **Writing a setting changes that setting only**, if the identifier that is drawn for a new one
is not in use. For an update nothing need be known of that identifier, as none is drawn: it is the
old row that is written again, under its key and scope. -/
theorem sameBut_setSetting {key : String} {value : Value} {options : SettingOptions}
    {new : Setting} (he : e.store.WellFormed)
    (hid : e.store.exactSetting? key options.scope = none → e.store.setting? o.rowId = none)
    (h : e.setSetting key value options o = .ok (new, e')) : e.store.SameBut new e'.store := by
  obtain ⟨hkey, hscope⟩ := place_of_setSetting h
  have hreplaced : ∀ y, e.store.setting? new.id = some y →
      y.key = key ∧ y.scope = options.scope := fun y hy => place_of_replaced he hid h hy
  obtain ⟨-, -, rfl⟩ := setSetting_eq_ok_iff.1 h
  refine ⟨?_, fun id hne => (setting?_withSetting _ _ _ _ _ _).trans (if_neg hne), rfl, rfl⟩
  rintro y (hbefore | hafter)
  · rw [hkey, hscope]
    exact hreplaced y hbefore
  · rw [setting?_withSetting, if_pos rfl] at hafter
    cases hafter
    exact ⟨rfl, rfl⟩

/-- **Deleting a setting changes that setting only.** It has been found under its identifier, so
there is a row to name. -/
theorem sameBut_deleteSetting {id : Uuid} {author : Author} (he : e.store.WellFormed)
    (h : e.deleteSetting id author o = .ok e') :
    ∃ old, e.store.setting? id = some old ∧ e.store.SameBut old e'.store := by
  obtain ⟨old, hold, -, -, rfl⟩ := deleteSetting_eq_ok_iff.1 h
  have hrow : old.id = id := he.settings_keyed id old hold
  subst hrow
  refine ⟨old, hold, ?_, fun id hne => (setting?_withoutSetting _ _ _ _ _ _).trans (if_neg hne),
    rfl, rfl⟩
  rintro y (hbefore | hafter)
  · rw [hold] at hbefore
    cases hbefore
    exact ⟨rfl, rfl⟩
  · rw [setting?_withoutSetting, if_pos rfl] at hafter
    cases hafter

end Engine

/-! ## What is in the running -/

/-- A setting under another key, or whose scope does not cover the request, is not in the
running. -/
theorem Setting.isRunningFor_eq_false {s : Setting} {key : String} {r : Request}
    (h : key ≠ s.key ∨ s.scope.covers r = false) (t : Instant) :
    s.isRunningFor key r t = false := by
  refine Bool.eq_false_iff.2 (fun hrunning => ?_)
  obtain ⟨hkey, -, hcovers⟩ := isRunningFor_iff.1 hrunning
  rcases h with hne | hout
  · exact hne hkey.symm
  · rw [hout] at hcovers
    cases hcovers

namespace View

variable {v : View} {s : Store} {x : Setting} {key : String} {r : Request}

/-- **Where the setting that differs is not in the running, the same settings are.** They may be
listed in another order, as rows are kept in the order in which they were last written. The ranking
does not depend on that. -/
theorem running_perm_of_sameBut (hv : v.store.WellFormed) (hs : s.WellFormed)
    (h : v.store.SameBut x s)
    (hout : ∀ y, v.store.setting? x.id = some y ∨ s.setting? x.id = some y →
      y.isRunningFor key r v.now = false) :
    (v.running key r).Perm ({ v with store := s }.running key r) := by
  refine (List.perm_ext_iff_of_nodup (nodup_map_running hv key r).of_map
    (nodup_map_running (v := { v with store := s }) hs key r).of_map).2 (fun y => ?_)
  unfold running
  rw [List.mem_filter, List.mem_filter, hv.settings_keyed.mem_values_iff,
    hs.settings_keyed.mem_values_iff]
  refine and_congr_left (fun hrunning => ?_)
  by_cases hid : y.id = x.id
  · rw [hid]
    refine iff_of_false (fun hy => ?_) (fun hy => ?_)
    · rw [hout y (.inl hy)] at hrunning
      cases hrunning
    · rw [hout y (.inr hy)] at hrunning
      cases hrunning
  · exact (congrArg (· = some y) (h.others y.id hid)).symm ▸ Iff.rfl

/-- **What applies, and what is explained, is the same then.** Both are functions of the settings in
the running, once their order has been seen not to matter. -/
theorem eq_of_sameBut (hv : v.store.WellFormed) (hs : s.WellFormed)
    (hw : v.weights.isValid = true) (h : v.store.SameBut x s)
    (hout : ∀ y, v.store.setting? x.id = some y ∨ s.setting? x.id = some y →
      y.isRunningFor key r v.now = false) :
    { v with store := s }.setting? key r = v.setting? key r
      ∧ { v with store := s }.explain key r = v.explain key r := by
  have hs' : { v with store := s }.store.WellFormed := hs
  have hw' : { v with store := s }.weights.isValid = true := hw
  have hranked := Setting.ranked_eq_of_perm (running_perm_of_sameBut hv hs h hout)
    (nodup_map_running hv key r)
  constructor
  · rw [setting?_eq_head?_ranked hs' hw', setting?_eq_head?_ranked hv hw, hranked]
  · rw [explain_eq_map_ranked hs' hw', explain_eq_map_ranked hv hw, hranked]

end View

/-! ## Changes are local -/

/-- **A local change**, of one setting: for other keys, and for requests that the setting's scope
does not cover, all answers stay, at every instant; and nothing else is touched. What is said is
said of the store's answers, and not of those that a cache may still serve. -/
structure Engine.ChangesOnly (x : Setting) (e e' : Engine) : Prop
    extends e.store.SameBut x e'.store where
  setting? : ∀ key r t, key ≠ x.key ∨ x.scope.covers r = false →
    (e'.view t).setting? key r = (e.view t).setting? key r
  values : ∀ keys key r t, key ≠ x.key ∨ x.scope.covers r = false →
    ((e'.view t).values keys r).lookup key = ((e.view t).values keys r).lookup key
  explain : ∀ key r t, key ≠ x.key ∨ x.scope.covers r = false →
    (e'.view t).explain key r = (e.view t).explain key r

/-- **Where the stores differ in one setting only, the change is local.** The configuration has to
be the same, since its weights decide the ranking. -/
theorem Store.SameBut.changesOnly {e e' : Engine} {x : Setting}
    (h : e.store.SameBut x e'.store) (he : e.store.WellFormed) (he' : e'.store.WellFormed)
    (hw : e.config.weights.isValid = true) (hconfig : e'.config = e.config) :
    e.ChangesOnly x e' := by
  have hview : ∀ t, e'.view t = { e.view t with store := e'.store } := fun t => by
    unfold Engine.view
    rw [hconfig]
  have hsame : ∀ key r t, key ≠ x.key ∨ x.scope.covers r = false →
      (e'.view t).setting? key r = (e.view t).setting? key r
        ∧ (e'.view t).explain key r = (e.view t).explain key r := by
    intro key r t hout
    rw [hview]
    refine View.eq_of_sameBut (v := e.view t) he he' hw h (fun y hy => ?_)
    obtain ⟨hkey, hscope⟩ := h.place y hy
    exact Setting.isRunningFor_eq_false (by rwa [hkey, hscope]) t
  refine { h with
    setting? := fun key r t hout => (hsame key r t hout).1
    values := fun keys key r t hout => ?_
    explain := fun key r t hout => (hsame key r t hout).2 }
  rw [View.lookup_values (v := e'.view t) he' keys, View.lookup_values (v := e.view t) he keys]
  unfold View.value?
  rw [(hsame key r t hout).1]

/-- **Overrides are local.** After any run of a new engine, whatever setting is then written,
under an identifier that was not given out before if it is new, or deleted: what applies
under other keys, and to requests that its scope does not cover, is what applied before, at
every instant; so are the answers for several keys at once, and what is explained. All other
settings stay as they are, and so do all categories and rules. -/
theorem changesOnly_run {config : EngineConfig} {e : Engine} (h : Engine.create config = .ok e)
    (calls : List Call) :
    (∀ key value options o new e', o.rowId ∉ calls.flatMap Call.rowIds →
        (e.run calls).setSetting key value options o = .ok (new, e') →
        new.key = key ∧ new.scope = options.scope ∧ (e.run calls).ChangesOnly new e')
      ∧ ∀ id author o e', (e.run calls).deleteSetting id author o = .ok e' →
        ∃ old, (e.run calls).store.setting? id = some old ∧ (e.run calls).ChangesOnly old e' := by
  have hs : (e.run calls).store.WellFormed := Engine.wellFormed_run h calls
  have hw : (e.run calls).config.weights.isValid = true := Engine.isValid_weights_run h calls
  constructor
  · intro key value options o new e' hid hset
    have hstep := Engine.Step.setSetting hset
    have hsame := Engine.sameBut_setSetting hs
      (fun _ => (Engine.unused_run h calls hid).setting) hset
    obtain ⟨hkey, hscope⟩ := Engine.place_of_setSetting hset
    exact ⟨hkey, hscope, hsame.changesOnly hs (hstep.wellFormed hs) hw hstep.config_eq⟩
  · intro id author o e' hdelete
    have hstep := Engine.Step.deleteSetting hdelete
    obtain ⟨old, hold, hsame⟩ := Engine.sameBut_deleteSetting hs hdelete
    exact ⟨old, hold, hsame.changesOnly hs (hstep.wellFormed hs) hw hstep.config_eq⟩

/-- A value for one outlet is written over the value for all, and another outlet is told what it was
told before, whether it asks for one key or for several. -/
theorem changesOnly_run_outlet :
    Engine.create {} = .ok Engine.initial
      ∧ ∃ e, e = Engine.initial.run
          [.setSetting "a" (.boolean true) { author := ⟨"ann", none⟩ } (.number 1)]
        ∧ ∃ new e', e.setSetting "a" (.boolean false)
            { scope := { outletId := some 7 }, author := ⟨"ann", none⟩ } (.number 2)
            = .ok (new, e')
          ∧ (e'.view ⟨3⟩).setting? "a" { outletId := some 8 }
            = (e.view ⟨3⟩).setting? "a" { outletId := some 8 }
          ∧ ((e'.view ⟨3⟩).values ["a", "b"] { outletId := some 8 }).lookup "a"
            = ((e.view ⟨3⟩).values ["a", "b"] { outletId := some 8 }).lookup "a" := by
  have hlocal := (changesOnly_run Engine.create_initial
    [.setSetting "a" (.boolean true) { author := ⟨"ann", none⟩ } (.number 1)]).1
    "a" (.boolean false) { scope := { outletId := some 7 }, author := ⟨"ann", none⟩ } (.number 2)
    _ _ (by decide) rfl
  obtain ⟨-, -, hchange⟩ := hlocal
  exact ⟨rfl, _, rfl, _, _, rfl, hchange.setting? "a" _ _ (.inr rfl),
    hchange.values _ "a" _ _ (.inr rfl)⟩

end Tariff
