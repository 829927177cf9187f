import Tariff.Proofs.Precedence

/-!
# Several keys at once

A price needs several settings, and they are read together: one snapshot of what is in effect
under any of the keys, put into groups by key, and the best of each group. A caller expects of
this what he would have got by asking for the keys one after the other at the same instant.

The two agree whatever the weights are. A group has the settings that are found under its key
alone (`group_perm`), and it need not have them in the same order. Nor does the order matter for
what is best: candidates are tied only if they have one identifier, also where careless weights
leave scores tied (`best?_eq_of_perm`). So a key has a value among several where it is asked for
and has that value alone (`mem_values_iff`), and as no key comes twice, asking for a key twice
changes nothing.

A category stands for the keys of the settings that are filed under it, whether these are in
effect or not. Only the keys are taken from there. What is then read under a key may be a setting
that is filed elsewhere, or nowhere.
-/

namespace Tariff

/-! ## What is best, whatever the weights

Weights that did not pass their check may leave scores tied. Then priority, age and identifier
decide, and the last of these always does. -/

namespace Candidate

instance transCmp_order : Std.TransCmp order := by
  unfold order
  infer_instance

/-- Candidates with distinct identifiers are never tied: the order of candidates ends in the
identifier, so that careless weights, under which scores are tied, leave no choice open. -/
theorem settingId_eq_of_order_eq {a b : Candidate} (h : order a b = .eq) :
    a.settingId = b.settingId := by
  unfold order at h
  simp only [Ordering.then_eq_eq] at h
  exact Uuid.eq_of_compare_eq h.2.2.2

section Perm

variable {settings settings' : List Setting} (h : settings.Perm settings')
  (hids : (settings.map Setting.id).Nodup)
include h hids

/-- The ranking of some settings does not depend on their order either. -/
theorem rank_eq_of_perm (w : Weights) (r : Request) :
    rank w r settings' = rank w r settings := by
  unfold rank
  refine mergeSort_eq_of_perm (fun _ _ => settingId_eq_of_order_eq) (h.filterMap _) ?_
  rw [filterMap_of?, List.map_map]
  exact hids.sublist (List.filter_sublist.map _)

/-- **What is best among some settings does not depend on their order.** The candidates are ranked
in the same way, and the setting of the first of them is found by its identifier, which no other
setting has. -/
theorem best?_eq_of_perm (w : Weights) (r : Request) :
    best? w r settings' = best? w r settings := by
  unfold best?
  rw [rank_eq_of_perm h hids]
  cases rank w r settings with
  | nil => rfl
  | cons best rest =>
    refine find?_eq_of_perm h (countP_le_one_of_unique hids.of_map fun a ha b hb hpa hpb => ?_)
    rw [decide_eq_true_iff] at hpa hpb
    exact List.inj_on_of_nodup_map hids ha hb (hpa.trans hpb.symm)

end Perm

/-- What is best among some settings is one of them. -/
theorem mem_of_best?_eq_some {w : Weights} {r : Request} {settings : List Setting} {s : Setting}
    (h : best? w r settings = some s) : s ∈ settings := by
  unfold best? at h
  split at h
  · cases h
  · exact List.mem_of_find?_eq_some h

end Candidate

/-! ## What is in a snapshot

One snapshot serves all keys. For one key it has what would have been read for that key alone. -/

namespace Store

variable {s : Store} {keys : List String} {key : String} {t : Instant}

/-- A snapshot has the stored settings under its keys that are in effect. -/
theorem mem_effectiveSettings_iff {x : Setting} :
    x ∈ s.effectiveSettings keys t
      ↔ x ∈ s.settings.values ∧ x.key ∈ keys ∧ x.isEffectiveAt t = true := by
  unfold effectiveSettings
  rw [(List.mergeSort_perm _ _).mem_iff, List.mem_filter, Bool.and_eq_true,
    List.contains_iff_mem]

/-- The keys of a category are those of the settings filed under it. -/
theorem mem_keysInCategory_iff {id : Uuid} :
    key ∈ s.keysInCategory id
      ↔ ∃ x ∈ s.settings.values, x.key = key ∧ x.categoryId = some id := by
  unfold keysInCategory
  rw [Text.mem_sortDistinct, List.mem_map]
  simp [and_assoc, and_comm]

/-- **A stored category is found under its name.** -/
theorem WellFormed.categoryNamed?_name (hs : s.WellFormed) {c : Category}
    (hc : c ∈ s.categories.values) : s.categoryNamed? c.name = some c := by
  cases hfound : s.categoryNamed? c.name with
  | none => exact absurd rfl (ne_of_categoryNamed?_eq_none hfound hc)
  | some found =>
    have hname : found.name = c.name := by simpa using List.find?_some hfound
    rw [hs.name_unique found (List.mem_of_find?_eq_some hfound) c hc hname]

end Store

namespace View

variable {v : View} {keys : List String} {key : String} {r : Request} {x : Value}

/-- **The group of a key in a snapshot**: the settings of the snapshot that are under the key. They
come in the order of the snapshot, in which settings of other keys may stand between them. -/
def group (v : View) (keys : List String) (key : String) : List Setting :=
  (v.store.effectiveSettings keys v.now).filter fun s => s.key = key

/-- **A group has the settings that are found under its key alone.** Both are the stored settings
under the key that are in effect; the snapshot is sorted as a whole, so the order within a group
need not be that in which they are found alone. -/
theorem group_perm (v : View) (hkey : key ∈ keys) :
    (v.group keys key).Perm (v.candidates key) := by
  unfold group candidates Store.effectiveSettings
  refine ((List.mergeSort_perm _ _).filter _).trans
    (List.Perm.trans ?_ (List.mergeSort_perm _ _).symm)
  rw [List.filter_filter]
  refine List.Perm.of_eq (List.filter_congr fun s _ => ?_)
  by_cases hs : s.key = key
  · simp [hs, hkey]
  · simp [hs]

/-- **The best of a group applies under its key.** The group and what is found under the key alone
are the same but for their order, which does not matter to what is best. -/
theorem best?_group (hv : v.store.WellFormed) (hkey : key ∈ keys) (r : Request) :
    Candidate.best? v.weights r (v.group keys key) = v.setting? key r :=
  Candidate.best?_eq_of_perm (v.group_perm hkey).symm (nodup_map_candidates hv key) _ _

/-! ## Key by key

A list of keys is answered in their order, without repetitions, and a category by the keys of what
is filed under it. Both are compared with asking for one key. -/

/-- **No key has two values.** The keys of the snapshot are listed without repetition before they
are looked up, so that a key which was asked for twice is answered once. -/
theorem nodup_map_values (v : View) (keys : List String) (r : Request) :
    ((v.values keys r).map Prod.fst).Nodup := by
  have hkeys : ∀ (f : String → Option Setting) (l : List String),
      ((l.filterMap fun k => (f k).map fun s => (k, s.value)).map Prod.fst).Sublist l := by
    intro f l
    induction l with
    | nil => exact .slnil
    | cons k rest ih =>
      rw [List.filterMap_cons]
      cases f k with
      | none => exact ih.cons _
      | some s => exact ih.cons_cons _
  exact (Text.nodup_sortDistinct _).sublist (hkeys _ _)

/-- **A key has the value among several that it has alone**, if it is among them. A key that has no
value is not listed at all, and neither is one that was not asked for. -/
theorem mem_values_iff (hv : v.store.WellFormed) :
    (key, x) ∈ v.values keys r ↔ key ∈ keys ∧ v.value? key r = some x := by
  have hgroup : (key, x) ∈ v.values keys r
      ↔ (∃ s ∈ v.store.effectiveSettings keys v.now, s.key = key)
        ∧ (Candidate.best? v.weights r (v.group keys key)).map (·.value) = some x := by
    unfold values
    simp only [List.mem_filterMap, Text.mem_sortDistinct, List.mem_map, Option.map_eq_some_iff,
      Prod.mk.injEq]
    constructor
    · rintro ⟨_, hkey, s, hs, rfl, rfl⟩
      exact ⟨hkey, s, hs, rfl⟩
    · rintro ⟨hkey, s, hs, rfl⟩
      exact ⟨key, hkey, s, hs, rfl, rfl⟩
  rw [hgroup]
  constructor
  · rintro ⟨⟨s, hs, rfl⟩, hvalue⟩
    have hkey : s.key ∈ keys := (Store.mem_effectiveSettings_iff.1 hs).2.1
    rw [best?_group hv hkey] at hvalue
    exact ⟨hkey, hvalue⟩
  · rintro ⟨hkey, hvalue⟩
    rw [best?_group hv hkey]
    refine ⟨?_, hvalue⟩
    -- What applies is in the group, so that the snapshot has the key.
    obtain ⟨s, hs, -⟩ := Option.map_eq_some_iff.1 hvalue
    rw [← best?_group hv hkey] at hs
    obtain ⟨hsnapshot, hskey⟩ := List.mem_filter.1 (Candidate.mem_of_best?_eq_some hs)
    exact ⟨s, hsnapshot, of_decide_eq_true hskey⟩

/-- A key is looked up among several as it is alone. This is how a caller reads the answer. -/
theorem lookup_values (hv : v.store.WellFormed) (keys : List String) (key : String) (r : Request) :
    (v.values keys r).lookup key = if key ∈ keys then v.value? key r else none := by
  refine Option.ext fun x => ?_
  rw [← mem_iff_lookup_eq_some (v.nodup_map_values keys r), mem_values_iff hv]
  split <;> simp_all

/-- **A category that is stored** is answered with the values of its keys. -/
theorem categoryValues_name (hv : v.store.WellFormed) {c : Category}
    (hc : c ∈ v.store.categories.values) (r : Request) :
    v.categoryValues c.name r = .ok (v.values (v.store.keysInCategory c.id) r) := by
  unfold categoryValues
  rw [hv.categoryNamed?_name hc]

end View

/-- **Several keys are resolved as each of them alone.** After any run of a new engine, with any
weights and at any instant: of the keys of any list, with repetitions or without, those that have a
value are listed with it, each once, and no others. A category is answered in the same way for the
keys of the settings filed under it, in effect or not, wherever the settings are filed that apply;
and a name that no category has is refused.

The view may have weights and an instant of its own, but its store is that of the run. What is
needed of the run is that identifiers are not shared, which makes the best of a group the same in
any order. -/
theorem values_run_pointwise {config : EngineConfig} {e : Engine}
    (h : Engine.create config = .ok e) (calls : List Call) {v : View}
    (hv : v.store = (e.run calls).store) (r : Request) :
    (∀ keys, ((v.values keys r).map Prod.fst).Nodup
        ∧ ∀ key x, (key, x) ∈ v.values keys r ↔ key ∈ keys ∧ v.value? key r = some x)
      ∧ (∀ c ∈ v.store.categories.values, ∃ entries, v.categoryValues c.name r = .ok entries
        ∧ (entries.map Prod.fst).Nodup
        ∧ ∀ key x, (key, x) ∈ entries
          ↔ (∃ s ∈ v.store.settings.values, s.key = key ∧ s.categoryId = some c.id)
            ∧ v.value? key r = some x)
      ∧ ∀ name, (∀ c ∈ v.store.categories.values, c.name ≠ name) →
        v.categoryValues name r = .error (.categoryNotFound name) := by
  have hs : v.store.WellFormed := by
    rw [hv]
    exact Engine.wellFormed_run h calls
  refine ⟨fun keys => ⟨v.nodup_map_values keys r, fun key x => View.mem_values_iff hs⟩,
    fun c hc => ⟨_, View.categoryValues_name hs hc r, v.nodup_map_values _ r, fun key x => ?_⟩,
    fun name hname => ?_⟩
  · rw [View.mem_values_iff hs, Store.mem_keysInCategory_iff]
  · have hnone : v.store.categoryNamed? name = none :=
      List.find?_eq_none.2 fun c hc => by simpa using hname c hc
    unfold View.categoryValues
    rw [hnone]

/-- A setting is filed under a category. Another one under its key is for an outlet and is not
filed, and its value is what the category is answered with there. -/
theorem values_run_pointwise_not_filed :
    Engine.create {} = .ok Engine.initial
      ∧ ∃ e, e = Engine.initial.run
          [.createCategory "fees" none (.number 1),
          .setSetting "a" (.boolean true)
            { categoryId := some (Occasion.number 1).rowId, author := ⟨"ann", none⟩ } (.number 2),
          .setSetting "a" (.boolean false)
            { scope := { outletId := some 7 }, author := ⟨"ann", none⟩ } (.number 3)]
        ∧ ∃ entries, (e.view ⟨4⟩).categoryValues "fees" { outletId := some 7 } = .ok entries
          ∧ ("a", .boolean false) ∈ entries ∧ ("a", .boolean true) ∉ entries
          ∧ (e.view ⟨4⟩).categoryValues "tolls" {} = .error (.categoryNotFound "tolls") := by
  let calls : List Call := [.createCategory "fees" none (.number 1),
    .setSetting "a" (.boolean true)
      { categoryId := some (Occasion.number 1).rowId, author := ⟨"ann", none⟩ } (.number 2),
    .setSetting "a" (.boolean false)
      { scope := { outletId := some 7 }, author := ⟨"ann", none⟩ } (.number 3)]
  let v := (Engine.initial.run calls).view ⟨4⟩
  have hs : v.store.WellFormed := Engine.wellFormed_run Engine.create_initial calls
  have hw : v.weights.isValid = true := Engine.isValid_weights_run Engine.create_initial calls
  obtain ⟨-, hfiled, -⟩ := values_run_pointwise Engine.create_initial calls (v := v) rfl
    { outletId := some 7 }
  obtain ⟨-, -, hmissing⟩ := values_run_pointwise Engine.create_initial calls (v := v) rfl {}
  obtain ⟨entries, hentries, -, hmem⟩ :=
    hfiled ⟨(Occasion.number 1).rowId, "fees", none⟩ (.head _)
  have hexact := View.setting?_eq_some_of_exact hs hw (.tail _ (.head _)) (by decide)
    (r := { outletId := some 7 }) rfl
  have hvalue : v.value? "a" { outletId := some 7 } = some (.boolean false) :=
    congrArg (Option.map Setting.value) hexact
  refine ⟨rfl, _, rfl, entries, hentries, (hmem _ _).2 ⟨⟨_, .head _, rfl, rfl⟩, hvalue⟩,
    fun htrue => ?_, hmissing "tolls" (by decide)⟩
  have hother := ((hmem _ _).1 htrue).2
  rw [hvalue] at hother
  cases hother

end Tariff
