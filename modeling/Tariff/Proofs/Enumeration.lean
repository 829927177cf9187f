import Tariff.Proofs.Fresh
import Tariff.Proofs.Redrafting
import Tariff.Proofs.Traces

/-!
# Rows in any order

The rows of a table stand in the order in which their identifiers came. A table that is
hashed has no such order: it is enumerated in one that nobody chooses, and in another one
perhaps the next time. So whatever is said of an engine should hold in every order of its
rows, and also where the order is a different one from call to call. `Engine.Reaches` is the
run of an engine whose rows are put into any order between two calls.

Most of what an engine answers does not depend on it. Rows are found by name whatever order
they are looked through in, and what is in force is sorted by a comparison that leaves no
tie; so two stores with the same rows are alike to pricing (`Reordering.alike`).

The list of all rules is another matter. It is sorted by priority and name, and two rules
may agree in both. Which of them comes first depends on the order of the rows alone, and a
seed writes to the first. The orders of the rows give every list of the rules that is sorted
so, and no other one (`exists_reordering_iff`). To say something of the store in
every order of its rows is therefore to say it of every list that the store might answer.
-/

namespace Tariff

namespace Store

instance transCmp_ageOrder : Std.TransCmp ageOrder := by
  unfold ageOrder
  infer_instance

instance transCmp_nameOrder : Std.TransCmp nameOrder := by
  unfold nameOrder
  infer_instance

/-! ## Lists of all rows -/

theorem allSettings_perm (s : Store) : s.allSettings.Perm s.settings.values :=
  List.mergeSort_perm _ _

theorem allCategories_perm (s : Store) : s.allCategories.Perm s.categories.values :=
  List.mergeSort_perm _ _

theorem allRules_perm (s : Store) : s.allRules.Perm s.rules.values := List.mergeSort_perm _ _

theorem pairwise_allRules (s : Store) :
    s.allRules.Pairwise fun a b => (nameOrder a b).isLE = true :=
  pairwise_isLE_mergeSort s.rules.values

theorem mem_allRules_iff {s : Store} {rule : Rule} : rule ∈ s.allRules ↔ rule ∈ s.rules.values :=
  s.allRules_perm.mem_iff

namespace Reordering

variable {s s' s'' : Store}

theorem refl (s : Store) : s.Reordering s := ⟨.refl _, .refl _, .refl _⟩

theorem symm (h : s.Reordering s') : s'.Reordering s :=
  ⟨h.settings.symm, h.categories.symm, h.rules.symm⟩

theorem trans (h : s.Reordering s') (h' : s'.Reordering s'') : s.Reordering s'' :=
  ⟨h.settings.trans h'.settings, h.categories.trans h'.categories, h.rules.trans h'.rules⟩

theorem rules_values (h : s.Reordering s') : s.rules.values.Perm s'.rules.values :=
  h.rules.map Prod.snd

end Reordering

/-- **The list of all rules is any list of them that is sorted by priority and name**, according to
how the rows stand. From left to right, the rows are put into the order of the list, and what is
sorted already is left so by sorting. -/
theorem exists_reordering_iff {s : Store} {rules : List Rule} :
    (∃ s', s.Reordering s' ∧ s'.allRules = rules)
      ↔ rules.Perm s.rules.values ∧ rules.Pairwise fun a b => (nameOrder a b).isLE = true := by
  constructor
  · rintro ⟨s', h, rfl⟩
    exact ⟨s'.allRules_perm.trans h.rules_values.symm, s'.pairwise_allRules⟩
  · rintro ⟨hperm, hsorted⟩
    -- Each rule takes its identifier with it.
    have hrows : List.Forall₂ (fun rule row => rule = row.2) s.rules.values s.rules.rows :=
      List.forall₂_map_left_iff.2 (List.forall₂_same.2 fun _ _ => rfl)
    obtain ⟨rows, hrows, hrowsPerm⟩ := List.perm_comp_forall₂ hperm hrows
    have hvalues : rows.map Prod.snd = rules := by
      rw [← List.forall₂_eq_eq_eq, List.forall₂_map_left_iff]
      exact (hrows.imp fun _ _ h => h).flip.imp fun _ _ h => h.symm
    have hids : (rows.map Prod.fst).Nodup :=
      (hrowsPerm.map Prod.fst).nodup_iff.2 s.rules.nodup_ids
    refine ⟨{ s with rules := ⟨rows, hids⟩ }, ⟨.refl _, .refl _, hrowsPerm.symm⟩, ?_⟩
    show (rows.map Prod.snd).mergeSort _ = rules
    rw [hvalues]
    exact List.mergeSort_of_pairwise hsorted

/-! ## What does not depend on the order -/

namespace WellFormed

variable {s s' : Store} (hs : s.WellFormed)
include hs

/-- The settings that apply at an instant are sorted by age and identifier, which leaves no tie. -/
theorem effectiveSettings_eq (h : s.Reordering s') (keys : List String) (t : Instant) :
    s'.effectiveSettings keys t = s.effectiveSettings keys t := by
  have hid : ∀ a b, ageOrder a b = .eq → a.id = b.id := by
    intro a b hab
    unfold ageOrder at hab
    exact Uuid.eq_of_compare_eq (Ordering.then_eq_eq.1 hab).2
  refine mergeSort_eq_of_perm hid ((h.settings.map Prod.snd).filter _) ?_
  exact hs.settings_keyed.nodup_map_values.sublist (List.filter_sublist.map Setting.id)

/-- The rules in force are sorted as they are applied, which leaves no tie either. -/
theorem liveRules_eq (h : s.Reordering s') (t : Instant) : s'.liveRules t = s.liveRules t := by
  refine Rule.inOrder_eq_of_perm (h.rules_values.filter _) ?_
  exact hs.rules_keyed.nodup_map_values.sublist (List.filter_sublist.map Rule.id)

end WellFormed

/-- **The order of the rows makes no difference to pricing**: keys have the same values, and the
rules in force make the same of each price. -/
theorem Reordering.alike {v : View} (hv : v.store.WellFormed) {s : Store}
    (h : v.store.Reordering s) : ({ v with store := s } : View).Alike v where
  now := rfl
  value? key r := by
    unfold View.value? View.setting? View.candidates
    rw [hv.effectiveSettings_eq h]
  applyRules price op r filter := by
    unfold View.applyRules
    rw [hv.liveRules_eq h]

end Store

namespace Engine

/-! ## Runs in any order -/

/-- **What an engine may become** by calls, where its rows are put into any order between them. The
order in which a table is enumerated is not in anybody's hands, and a call that depends on it does
so at its beginning: a seed reads the list of all rules once, and before it has written any. So it
is enough that the order may be another one before each call. `ids` are the identifiers that the
calls may give to new rows, as in a run. -/
inductive Reaches (e : Engine) : (ids : List Uuid) → Engine → Prop
  | refl : Reaches e [] e
  | call {ids : List Uuid} {e₁ : Engine} (before : Reaches e ids e₁) (c : Call) :
      Reaches e (ids ++ c.rowIds) (e₁.perform c)
  | reorder {ids : List Uuid} {e₁ : Engine} {s : Store} (before : Reaches e ids e₁)
      (h : e₁.store.Reordering s) : Reaches e ids { e₁ with store := s }

/-- A run is one in which the rows are left as they stand. -/
theorem reaches_run (e : Engine) (calls : List Call) :
    e.Reaches (calls.flatMap Call.rowIds) (e.run calls) := by
  induction calls using List.reverseRecOn with
  | nil => exact .refl
  | append_singleton before c ih =>
    unfold run at ih ⊢
    rw [List.flatMap_append, List.flatMap_singleton, List.foldl_append]
    exact ih.call c

/-- Whether an identifier is in use does not depend on the order of the rows. -/
theorem Unused.reorder {e : Engine} {id : Uuid} (hid : e.Unused id) {s : Store}
    (h : e.store.Reordering s) : { e with store := s }.Unused id where
  setting := (Table.find?_eq_of_rows_perm h.settings id).trans hid.setting
  rule := (Table.find?_eq_of_rows_perm h.rules id).trans hid.rule
  record := hid.record

namespace Reaches

variable {config : EngineConfig} {e e' : Engine} {ids : List Uuid}

theorem wellFormed (h : e.Reaches ids e') (he : e.store.WellFormed) : e'.store.WellFormed := by
  induction h with
  | refl => exact he
  | @call ids e₁ before c ih =>
    obtain ⟨_, _, hpath, -, -⟩ := e₁.exists_path_perform c
    exact hpath.wellFormed ih
  | reorder before hs ih => exact hs.wellFormed ih

/-- **What no call may draw is unused afterwards**, where the engine was new. -/
theorem unused (h : e.Reaches ids e') (hnew : Engine.create config = .ok e) {id : Uuid}
    (hid : id ∉ ids) : e'.Unused id := by
  obtain ⟨hwell, hunused⟩ := unused_of_create hnew
  induction h with
  | refl => exact hunused id
  | @call ids e₁ before c ih =>
    rw [List.mem_append, not_or] at hid
    obtain ⟨drawn, _, hpath, hdrawn, -⟩ := e₁.exists_path_perform c
    exact hpath.unused (before.wellFormed hwell) (ih hid.1) fun hmem => hid.2 (hdrawn.subset hmem)
  | reorder before hs ih => exact (ih hid).reorder hs

end Reaches

end Engine

end Tariff
