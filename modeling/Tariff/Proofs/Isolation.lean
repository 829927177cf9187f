import Tariff.Proofs.Traces

/-!
# Rules that are not carried out leave the price alone

Each rule acts on the price that the rules before it have left, so what one rule
does could depend on any other. It does not depend on the rules that are not carried
out. A rule that takes no part, does not apply, or fails in the middle of its
actions leaves the running price and the steps as they were, and all that tells of
it is its own entry among the failed rules.

So such rules may be deleted: what is left makes the same trace without their
entries (`foldl_extend_filter`). This is proved of the rules in order; that sorting
comes first makes no difference, since leaving rules out does not disturb the order,
and since the order is the same for every permutation of the rules.
-/

namespace Tariff

namespace Trace

variable {op : Operation} {r : Request} {rule : Rule} {t : Trace}

/-- **The trace without the failures of other rules** than those kept. Steps and prices are
left alone. -/
def keepFailed (kept : Uuid → Bool) (t : Trace) : Trace :=
  { t with failed := t.failed.filter fun f => kept f.ruleId }

/-- The clamp looks at the price only, so the failures may be left out before it or after it. -/
theorem clamp_keepFailed (kept : Uuid → Bool) (t : Trace) :
    (t.keepFailed kept).clamp = t.clamp.keepFailed kept := by
  unfold clamp
  rw [show (t.keepFailed kept).adjustedPrice = t.adjustedPrice from rfl]
  split <;> rfl

/-- A rule that is kept does the same without the failures of others: it looks at the running price,
and its entry, if it fails, is kept. -/
theorem extend_keepFailed {kept : Uuid → Bool} (h : kept rule.id = true) :
    extend op r (t.keepFailed kept) rule = (extend op r t rule).keepFailed kept := by
  have hprice : (t.keepFailed kept).adjustedPrice = t.adjustedPrice := rfl
  cases houtcome : outcome rule op r t.adjustedPrice with
  | error e =>
    rw [extend_of_error houtcome, extend_of_error (hprice ▸ houtcome)]
    unfold keepFailed
    simp only [List.filter_append, List.filter_cons, h, if_true, List.filter_nil]
  | ok result =>
    cases result with
    | none => rw [extend_of_none houtcome, extend_of_none (hprice ▸ houtcome)]
    | some after =>
      rw [extend_of_some houtcome, extend_of_some (hprice ▸ houtcome)]
      rfl

/-- **A rule that is not carried out** does nothing but fail. So its turn leaves a trace of which,
without its failure, nothing is left. -/
theorem keepFailed_extend {kept : Uuid → Bool} (h : kept rule.id = false)
    (hnot : rule.id ∉ (extend op r t rule).appliedRuleIds) :
    (extend op r t rule).keepFailed kept = t.keepFailed kept := by
  cases houtcome : outcome rule op r t.adjustedPrice with
  | error e =>
    rw [extend_of_error houtcome]
    unfold keepFailed
    simp only [List.filter_append, List.filter_cons, h, Bool.false_eq_true, if_false,
      List.filter_nil, List.append_nil]
  | ok result =>
    cases result with
    | none => rw [extend_of_none houtcome]
    | some after =>
      rw [extend_of_some houtcome] at hnot
      exact absurd (List.mem_map.2 ⟨t.nextStep rule after, by simp, rfl⟩) hnot

/-- **What was carried out stays**, so that a rule which is not carried out in the end is not
carried out at its turn. -/
theorem subset_appliedRuleIds_foldl_extend (rules : List Rule) (t : Trace) :
    t.appliedRuleIds ⊆ (rules.foldl (extend op r) t).appliedRuleIds := by
  obtain ⟨added, hsteps, -⟩ := (growsBy_foldl_extend op r rules t).steps
  unfold appliedRuleIds
  rw [hsteps, List.map_append]
  exact List.subset_append_left _ _

/-- **Rules that are not carried out may be deleted** from those in order. The induction is on the
rules from the left, with the trace so far left open: a rule that is kept does the same on both
sides, and one that is deleted does nothing but fail. -/
theorem foldl_extend_filter (kept : Uuid → Bool) (rules : List Rule) (t : Trace)
    (h : ∀ rule ∈ rules, rule.id ∈ (rules.foldl (extend op r) t).appliedRuleIds →
      kept rule.id = true) :
    (rules.filter fun rule => kept rule.id).foldl (extend op r) (t.keepFailed kept)
      = (rules.foldl (extend op r) t).keepFailed kept := by
  induction rules generalizing t with
  | nil => rfl
  | cons rule rest ih =>
    rw [List.foldl_cons] at h ⊢
    have hrest := ih (extend op r t rule) fun other hother =>
      h other (List.mem_cons_of_mem _ hother)
    cases hkept : kept rule.id with
    | true =>
      rw [List.filter_cons_of_pos (by exact hkept), List.foldl_cons, extend_keepFailed hkept,
        hrest]
    | false =>
      -- The rule is not carried out later, so it is not carried out now.
      have hnot : rule.id ∉ (extend op r t rule).appliedRuleIds := by
        intro hmem
        have := h rule List.mem_cons_self (subset_appliedRuleIds_foldl_extend rest _ hmem)
        rw [hkept] at this
        cases this
      rw [List.filter_cons_of_neg (by simp [hkept]), ← hrest, keepFailed_extend hkept hnot]

variable (price : Decimal) (filter : RuleFilter) {rules rules' : List Rule}

/-- **The order of the list does not matter.** The rules are put in order first, and the order
leaves no tie among rules with distinct identifiers. -/
theorem evaluate_eq_of_perm (h : rules.Perm rules') (hids : (rules.map Rule.id).Nodup) :
    evaluate rules' price op r filter = evaluate rules price op r filter := by
  unfold evaluate
  rw [Rule.inOrder_eq_of_perm (h.filter _) (hids.sublist (List.filter_sublist.map Rule.id))]

/-- **Rules that are not carried out may be deleted**, also where the rules are sorted first and
some of them take no part. -/
theorem evaluate_filter (kept : Uuid → Bool) (hids : (rules.map Rule.id).Nodup)
    (h : ∀ rule ∈ rules, rule.id ∈ (evaluate rules price op r filter).appliedRuleIds →
      kept rule.id = true) :
    evaluate (rules.filter fun rule => kept rule.id) price op r filter
      = (evaluate rules price op r filter).keepFailed kept := by
  unfold evaluate appliedRuleIds at h
  rw [clamp_steps] at h
  have hadmitted : ((rules.filter fun rule => filter.admits rule.ruleType).map Rule.id).Nodup :=
    hids.sublist (List.filter_sublist.map Rule.id)
  unfold evaluate
  rw [List.filter_comm, Rule.inOrder_filter hadmitted, ← clamp_keepFailed,
    ← foldl_extend_filter kept _ _ fun rule hrule =>
      h rule (List.mem_of_mem_filter (Rule.mem_inOrder.1 hrule))]
  rfl

end Trace

/-- Of a list without repetitions, what is left is what has the keys that are left. -/
theorem filter_mem_map_perm {α κ : Type} [DecidableEq κ] {key : α → κ} {l kept : List α}
    (h : kept.Sublist l) (hl : (l.map key).Nodup) :
    (l.filter fun a => key a ∈ kept.map key).Perm kept := by
  have hnodup : l.Nodup := hl.of_map key
  refine (List.perm_ext_iff_of_nodup (hnodup.filter _) (hnodup.sublist h)).2 fun a => ?_
  rw [List.mem_filter, decide_eq_true_eq, List.mem_map]
  constructor
  · rintro ⟨ha, b, hb, hkey⟩
    rwa [← List.inj_on_of_nodup_map hl (h.subset hb) ha hkey]
  · intro ha
    exact ⟨h.subset ha, a, ha, rfl⟩

/-- **A trace does not depend on the order of the rules or on those that are not carried out.** All
permutations of rules with distinct identifiers make the same trace of a price. And where some of
them are deleted that have no step in it, since they take no part, do not apply or fail, the trace
stays as it is but for their own entries among the failed rules.

The whole trace is compared: numbers and texts of the steps, the running prices in them, the price
at the end, and whether it was clamped. -/
theorem Trace.evaluate_unaffected {rules : List Rule} (hids : (rules.map Rule.id).Nodup)
    (price : Decimal) (op : Operation) (r : Request) (filter : RuleFilter) :
    (∀ rules' : List Rule, rules.Perm rules' →
        evaluate rules' price op r filter = evaluate rules price op r filter)
      ∧ ∀ kept : List Rule, kept.Sublist rules →
        (∀ rule ∈ rules, rule.id ∈ (evaluate rules price op r filter).appliedRuleIds →
          rule ∈ kept) →
        evaluate kept price op r filter = { evaluate rules price op r filter with
          failed := (evaluate rules price op r filter).failed.filter fun f =>
            f.ruleId ∈ kept.map Rule.id } := by
  refine ⟨fun rules' h => evaluate_eq_of_perm price filter h hids, fun kept hsub happlied => ?_⟩
  have hfilter := evaluate_filter price filter (fun id => id ∈ kept.map Rule.id) hids
    fun rule hrule hmem => decide_eq_true (List.mem_map.2 ⟨rule, happlied rule hrule hmem, rfl⟩)
  have hperm := filter_mem_map_perm hsub hids
  rw [evaluate_eq_of_perm price filter hperm (hids.sublist (List.filter_sublist.map Rule.id)),
    hfilter]
  rfl

/-- Of four rules the first fails, the second adds to the price, the third does not apply, and the
last takes no part. In another order they make the same trace, and so does the second alone but
for the failure of the first. -/
theorem Trace.evaluate_unaffected_of_one : ∃ first second third last rules,
    first = Rule.ofDraft {
      name := "division"
      ruleType := .promotion
      actions := [⟨.add, .one⟩, ⟨.divide, .zero⟩]
      priority := 9 } ⟨1, by decide⟩ "ann" ⟨1⟩
    ∧ second = Rule.ofDraft {
      name := "addition"
      ruleType := .surcharge
      actions := [⟨.add, .one⟩] } ⟨2, by decide⟩ "ann" ⟨1⟩
    ∧ third = Rule.ofDraft {
      name := "swaps"
      ruleType := .surcharge
      actions := [⟨.add, .one⟩]
      operationTypes := [.swap] } ⟨3, by decide⟩ "ann" ⟨1⟩
    ∧ last = Rule.ofDraft {
      name := "volume"
      ruleType := .volumeDiscount
      actions := [⟨.subtract, .one⟩] } ⟨4, by decide⟩ "ann" ⟨1⟩
    ∧ rules = [first, second, third, last] ∧ (rules.map Rule.id).Nodup
    ∧ (evaluate rules .hundred .refill {} (.except .volumeDiscount)).appliedRuleIds = [second.id]
    ∧ (evaluate rules .hundred .refill {} (.except .volumeDiscount)).failed.map (·.ruleId)
      = [first.id]
    ∧ evaluate [last, third, second, first] .hundred .refill {} (.except .volumeDiscount)
      = evaluate rules .hundred .refill {} (.except .volumeDiscount)
    ∧ evaluate [second] .hundred .refill {} (.except .volumeDiscount)
      = { evaluate rules .hundred .refill {} (.except .volumeDiscount) with
          failed := (evaluate rules .hundred .refill {} (.except .volumeDiscount)).failed.filter
            fun f => f.ruleId ∈ [second].map Rule.id } := by
  refine ⟨_, _, _, _, _, rfl, rfl, rfl, rfl, rfl, ?_⟩
  generalize hrules : [_, _, _, _] = rules
  have hids : (rules.map Rule.id).Nodup := by subst hrules; decide
  have horder := @evaluate_of_pairwise rules (by subst hrules; decide) .hundred .refill {}
    (.except .volumeDiscount)
  have happlied : (evaluate rules .hundred .refill {} (.except .volumeDiscount)).appliedRuleIds
      = [⟨2, by decide⟩] := by
    rw [horder]
    subst hrules
    decide +kernel
  obtain ⟨hperm, hdelete⟩ :=
    evaluate_unaffected hids .hundred .refill {} (.except .volumeDiscount)
  refine ⟨hids, happlied, ?_, hperm _ ?_, hdelete _ ?_ ?_⟩
  · rw [horder]
    subst hrules
    decide +kernel
  · subst hrules
    exact (List.reverse_perm _).symm
  · subst hrules
    exact .cons _ (.cons_cons _ (List.nil_sublist _))
  · rw [happlied]
    subst hrules
    simp [Rule.ofDraft]

end Tariff
