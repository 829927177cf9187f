import Tariff.Proofs.Rounding
import Tariff.Proofs.Sorting
import Tariff.Rule.Trace

/-!
# How a trace grows

A trace is extended by one rule after the other, and a rule does one of three
things to it: it fails, it does not apply, or it adds a step. There is an equation
for each (`extend_of_error`, `extend_of_none`, `extend_of_some`), and a lemma that
says of a rule and a price when it is which. The clamp at the end touches neither
the steps nor the failed rules, and of the price it takes the larger one of it and zero
(`value_clamp`).

Nothing is taken away: rules add to a trace, and what they add is theirs and in their
order (`growsBy_foldl_extend`). So what a trace says was carried out is a selection,
in their order, of the rules that take part (`exists_sublist_evaluate`).
-/

namespace Tariff

/-! ## The order of rules

Rules are applied from the highest priority down. Among those of one priority the older one comes
first, and in the end the smaller identifier, so that two rules are never tied. -/

namespace Rule

variable {rules rules' : List Rule}

instance transCmp_order : Std.TransCmp Rule.order := by
  unfold Rule.order
  infer_instance

/-- Rules with distinct identifiers are never tied. -/
theorem id_eq_of_order_eq (a b : Rule) (h : a.order b = .eq) : a.id = b.id := by
  unfold order at h
  simp only [Ordering.then_eq_eq] at h
  exact Uuid.eq_of_compare_eq h.2.2

/-- Sorting neither adds a rule nor loses one. -/
theorem mem_inOrder {rule : Rule} : rule ∈ inOrder rules ↔ rule ∈ rules :=
  (inOrder_perm rules).mem_iff

/-- What holds of the rules that a filter admits holds of those that are applied. -/
theorem forall_admitted_iff {filter : RuleFilter} {P : Rule → Prop} :
    (∀ rule ∈ inOrder (rules.filter fun rule => filter.admits rule.ruleType), P rule)
      ↔ ∀ rule ∈ rules, filter.admits rule.ruleType = true → P rule := by
  simp only [mem_inOrder, List.mem_filter, and_imp]

theorem nodup_map_id_inOrder (h : (rules.map Rule.id).Nodup) :
    ((inOrder rules).map Rule.id).Nodup :=
  ((inOrder_perm rules).map Rule.id).nodup_iff.2 h

/-- **Of two rules in order the first one is applied first**, if their identifiers are
distinct. -/
theorem pairwise_inOrder (h : (rules.map Rule.id).Nodup) :
    (inOrder rules).Pairwise fun a b => a.order b = .lt :=
  pairwise_lt_mergeSort id_eq_of_order_eq h

/-- **The order of application does not depend on the order before.** -/
theorem inOrder_eq_of_perm (h : rules.Perm rules') (hids : (rules.map Rule.id).Nodup) :
    inOrder rules' = inOrder rules :=
  mergeSort_eq_of_perm id_eq_of_order_eq h hids

/-- Rules that are in order stay as they are. -/
theorem inOrder_of_pairwise (h : rules.Pairwise fun a b => (a.order b).isLE = true) :
    inOrder rules = rules :=
  List.mergeSort_of_pairwise h

/-- Leaving rules out before sorting is leaving them out after it. -/
theorem inOrder_filter (hids : (rules.map Rule.id).Nodup) (p : Rule → Bool) :
    inOrder (rules.filter p) = (inOrder rules).filter p :=
  mergeSort_filter id_eq_of_order_eq hids p

end Rule

namespace Trace

variable {op : Operation} {r : Request} {rule : Rule} {t : Trace}

/-! ## What a rule does

An extension of a trace has three outcomes, and every proof about traces has three cases. They are
named here once. -/

/-- **A rule is carried out** where it applies and its actions succeed. -/
theorem outcome_eq_some_iff {price after : Decimal} :
    outcome rule op r price = .ok (some after)
      ↔ rule.appliesTo op r = .ok true ∧ Action.applyAll rule.actions price = .ok after := by
  unfold outcome
  cases rule.appliesTo op r with
  | error p => simp
  | ok applies =>
    cases applies with
    | false => simp
    | true => cases Action.applyAll rule.actions price <;> simp

/-- **A rule is passed over** where it does not apply, whatever the price is. Then its actions are
not looked at. -/
theorem outcome_eq_none_iff {price : Decimal} :
    outcome rule op r price = .ok none ↔ rule.appliesTo op r = .ok false := by
  unfold outcome
  cases rule.appliesTo op r with
  | error p => simp
  | ok applies =>
    cases applies with
    | false => simp
    | true => cases Action.applyAll rule.actions price <;> simp

/-- **A rule fails** where it cannot be told whether it applies, or it does and its actions fail. -/
theorem outcome_eq_error_iff {price : Decimal} {e : Error} :
    outcome rule op r price = .error e
      ↔ (∃ p, rule.appliesTo op r = .error p ∧ e = .invalid p)
        ∨ (rule.appliesTo op r = .ok true
          ∧ ∃ m, Action.applyAll rule.actions price = .error m ∧ e = .calculation m) := by
  unfold outcome
  cases rule.appliesTo op r with
  | error p => simp [eq_comm]
  | ok applies =>
    cases applies with
    | false => simp
    | true => cases Action.applyAll rule.actions price <;> simp [eq_comm]

/-- The step that a rule adds to a trace. -/
def nextStep (t : Trace) (rule : Rule) (after : Decimal) : Step where
  number := t.steps.length + 1
  ruleId := rule.id
  ruleName := rule.name
  ruleType := rule.ruleType
  before := t.adjustedPrice
  after := after
  reasoning := reasoning rule t.adjustedPrice after

/-- A rule that fails is added to the failures, and the price stays. -/
theorem extend_of_error {e : Error} (h : outcome rule op r t.adjustedPrice = .error e) :
    extend op r t rule = { t with failed := t.failed ++ [⟨rule.id, rule.name, e⟩] } := by
  unfold extend
  rw [h]

/-- A rule that is passed over leaves no entry at all. -/
theorem extend_of_none (h : outcome rule op r t.adjustedPrice = .ok none) :
    extend op r t rule = t := by
  unfold extend
  rw [h]

/-- A rule that is carried out adds a step, also where the price does not change by it. -/
theorem extend_of_some {after : Decimal}
    (h : outcome rule op r t.adjustedPrice = .ok (some after)) :
    extend op r t rule
      = { t with adjustedPrice := after, steps := t.steps ++ [t.nextStep rule after] } := by
  unfold extend
  rw [h]
  rfl

/-! ## The end of a trace

When all rules have had their turn, a price below zero is put to zero. This is the only thing that
is done to the price other than by a rule, and it is marked in the trace. -/

/-- The clamp is no step. -/
theorem clamp_steps (t : Trace) : t.clamp.steps = t.steps := by
  unfold clamp
  split <;> rfl

theorem clamp_failed (t : Trace) : t.clamp.failed = t.failed := by
  unfold clamp
  split <;> rfl

/-- The base price stays, also where it is below zero. -/
theorem clamp_basePrice (t : Trace) : t.clamp.basePrice = t.basePrice := by
  unfold clamp
  split <;> rfl

/-- **The price at the end** is the running price or zero, whichever is larger. -/
theorem value_clamp (t : Trace) : t.clamp.adjustedPrice.value = max t.adjustedPrice.value 0 := by
  unfold clamp
  cases hneg : t.adjustedPrice.isNegative with
  | true =>
    rw [if_pos rfl, max_eq_right ((Decimal.isNegative_iff _).1 hneg).le]
    exact Decimal.value_zero
  | false =>
    rw [if_neg Bool.false_ne_true, max_eq_left (Decimal.isNegative_eq_false_iff.1 hneg)]

/-- Rules that are in order are applied in it. -/
theorem evaluate_of_pairwise {rules : List Rule}
    (h : rules.Pairwise fun a b => (a.order b).isLE = true) (price : Decimal) (op : Operation)
    (r : Request) (filter : RuleFilter) :
    evaluate rules price op r filter
      = ((rules.filter fun rule => filter.admits rule.ruleType).foldl (extend op r)
        (start price)).clamp := by
  unfold evaluate
  rw [Rule.inOrder_of_pairwise (h.filter _)]

/-! ## What rules add to a trace

It is often enough to know that what was in a trace stays in front, and that what was added belongs
to the rules gone through. -/

/-- **Rules add to a trace** steps and failures of theirs, in their order. Nothing is said of how
many: a rule adds one entry or none. -/
structure GrowsBy (t t' : Trace) (rules : List Rule) : Prop where
  steps : ∃ added, t'.steps = t.steps ++ added ∧
    (added.map (·.ruleId)).Sublist (rules.map Rule.id)
  failed : ∃ added, t'.failed = t.failed ++ added ∧
    (added.map (·.ruleId)).Sublist (rules.map Rule.id)

/-- A trace grows by nothing, whichever rules there are. -/
theorem GrowsBy.refl (t : Trace) (rules : List Rule) : t.GrowsBy t rules where
  steps := ⟨[], (List.append_nil _).symm, List.nil_sublist _⟩
  failed := ⟨[], (List.append_nil _).symm, List.nil_sublist _⟩

theorem GrowsBy.trans {t t' t'' : Trace} {rules rules' : List Rule} (h : t.GrowsBy t' rules)
    (h' : t'.GrowsBy t'' rules') : t.GrowsBy t'' (rules ++ rules') where
  steps := by
    obtain ⟨added, hsteps, hsub⟩ := h.steps
    obtain ⟨added', hsteps', hsub'⟩ := h'.steps
    refine ⟨added ++ added', by rw [hsteps', hsteps, List.append_assoc], ?_⟩
    rw [List.map_append, List.map_append]
    exact hsub.append hsub'
  failed := by
    obtain ⟨added, hfailed, hsub⟩ := h.failed
    obtain ⟨added', hfailed', hsub'⟩ := h'.failed
    refine ⟨added ++ added', by rw [hfailed', hfailed, List.append_assoc], ?_⟩
    rw [List.map_append, List.map_append]
    exact hsub.append hsub'

variable (op r)

/-- One rule adds an entry of its own. -/
theorem growsBy_extend (t : Trace) (rule : Rule) : t.GrowsBy (extend op r t rule) [rule] := by
  cases h : outcome rule op r t.adjustedPrice with
  | error e =>
    rw [extend_of_error h]
    exact { GrowsBy.refl t [rule] with failed := ⟨_, rfl, .refl _⟩ }
  | ok result =>
    cases result with
    | none =>
      rw [extend_of_none h]
      exact .refl t _
    | some after =>
      rw [extend_of_some h]
      exact { GrowsBy.refl t [rule] with steps := ⟨_, rfl, .refl _⟩ }

/-- So all rules do, in their order. -/
theorem growsBy_foldl_extend (rules : List Rule) (t : Trace) :
    t.GrowsBy (rules.foldl (extend op r) t) rules := by
  induction rules generalizing t with
  | nil => exact .refl t []
  | cons rule rest ih => exact (growsBy_extend op r t rule).trans (ih (extend op r t rule))

/-- **The rules that were carried out** are a selection of those that take part, in their order. -/
theorem exists_sublist_evaluate (rules : List Rule) (price : Decimal) (filter : RuleFilter) :
    ∃ applied : List Rule,
      applied.Sublist (Rule.inOrder (rules.filter fun rule => filter.admits rule.ruleType))
        ∧ (evaluate rules price op r filter).appliedRuleIds = applied.map Rule.id := by
  unfold evaluate appliedRuleIds
  rw [clamp_steps]
  obtain ⟨added, hsteps, hsub⟩ := (growsBy_foldl_extend op r _ (start price)).steps
  obtain ⟨applied, happlied, hids⟩ := List.sublist_map_iff.1 hsub
  exact ⟨applied, happlied, by rw [hsteps]; exact hids⟩

end Trace

end Tariff
