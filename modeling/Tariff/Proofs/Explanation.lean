import Mathlib.Data.List.Chain
import Tariff.Proofs.Rounding
import Tariff.Proofs.Traces

/-!
# A trace explains its price

A trace is written for people: it has to say how the price came about, with every
rule accounted for. The loop that writes it has three accumulators, the running
price, the steps and the failed rules, and nothing but the loop ties them together.

What is proved of them is `Trace.Explains`, in terms of the finished trace alone. The
price at which it is a rule's turn is not recorded where the rule makes no step, but
it can be read off: it is the price that the last step of an earlier rule has left
(`turnPrice`).

The argument has two parts. That the steps are numbered and linked is an invariant
of the loop (`Linked`). What becomes of a rule is decided at its turn: the rules
before it have left the price that is read off, and those after it neither take its
entry away nor add another, since no two rules have the same identifier
(`mem_iff_outcome`).
-/

namespace Tariff

/-- **The price that steps leave behind**, or the one that they start from if there are none. A
trace on the way keeps its running price beside its steps; this is the same price, read off the
steps alone. -/
def Step.lastPrice (price : Decimal) (steps : List Step) : Decimal :=
  (steps.getLast?.map (·.after)).getD price

/-- **The step tells what a rule does** to the price before it. Nothing in a step refers to the rule
as a whole, so it is said field by field: the step names the rule, its price after is what the
actions of the rule make of its price before, and its text is the one that is written for a rule of
that kind between these two prices. -/
structure Step.IsOf (s : Step) (rule : Rule) : Prop where
  ruleId : s.ruleId = rule.id
  ruleName : s.ruleName = rule.name
  ruleType : s.ruleType = rule.ruleType
  after : Action.applyAll rule.actions s.before = .ok s.after
  reasoning : s.reasoning = Trace.reasoning rule s.before s.after

namespace Trace

open Step (lastPrice)

/-- The identifiers of the rules that failed, in order. -/
def failedRuleIds (t : Trace) : List Uuid := t.failed.map (·.ruleId)

/-- **The price at a rule's turn**: what the last step of a rule before it has left, or the base
price if no rule before it has made a step.

Only the trace and the rules are looked at, and not the loop. A rule that made no step has left no
price of its own in the trace, and yet one has to speak of the price that it found, since whether
its actions succeed depends on that. -/
def turnPrice (t : Trace) (rules : List Rule) (rule : Rule) : Decimal :=
  lastPrice t.basePrice (t.steps.filter fun s =>
    s.ruleId ∈ (rules.filter fun other => other.order rule = .lt).map Rule.id)

/-- **The trace explains what rules have made of a price.** Each field is a sentence about the
finished trace that a reader could check with the rules in hand.

The first group is about the steps: they are numbered from one without a gap, they lead from the
price without a break, and each of them tells what one of the rules does. The second is about the
rules: in which of the two lists a rule is found, in what order, and that it is found in one of them
at most. What decides this is the price at the rule's turn (`turnPrice`). The last two fields are
about the end: the price is what the last step has left, or zero if that is below zero, and the
trace says which. -/
structure Explains (t : Trace) (rules : List Rule) (price : Decimal) (op : Operation)
    (r : Request) (filter : RuleFilter) : Prop where
  basePrice : t.basePrice = price
  numbers : t.steps.map (·.number) = List.range' 1 t.steps.length
  first : ∀ s ∈ t.steps.head?, s.before = price
  chain : t.steps.IsChain fun s s' => s'.before = s.after
  steps : ∀ s ∈ t.steps, ∃ rule ∈ rules, s.IsOf rule
  /-- The steps are in the order of the rules. -/
  applied_order : t.appliedRuleIds.Sublist ((Rule.inOrder rules).map Rule.id)
  /-- So are the failures. -/
  failed_order : t.failedRuleIds.Sublist ((Rule.inOrder rules).map Rule.id)
  /-- A rule has a step where it takes part, applies, and its actions succeed. -/
  applied_iff : ∀ rule ∈ rules, rule.id ∈ t.appliedRuleIds ↔
    filter.admits rule.ruleType = true ∧ rule.appliesTo op r = .ok true
      ∧ ∃ after, Action.applyAll rule.actions (t.turnPrice rules rule) = .ok after
  /-- It has failed where it takes part, and either whether it applies cannot be told or its
  actions fail. -/
  failed_iff : ∀ rule ∈ rules, rule.id ∈ t.failedRuleIds ↔
    filter.admits rule.ruleType = true ∧ ((∃ p, rule.appliesTo op r = .error p)
      ∨ (rule.appliesTo op r = .ok true
        ∧ ∃ m, Action.applyAll rule.actions (t.turnPrice rules rule) = .error m))
  /-- The entry of a failure names its rule, and its cause is what stopped the rule at its turn. -/
  failed : ∀ f ∈ t.failed, ∃ rule ∈ rules, f.ruleId = rule.id ∧ f.ruleName = rule.name
    ∧ outcome rule op r (t.turnPrice rules rule) = .error f.cause
  /-- No rule occurs twice, as a step, as a failure or as both. -/
  nodup : (t.appliedRuleIds ++ t.failedRuleIds).Nodup
  /-- A price that is not below zero is the price of the trace. -/
  of_nonneg : .zero ≤ lastPrice price t.steps →
    t.adjustedPrice = lastPrice price t.steps ∧ t.clamped = false
  /-- A price below zero is not, and the trace says that it was clamped. -/
  of_negative : lastPrice price t.steps < .zero → t.adjustedPrice = .zero ∧ t.clamped = true

variable {op : Operation} {r : Request} {price : Decimal} {rule : Rule} {t : Trace}

/-! ## The steps are linked

This part needs nothing about the rules but that each adds one step or none. -/

/-- **What holds of a trace on the way**: its steps are numbered, and lead from the base price to
the running price.

This is the invariant of the loop. It says of the running price that the last step has left it,
which is what makes the link to the next step: that one starts at the running price. -/
structure Linked (price : Decimal) (t : Trace) : Prop where
  basePrice : t.basePrice = price
  adjustedPrice : t.adjustedPrice = lastPrice price t.steps
  clamped : t.clamped = false
  numbers : t.steps.map (·.number) = List.range' 1 t.steps.length
  first : ∀ s ∈ t.steps.head?, s.before = price
  chain : t.steps.IsChain fun s s' => s'.before = s.after

/-- **One more step** is linked to the steps before it. It takes the next number, and its price
before is the running price, which is the price after the last step; the first step starts at the
base price for the same reason, since then the running price is still that. -/
theorem Linked.addStep (h : t.Linked price) (rule : Rule) (after : Decimal) :
    { t with
      adjustedPrice := after
      steps := t.steps ++ [t.nextStep rule after] }.Linked price where
  basePrice := h.basePrice
  adjustedPrice := by simp [lastPrice, nextStep]
  clamped := h.clamped
  numbers := by
    rw [List.map_append, h.numbers, List.length_append, List.length_singleton, List.range'_concat]
    simp [nextStep, Nat.add_comm]
  first := by
    have hprice := h.adjustedPrice
    cases hsteps : t.steps with
    | nil => simpa [hsteps, lastPrice, nextStep] using hprice
    | cons s rest => simpa [hsteps] using h.first
  chain := by
    refine h.chain.append (.singleton _) fun s hs s' hs' => ?_
    -- The last step has left the running price.
    cases hs'
    have hprice := h.adjustedPrice
    rw [lastPrice, Option.mem_def.1 hs] at hprice
    exact hprice

/-- A rule's turn leaves the steps linked, whether it makes a step, fails, or does not apply. -/
theorem Linked.extend (h : t.Linked price) (rule : Rule) :
    (extend op r t rule).Linked price := by
  cases houtcome : outcome rule op r t.adjustedPrice with
  | error e =>
    rw [extend_of_error houtcome]
    exact ⟨h.basePrice, h.adjustedPrice, h.clamped, h.numbers, h.first, h.chain⟩
  | ok result =>
    cases result with
    | none => rwa [extend_of_none houtcome]
    | some after =>
      rw [extend_of_some houtcome]
      exact h.addStep rule after

/-- So the steps are linked after all rules, or after as many as one likes. -/
theorem linked_foldl_extend (rules : List Rule) (price : Decimal) :
    (rules.foldl (extend op r) (start price)).Linked price :=
  List.foldlRecOn rules _ ⟨rfl, rfl, rfl, rfl, by simp [start], List.IsChain.nil⟩
    fun _ h rule _ => h.extend rule

/-- **Every step tells what one of the rules does.** It was written at that rule's turn, and what is
added later is added behind it. -/
theorem exists_isOf_of_mem_steps (rules : List Rule) (price : Decimal) :
    ∀ s ∈ (rules.foldl (extend op r) (start price)).steps, ∃ rule ∈ rules, s.IsOf rule := by
  refine List.foldlRecOn (motive := fun t : Trace => ∀ s ∈ t.steps, ∃ rule ∈ rules, s.IsOf rule)
    rules _ (fun s hs => absurd hs List.not_mem_nil) fun t ht rule hrule => ?_
  cases houtcome : outcome rule op r t.adjustedPrice with
  | error e => rwa [extend_of_error houtcome]
  | ok result =>
    cases result with
    | none => rwa [extend_of_none houtcome]
    | some after =>
      rw [extend_of_some houtcome]
      intro s hs
      rcases List.mem_append.1 hs with hold | hnew
      · exact ht s hold
      · rw [List.mem_singleton.1 hnew]
        exact ⟨rule, hrule, rfl, rfl, rfl, (outcome_eq_some_iff.1 houtcome).2, rfl⟩

/-! ## What becomes of a rule is decided at its turn

The trace at the end is compared with the trace at the rule's turn. Between them are the turns of
the later rules, which have other identifiers: what they add is theirs (`GrowsBy`), so they do not
change where the rule is listed. -/

namespace GrowsBy

variable {t' : Trace} {rules : List Rule} {id : Uuid}

/-- **Other rules neither carry a rule out nor take it back.** -/
theorem mem_appliedRuleIds_iff (h : t.GrowsBy t' rules) (hid : id ∉ rules.map Rule.id) :
    id ∈ t'.appliedRuleIds ↔ id ∈ t.appliedRuleIds := by
  obtain ⟨added, hsteps, hsub⟩ := h.steps
  unfold appliedRuleIds
  rw [hsteps, List.map_append, List.mem_append]
  exact or_iff_left fun hadded => hid (hsub.subset hadded)

/-- Nor does it fail at the turn of another rule. -/
theorem mem_failedRuleIds_iff (h : t.GrowsBy t' rules) (hid : id ∉ rules.map Rule.id) :
    id ∈ t'.failedRuleIds ↔ id ∈ t.failedRuleIds := by
  obtain ⟨added, hfailed, hsub⟩ := h.failed
  unfold failedRuleIds
  rw [hfailed, List.map_append, List.mem_append]
  exact or_iff_left fun hadded => hid (hsub.subset hadded)

/-- **The steps before are those of the rules before.** They can be told from those that were added
by their rules alone, and this is how the price at a rule's turn is read off the finished trace. -/
theorem filter_steps (h : t.GrowsBy t' rules) {earlier : List Rule}
    (ht : ∀ s ∈ t.steps, s.ruleId ∈ earlier.map Rule.id)
    (hdisjoint : (earlier.map Rule.id).Disjoint (rules.map Rule.id)) :
    (t'.steps.filter fun s => s.ruleId ∈ earlier.map Rule.id) = t.steps := by
  obtain ⟨added, hsteps, hsub⟩ := h.steps
  have hold : (t.steps.filter fun s => s.ruleId ∈ earlier.map Rule.id) = t.steps :=
    List.filter_eq_self.2 fun s hs => decide_eq_true (ht s hs)
  have hnew : (added.filter fun s => s.ruleId ∈ earlier.map Rule.id) = [] :=
    List.filter_eq_nil_iff.2 fun s hs hmem =>
      hdisjoint (of_decide_eq_true hmem) (hsub.subset (List.mem_map_of_mem hs))
  rw [hsteps, List.filter_append, hold, hnew, List.append_nil]

end GrowsBy

section Turn

variable {earlier later : List Rule}

/-- **At a rule's turn**, the price is what the steps of the rules before it have left. On the
left is what is read off the finished trace, on the right the running price of the loop when it
comes to the rule. -/
theorem lastPrice_filter_earlier (hids : ((earlier ++ rule :: later).map Rule.id).Nodup) :
    lastPrice price (((earlier ++ rule :: later).foldl (extend op r) (start price)).steps.filter
        fun s => s.ruleId ∈ earlier.map Rule.id)
      = (earlier.foldl (extend op r) (start price)).adjustedPrice := by
  rw [List.map_append, List.nodup_append'] at hids
  have hearlier : ∀ s ∈ (earlier.foldl (extend op r) (start price)).steps,
      s.ruleId ∈ earlier.map Rule.id := fun s hs => by
    obtain ⟨other, hother, hof⟩ := exists_isOf_of_mem_steps earlier price s hs
    exact List.mem_map.2 ⟨other, hother, hof.ruleId.symm⟩
  rw [List.foldl_append,
    (growsBy_foldl_extend op r (rule :: later) _).filter_steps hearlier hids.2.2]
  exact (linked_foldl_extend earlier price).adjustedPrice.symm

/-- **What becomes of a rule at its turn** becomes of it in the end: it is listed as applied exactly
if the loop found that it applies and its actions succeed, and as failed exactly if the loop met an
error there. Before its turn it is in neither list, and after it nothing about it changes. -/
theorem mem_iff_outcome (hids : ((earlier ++ rule :: later).map Rule.id).Nodup) :
    (rule.id ∈ ((earlier ++ rule :: later).foldl (extend op r) (start price)).appliedRuleIds
        ↔ ∃ after, outcome rule op r (earlier.foldl (extend op r) (start price)).adjustedPrice
          = .ok (some after))
      ∧ (rule.id ∈ ((earlier ++ rule :: later).foldl (extend op r) (start price)).failedRuleIds
        ↔ ∃ e, outcome rule op r (earlier.foldl (extend op r) (start price)).adjustedPrice
          = .error e) := by
  rw [List.map_append, List.nodup_append', List.map_cons, List.nodup_cons,
    List.disjoint_cons_right] at hids
  obtain ⟨-, ⟨hlater, -⟩, hearlier, -⟩ := hids
  rw [List.foldl_append, List.foldl_cons]
  generalize ht : earlier.foldl (extend op r) (start price) = t
  have hbefore : (start price).GrowsBy t earlier := ht ▸ growsBy_foldl_extend op r earlier _
  have hafter := growsBy_foldl_extend op r later (extend op r t rule)
  have hnotApplied : rule.id ∉ t.appliedRuleIds := fun h =>
    List.not_mem_nil ((hbefore.mem_appliedRuleIds_iff hearlier).1 h)
  have hnotFailed : rule.id ∉ t.failedRuleIds := fun h =>
    List.not_mem_nil ((hbefore.mem_failedRuleIds_iff hearlier).1 h)
  rw [hafter.mem_appliedRuleIds_iff hlater, hafter.mem_failedRuleIds_iff hlater]
  cases houtcome : outcome rule op r t.adjustedPrice with
  | error e =>
    rw [extend_of_error houtcome]
    exact ⟨iff_of_false hnotApplied (by simp), iff_of_true (by simp [failedRuleIds]) ⟨e, rfl⟩⟩
  | ok result =>
    cases result with
    | none =>
      rw [extend_of_none houtcome]
      exact ⟨iff_of_false hnotApplied (by simp), iff_of_false hnotFailed (by simp)⟩
    | some after =>
      rw [extend_of_some houtcome]
      exact ⟨iff_of_true (by simp [appliedRuleIds, nextStep]) ⟨after, rfl⟩,
        iff_of_false hnotFailed (by simp)⟩

/-- **A rule that fails at its turn** is recorded with the cause, and the record stays. -/
theorem mem_failed_of_outcome {e : Error}
    (h : outcome rule op r (earlier.foldl (extend op r) (start price)).adjustedPrice = .error e) :
    ⟨rule.id, rule.name, e⟩
      ∈ ((earlier ++ rule :: later).foldl (extend op r) (start price)).failed := by
  rw [List.foldl_append, List.foldl_cons]
  obtain ⟨added, hfailed, -⟩ := (growsBy_foldl_extend op r later (extend op r
    (earlier.foldl (extend op r) (start price)) rule)).failed
  rw [hfailed, extend_of_error h]
  simp

end Turn

/-! ## The finished trace

Not every rule takes part. The rules that the filter admits are put in order and gone through, and
the price at a rule's turn was defined with all rules; so it has to be seen that those that are not
admitted leave no step to be mistaken for one. -/

section Finished

variable {rules : List Rule} {filter : RuleFilter}

/-- The rules that take part have distinct identifiers, in the order in which they are applied. -/
theorem nodup_map_id_admitted (hids : (rules.map Rule.id).Nodup) (filter : RuleFilter) :
    ((Rule.inOrder (rules.filter fun rule => filter.admits rule.ruleType)).map Rule.id).Nodup :=
  Rule.nodup_map_id_inOrder (hids.sublist (List.filter_sublist.map Rule.id))

/-- They come in the order in which all rules would be applied. -/
theorem admitted_sublist (hids : (rules.map Rule.id).Nodup) (filter : RuleFilter) :
    (Rule.inOrder (rules.filter fun rule => filter.admits rule.ruleType)).Sublist
      (Rule.inOrder rules) := by
  rw [Rule.inOrder_filter hids]
  exact List.filter_sublist

/-- **The rules before a rule** are those that come first where the rules are in order. -/
theorem mem_earlier_iff {earlier later : List Rule} {other : Rule}
    (horder : (earlier ++ rule :: later).Pairwise fun a b => a.order b = .lt)
    (hother : other ∈ earlier ++ rule :: later) : other ∈ earlier ↔ other.order rule = .lt := by
  obtain ⟨-, hlater, hearlier⟩ := List.pairwise_append.1 horder
  constructor
  · exact fun h => hearlier other h rule List.mem_cons_self
  · intro hlt
    rcases List.mem_append.1 hother with h | h
    · exact h
    · exfalso
      rcases List.mem_cons.1 h with rfl | h
      · rw [@Std.ReflCmp.compare_self _ Rule.order] at hlt
        cases hlt
      · rw [Std.OrientedCmp.gt_of_lt ((List.pairwise_cons.1 hlater).1 other h)] at hlt
        cases hlt

variable (op r price) in
/-- **The price that is read off for a rule** is the one that the rules before it have left. The
rules in order are split at the rule. Those to its left are the admitted ones that come before it,
and of all rules that come before it only these have steps. -/
theorem exists_turn (hids : (rules.map Rule.id).Nodup) (hrule : rule ∈ rules)
    (hadmits : filter.admits rule.ruleType = true) : ∃ earlier later,
      Rule.inOrder (rules.filter fun rule => filter.admits rule.ruleType)
          = earlier ++ rule :: later
        ∧ (evaluate rules price op r filter).turnPrice rules rule
          = (earlier.foldl (extend op r) (start price)).adjustedPrice := by
  have hmem : rule ∈ rules.filter fun rule => filter.admits rule.ruleType :=
    List.mem_filter.2 ⟨hrule, hadmits⟩
  obtain ⟨earlier, later, hsplit⟩ := List.append_of_mem (Rule.mem_inOrder.2 hmem)
  have hnodup := nodup_map_id_admitted hids filter
  have horder := Rule.pairwise_inOrder
    (hids.sublist
      ((List.filter_sublist (p := fun rule => filter.admits rule.ruleType)).map Rule.id))
  have hstored : ∀ other ∈ earlier ++ rule :: later, other ∈ rules := fun other hother =>
    List.mem_of_mem_filter (Rule.mem_inOrder.1 (hsplit ▸ hother))
  rw [hsplit] at hnodup horder
  refine ⟨earlier, later, hsplit, ?_⟩
  unfold turnPrice evaluate
  rw [clamp_steps, clamp_basePrice, (linked_foldl_extend _ price).basePrice, hsplit,
    ← lastPrice_filter_earlier hnodup]
  congr 1
  refine List.filter_congr fun s hs => ?_
  obtain ⟨other, hother, hof⟩ := exists_isOf_of_mem_steps _ price s hs
  -- Only one rule has the identifier of the step.
  have hunique : ∀ rule' ∈ rules, rule'.id = s.ruleId → rule' = other := fun rule' hrule' hid =>
    List.inj_on_of_nodup_map hids hrule' (hstored other hother) (hid.trans hof.ruleId)
  rw [decide_eq_decide, List.mem_map, List.mem_map]
  constructor
  · rintro ⟨rule', hrule', hid⟩
    obtain ⟨hmem, hlt⟩ := List.mem_filter.1 hrule'
    rw [hunique rule' hmem hid] at hlt hid
    exact ⟨other, (mem_earlier_iff horder hother).2 (of_decide_eq_true hlt), hid⟩
  · rintro ⟨rule', hrule', hid⟩
    obtain rfl := hunique rule' (hstored _ (List.mem_append_left _ hrule')) hid
    exact ⟨rule', List.mem_filter.2 ⟨hstored rule' hother,
      decide_eq_true ((mem_earlier_iff horder hother).1 hrule')⟩, hid⟩

/-- A rule that takes no part is neither carried out nor fails. -/
theorem not_mem_of_not_admits (hids : (rules.map Rule.id).Nodup) (hrule : rule ∈ rules)
    (hadmits : ¬filter.admits rule.ruleType = true) :
    rule.id ∉ (evaluate rules price op r filter).appliedRuleIds
      ∧ rule.id ∉ (evaluate rules price op r filter).failedRuleIds := by
  have hnot : rule.id ∉ (Rule.inOrder
      (rules.filter fun rule => filter.admits rule.ruleType)).map Rule.id := by
    intro hmem
    obtain ⟨other, hother, hid⟩ := List.mem_map.1 hmem
    obtain ⟨hstored, hadmitted⟩ := List.mem_filter.1 (Rule.mem_inOrder.1 hother)
    rw [List.inj_on_of_nodup_map hids hstored hrule hid] at hadmitted
    exact hadmits hadmitted
  have hgrows := growsBy_foldl_extend op r
    (Rule.inOrder (rules.filter fun rule => filter.admits rule.ruleType)) (start price)
  unfold evaluate appliedRuleIds failedRuleIds
  rw [clamp_steps, clamp_failed]
  exact ⟨fun h => List.not_mem_nil ((hgrows.mem_appliedRuleIds_iff hnot).1 h),
    fun h => List.not_mem_nil ((hgrows.mem_failedRuleIds_iff hnot).1 h)⟩

variable (op r price) in
/-- **What becomes of a rule** is decided by the price at its turn. This is `mem_iff_outcome`
with the price that is read off in place of the running price, so that the loop is not
mentioned any more. -/
theorem mem_iff_outcome_turnPrice (hids : (rules.map Rule.id).Nodup) (hrule : rule ∈ rules)
    (hadmits : filter.admits rule.ruleType = true) :
    (rule.id ∈ (evaluate rules price op r filter).appliedRuleIds ↔ ∃ after,
        outcome rule op r ((evaluate rules price op r filter).turnPrice rules rule)
          = .ok (some after))
      ∧ (rule.id ∈ (evaluate rules price op r filter).failedRuleIds ↔ ∃ e,
        outcome rule op r ((evaluate rules price op r filter).turnPrice rules rule) = .error e)
      ∧ ∀ e, outcome rule op r ((evaluate rules price op r filter).turnPrice rules rule)
          = .error e → ⟨rule.id, rule.name, e⟩ ∈ (evaluate rules price op r filter).failed := by
  obtain ⟨earlier, later, hsplit, hprice⟩ := exists_turn op r price hids hrule hadmits
  have hnodup := nodup_map_id_admitted hids filter
  rw [hsplit] at hnodup
  rw [hprice]
  unfold evaluate appliedRuleIds failedRuleIds
  rw [clamp_steps, clamp_failed, hsplit]
  exact ⟨(mem_iff_outcome hnodup).1, (mem_iff_outcome hnodup).2,
    fun e he => mem_failed_of_outcome he⟩

variable (op r price filter)

/-- **A rule is carried out** where it takes part, applies, and its actions succeed. -/
theorem mem_appliedRuleIds_iff (hids : (rules.map Rule.id).Nodup) (hrule : rule ∈ rules) :
    rule.id ∈ (evaluate rules price op r filter).appliedRuleIds ↔
      filter.admits rule.ruleType = true ∧ rule.appliesTo op r = .ok true
        ∧ ∃ after, Action.applyAll rule.actions
          ((evaluate rules price op r filter).turnPrice rules rule) = .ok after := by
  by_cases hadmits : filter.admits rule.ruleType = true
  · rw [(mem_iff_outcome_turnPrice op r price hids hrule hadmits).1, and_iff_right hadmits]
    simp only [outcome_eq_some_iff, exists_and_left]
  · exact iff_of_false (not_mem_of_not_admits hids hrule hadmits).1 fun h => hadmits h.1

/-- **A rule fails** where it takes part, and either whether it applies cannot be told or its
actions fail. A rule that does not apply has not failed, and neither has one that takes no part. -/
theorem mem_failedRuleIds_iff (hids : (rules.map Rule.id).Nodup) (hrule : rule ∈ rules) :
    rule.id ∈ (evaluate rules price op r filter).failedRuleIds ↔
      filter.admits rule.ruleType = true ∧ ((∃ p, rule.appliesTo op r = .error p)
        ∨ (rule.appliesTo op r = .ok true ∧ ∃ m, Action.applyAll rule.actions
          ((evaluate rules price op r filter).turnPrice rules rule) = .error m)) := by
  by_cases hadmits : filter.admits rule.ruleType = true
  · rw [(mem_iff_outcome_turnPrice op r price hids hrule hadmits).2.1, and_iff_right hadmits]
    simp only [outcome_eq_error_iff]
    constructor
    · rintro ⟨e, ⟨p, hp, -⟩ | ⟨happlies, m, hm, -⟩⟩
      · exact .inl ⟨p, hp⟩
      · exact .inr ⟨happlies, m, hm⟩
    · rintro (⟨p, hp⟩ | ⟨happlies, m, hm⟩)
      · exact ⟨_, .inl ⟨p, hp, rfl⟩⟩
      · exact ⟨_, .inr ⟨happlies, m, hm, rfl⟩⟩
  · exact iff_of_false (not_mem_of_not_admits hids hrule hadmits).2 fun h => hadmits h.1

/-- **The steps come in the order of the rules.** -/
theorem appliedRuleIds_sublist (hids : (rules.map Rule.id).Nodup) :
    (evaluate rules price op r filter).appliedRuleIds.Sublist
      ((Rule.inOrder rules).map Rule.id) := by
  obtain ⟨applied, hsub, happlied⟩ := exists_sublist_evaluate op r rules price filter
  rw [happlied]
  exact (hsub.trans (admitted_sublist hids filter)).map Rule.id

theorem failedRuleIds_sublist (hids : (rules.map Rule.id).Nodup) :
    (evaluate rules price op r filter).failedRuleIds.Sublist
      ((Rule.inOrder rules).map Rule.id) := by
  obtain ⟨added, hfailed, hsub⟩ := (growsBy_foldl_extend op r
    (Rule.inOrder (rules.filter fun rule => filter.admits rule.ruleType)) (start price)).failed
  unfold evaluate failedRuleIds
  rw [clamp_failed, hfailed]
  exact hsub.trans ((admitted_sublist hids filter).map Rule.id)

/-- **Nothing fails that is carried out.** At its turn a rule either succeeds or fails, and it
has one turn. -/
theorem disjoint_appliedRuleIds_failedRuleIds (hids : (rules.map Rule.id).Nodup) :
    (evaluate rules price op r filter).appliedRuleIds.Disjoint
      (evaluate rules price op r filter).failedRuleIds := by
  intro id happlied hfailed
  obtain ⟨rule, hrule, rfl⟩ := List.mem_map.1
    ((appliedRuleIds_sublist op r price filter hids).subset happlied)
  have hrule := Rule.mem_inOrder.1 hrule
  obtain ⟨-, happlies, after, hafter⟩ :=
    (mem_appliedRuleIds_iff op r price filter hids hrule).1 happlied
  obtain ⟨-, ⟨p, hp⟩ | ⟨-, m, hm⟩⟩ :=
    (mem_failedRuleIds_iff op r price filter hids hrule).1 hfailed
  · rw [happlies] at hp
    cases hp
  · rw [hafter] at hm
    cases hm

/-- **The cause of a failure is what stops the rule at its turn.** An entry has been written by some
rule; that it was written with the price at the turn of just this rule follows from there being one
entry for each identifier. -/
theorem exists_outcome_of_mem_failed (hids : (rules.map Rule.id).Nodup) {f : FailedRule}
    (hf : f ∈ (evaluate rules price op r filter).failed) : ∃ rule ∈ rules,
      f.ruleId = rule.id ∧ f.ruleName = rule.name
        ∧ outcome rule op r ((evaluate rules price op r filter).turnPrice rules rule)
          = .error f.cause := by
  have hfailed := failedRuleIds_sublist op r price filter hids
  have hmem : f.ruleId ∈ (evaluate rules price op r filter).failedRuleIds :=
    List.mem_map.2 ⟨f, hf, rfl⟩
  obtain ⟨rule, hrule, hid⟩ := List.mem_map.1 (hfailed.subset hmem)
  have hrule := Rule.mem_inOrder.1 hrule
  rw [← hid] at hmem
  have hadmits := ((mem_failedRuleIds_iff op r price filter hids hrule).1 hmem).1
  obtain ⟨-, hiff, hentry⟩ := mem_iff_outcome_turnPrice op r price hids hrule hadmits
  obtain ⟨e, he⟩ := hiff.1 hmem
  -- The failures have distinct identifiers, so this is the one that the rule has left.
  obtain rfl := List.inj_on_of_nodup_map (hfailed.nodup (Rule.nodup_map_id_inOrder hids)) hf
    (hentry e he) hid.symm
  exact ⟨rule, hrule, rfl, rfl, he⟩

/-- The steps of the finished trace lead from the base price to the price before the clamp, which
touches the price alone. -/
theorem exists_linked_evaluate (rules : List Rule) :
    ∃ t : Trace, t.Linked price ∧ evaluate rules price op r filter = t.clamp
      ∧ ∀ s ∈ t.steps, ∃ rule ∈ rules, s.IsOf rule := by
  refine ⟨_, linked_foldl_extend _ price, rfl, fun s hs => ?_⟩
  obtain ⟨rule, hrule, hof⟩ := exists_isOf_of_mem_steps _ price s hs
  exact ⟨rule, List.mem_of_mem_filter (Rule.mem_inOrder.1 hrule), hof⟩

end Finished

/-- A price that is not below zero is left as it is. -/
theorem clamp_of_nonneg (h : .zero ≤ t.adjustedPrice) : t.clamp = t := by
  have hnonneg := Decimal.isNegative_eq_false_iff.2 (Decimal.zero_le_iff.1 h)
  unfold clamp
  rw [hnonneg]
  rfl

/-- A price below zero becomes zero. -/
theorem clamp_of_negative (h : t.adjustedPrice < .zero) :
    t.clamp = { t with adjustedPrice := .zero, clamped := true } := by
  have hnegative : t.adjustedPrice.isNegative = true := by
    by_contra hnot
    rw [Bool.not_eq_true, Decimal.isNegative_eq_false_iff, ← Decimal.zero_le_iff] at hnot
    exact Int.not_le.2 h hnot
  unfold clamp
  rw [if_pos hnegative]

/-- **A trace explains the price that rules have made of another**, for every list of rules with
distinct identifiers, every price, request and filter.

The steps are numbered and linked because every turn keeps them so (`Linked`). That every rule is
accounted for, and as it should be, is decided at its turn (`mem_iff_outcome_turnPrice`): it is
listed as applied if its actions succeed there, as failed if they do not or if whether it applies
cannot be told, and otherwise not at all. That no two rules share an identifier is needed since a
trace knows rules by their identifiers only. With two rules of one identifier the entry of one would
stand for the other. -/
theorem explains_evaluate {rules : List Rule} (hids : (rules.map Rule.id).Nodup) (price : Decimal)
    (op : Operation) (r : Request) (filter : RuleFilter) :
    (evaluate rules price op r filter).Explains rules price op r filter := by
  have hnodup := Rule.nodup_map_id_inOrder hids
  have happlied := appliedRuleIds_sublist op r price filter hids
  have hfailed := failedRuleIds_sublist op r price filter hids
  obtain ⟨t, hlinked, heq, hsteps⟩ := exists_linked_evaluate op r price filter rules
  have hlast : lastPrice price (evaluate rules price op r filter).steps = t.adjustedPrice := by
    rw [heq, clamp_steps, hlinked.adjustedPrice]
  refine
    { basePrice := by rw [heq, clamp_basePrice]; exact hlinked.basePrice
      numbers := by rw [heq, clamp_steps]; exact hlinked.numbers
      first := by rw [heq, clamp_steps]; exact hlinked.first
      chain := by rw [heq, clamp_steps]; exact hlinked.chain
      steps := by rw [heq, clamp_steps]; exact hsteps
      applied_order := happlied
      failed_order := hfailed
      applied_iff := fun rule hrule => mem_appliedRuleIds_iff op r price filter hids hrule
      failed_iff := fun rule hrule => mem_failedRuleIds_iff op r price filter hids hrule
      failed := fun f hf => exists_outcome_of_mem_failed op r price filter hids hf
      nodup := (hnodup.sublist happlied).append (hnodup.sublist hfailed)
        (disjoint_appliedRuleIds_failedRuleIds op r price filter hids)
      of_nonneg := fun h => ?_
      of_negative := fun h => ?_ }
  · rw [hlast] at h ⊢
    rw [heq, clamp_of_nonneg h]
    exact ⟨rfl, hlinked.clamped⟩
  · rw [hlast] at h
    rw [heq, clamp_of_negative h]
    exact ⟨rfl, rfl⟩

/-- Three rules for a price of 100: the first fails in its second action, the second takes 150 away,
and the third adds one to what that has left. So the price ends below zero and is clamped, and the
trace explains it. -/
theorem explains_evaluate_of_failure : ∃ rules,
    rules = [
      Rule.ofDraft {
        name := "division"
        ruleType := .promotion
        actions := [⟨.add, .one⟩, ⟨.divide, .zero⟩]
        priority := 9 } ⟨1, by decide⟩ "ann" ⟨1⟩,
      Rule.ofDraft {
        name := "reduction"
        ruleType := .promotion
        actions := [⟨.subtract, ⟨false, 150, 0, by decide, by decide⟩⟩] }
        ⟨2, by decide⟩ "ann" ⟨1⟩,
      Rule.ofDraft {
        name := "addition"
        ruleType := .surcharge
        actions := [⟨.add, .one⟩] } ⟨3, by decide⟩ "ann" ⟨1⟩]
    ∧ (rules.map Rule.id).Nodup
    ∧ (evaluate rules .hundred .refill {} .all).appliedRuleIds
      = [⟨2, by decide⟩, ⟨3, by decide⟩]
    ∧ (evaluate rules .hundred .refill {} .all).failedRuleIds = [⟨1, by decide⟩]
    ∧ (evaluate rules .hundred .refill {} .all).clamped = true
    ∧ (evaluate rules .hundred .refill {} .all).Explains rules .hundred .refill {} .all := by
  refine ⟨_, rfl, ?_⟩
  generalize hrules : [_, _, _] = rules
  have hids : (rules.map Rule.id).Nodup := by subst hrules; decide
  have hexplains := explains_evaluate hids .hundred .refill {} .all
  have horder := @evaluate_of_pairwise rules (by subst hrules; decide) .hundred .refill {} .all
  refine ⟨hids, ?_, ?_, ?_, hexplains⟩
  all_goals
    rw [horder]
    subst hrules
    decide +kernel

end Trace

end Tariff
