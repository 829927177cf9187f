import Tariff.Proofs.Actions

/-!
# Higher prices stay higher

Of two base prices the rules should leave the higher one higher, or make the two equal.
An action does so where its exact result grows with the price: a factor must not be
negative, nor a divisor, and no more than all of a price can be taken off
(`Action.KeepsOrder`). A price may still be below zero in between; nothing here depends
on its sign. What remains is that the results are rounded, each at a scale of its own.
That keeps the order too (`Decimal.IsRounding.value_le`).

Whether a rule applies does not depend on the price, so two evaluations of the same rules
run side by side. They would part only where a rule fails in one of them and is carried
out in the other. Where none fails, the running prices are in order after every rule
(`Trace.adjustedPrice_foldl_extend_le`), and so they are after the clamp.
-/

namespace Tariff

namespace Action

/-- **The actions that keep the order of prices**: factors that are not negative, divisors above
zero, discounts of a hundred percent at most, and whatever else passes its check. For a fixed price,
for what is added and for what is subtracted the value does not matter; the check is asked for
because a rule cannot be stored without it. -/
def KeepsOrder (a : Action) : Prop :=
  match a.kind with
  | .multiply => .zero ≤ a.value
  | .divide => .zero < a.value
  | .percentageDiscount => a.value ≤ .hundred
  | .add | .subtract | .percentageMarkup | .setFixed => a.validate = .ok ()

/-- Which it is can be decided, kind by kind, so that a rule can be checked for it. -/
instance decidableKeepsOrder : DecidablePred KeepsOrder
  | ⟨.multiply, value⟩ => inferInstanceAs (Decidable (Decimal.zero ≤ value))
  | ⟨.divide, value⟩ => inferInstanceAs (Decidable (Decimal.zero < value))
  | ⟨.percentageDiscount, value⟩ => inferInstanceAs (Decidable (value ≤ Decimal.hundred))
  | ⟨.add, value⟩ => decidablePasses (validate ⟨.add, value⟩)
  | ⟨.subtract, value⟩ => decidablePasses (validate ⟨.subtract, value⟩)
  | ⟨.percentageMarkup, value⟩ => decidablePasses (validate ⟨.percentageMarkup, value⟩)
  | ⟨.setFixed, value⟩ => decidablePasses (validate ⟨.setFixed, value⟩)

/-- A markup that passes its check is not negative. -/
theorem zero_le_of_validate_markup {percent : Decimal}
    (h : validate ⟨.percentageMarkup, percent⟩ = .ok ()) : 0 ≤ percent.value := by
  have hsign : percent.isSignNegative = false := by
    cases hsign : percent.isSignNegative with
    | false => rfl
    | true =>
      unfold validate at h
      rw [if_pos hsign] at h
      cases h
  rw [Decimal.value_eq, if_neg (by rw [show percent.negative = false from hsign]; simp)]
  exact percent.magnitude_nonneg

namespace KeepsOrder

variable {a : Action} {price price' after after' : Decimal}

/-- **The exact result grows with the price.** One case per kind of action. The numbers are
rationals here and of either sign, so it is a matter of multiplying an inequality by what is
not negative. -/
theorem exact_le (h : a.KeepsOrder) {x y : ℚ} (hle : x ≤ y) : a.exact x ≤ a.exact y := by
  obtain ⟨kind, value⟩ := a
  cases kind with
  | add => exact add_le_add_left hle _
  | subtract => exact sub_le_sub_right hle _
  | multiply =>
    have hfactor : Decimal.zero ≤ value := h
    exact mul_le_mul_of_nonneg_right hle (Decimal.zero_le_iff.1 hfactor)
  | divide =>
    have hdivisor : Decimal.zero < value := h
    rw [Decimal.lt_iff, Decimal.value_zero] at hdivisor
    exact div_le_div_of_nonneg_right hle hdivisor.le
  | percentageDiscount =>
    have hpercent : value ≤ .hundred := h
    rw [Decimal.le_iff, Decimal.value_hundred] at hpercent
    exact mul_le_mul_of_nonneg_right hle (zero_le_share_discount hpercent)
  | percentageMarkup =>
    exact mul_le_mul_of_nonneg_right hle (zero_le_share_markup (zero_le_of_validate_markup h))
  | setFixed => exact le_rfl

/-- **An action that keeps the order does so where it rounds.** The two results may be rounded at
different scales. Rounding is monotone all the same, since a number of the coarser scale is one of
the finer scale too (`Decimal.IsRounding.value_le`). -/
theorem le_of_apply (h : a.KeepsOrder) (hle : price ≤ price') (hok : a.apply price = .ok after)
    (hok' : a.apply price' = .ok after') : after ≤ after' := by
  rw [Decimal.le_iff] at hle ⊢
  exact (isRounding_of_apply hok).value_le (isRounding_of_apply hok') (h.exact_le hle)

end KeepsOrder

/-- **So do all of a list**, by induction on it: the results of one action are the prices
of the next. -/
theorem applyAll_le_applyAll {actions : List Action} {price price' after after' : Decimal}
    (h : ∀ a ∈ actions, a.KeepsOrder) (hle : price ≤ price')
    (hok : applyAll actions price = .ok after) (hok' : applyAll actions price' = .ok after') :
    after ≤ after' := by
  induction actions generalizing price price' with
  | nil =>
    cases hok
    cases hok'
    exact hle
  | cons a rest ih =>
    obtain ⟨hfirst, hrest⟩ := List.forall_mem_cons.1 h
    obtain ⟨running, hrunning, hafter⟩ := applyAll_cons_eq_ok_iff.1 hok
    obtain ⟨running', hrunning', hafter'⟩ := applyAll_cons_eq_ok_iff.1 hok'
    exact ih hrest (hfirst.le_of_apply hle hrunning hrunning') hafter hafter'

end Action

/-- **A rule that keeps the order of prices**, by each of its actions. -/
def Rule.KeepsOrder (rule : Rule) : Prop := ∀ a ∈ rule.actions, a.KeepsOrder

namespace Trace

variable {op : Operation} {r : Request} {rule : Rule} {t t' : Trace}

/-- Where nothing has failed after a rule, it has an outcome. Failures are only ever added, so it
cannot have failed itself. -/
theorem exists_outcome_of_failed_eq_nil (h : (extend op r t rule).failed = []) :
    ∃ result, outcome rule op r t.adjustedPrice = .ok result := by
  cases houtcome : outcome rule op r t.adjustedPrice with
  | error e =>
    rw [extend_of_error houtcome] at h
    exact absurd h (List.append_ne_nil_of_right_ne_nil _ (List.cons_ne_nil _ _))
  | ok result => exact ⟨result, rfl⟩

/-- Where nothing has failed after all rules, nothing had before them. The induction over the rules
needs this to know of each that it did not fail. -/
theorem failed_eq_nil_of_foldl_extend {rules : List Rule}
    (h : (rules.foldl (extend op r) t).failed = []) : t.failed = [] := by
  obtain ⟨added, hfailed, -⟩ := (growsBy_foldl_extend op r rules t).failed
  rw [hfailed] at h
  exact (List.append_eq_nil_iff.1 h).1

/-- **One more rule keeps the order of the running prices**, unless it fails. Whether it applies is
the same for both. If it does not, both prices stay. -/
theorem adjustedPrice_extend_le_extend (h : rule.KeepsOrder)
    (hle : t.adjustedPrice ≤ t'.adjustedPrice) (hfailed : (extend op r t rule).failed = [])
    (hfailed' : (extend op r t' rule).failed = []) :
    (extend op r t rule).adjustedPrice ≤ (extend op r t' rule).adjustedPrice := by
  obtain ⟨result, hresult⟩ := exists_outcome_of_failed_eq_nil hfailed
  obtain ⟨result', houtcome'⟩ := exists_outcome_of_failed_eq_nil hfailed'
  -- The rule applies on both sides or on neither: the price plays no part in it.
  cases result with
  | none =>
    have hpassed := outcome_eq_none_iff.1 hresult
    rw [extend_of_none hresult, extend_of_none (outcome_eq_none_iff.2 hpassed)]
    exact hle
  | some after =>
    obtain ⟨happlies, hafter⟩ := outcome_eq_some_iff.1 hresult
    cases result' with
    | none =>
      rw [outcome_eq_none_iff.1 houtcome'] at happlies
      cases happlies
    | some after' =>
      rw [extend_of_some hresult, extend_of_some houtcome']
      exact Action.applyAll_le_applyAll h hle hafter (outcome_eq_some_iff.1 houtcome').2

/-- **All rules keep the order of the running prices**, if none fails. -/
theorem adjustedPrice_foldl_extend_le {rules : List Rule} (h : ∀ rule ∈ rules, rule.KeepsOrder)
    (hle : t.adjustedPrice ≤ t'.adjustedPrice)
    (hfailed : (rules.foldl (extend op r) t).failed = [])
    (hfailed' : (rules.foldl (extend op r) t').failed = []) :
    (rules.foldl (extend op r) t).adjustedPrice
      ≤ (rules.foldl (extend op r) t').adjustedPrice := by
  induction rules generalizing t t' with
  | nil => exact hle
  | cons rule rest ih =>
    obtain ⟨hfirst, hrest⟩ := List.forall_mem_cons.1 h
    refine ih hrest ?_ hfailed hfailed'
    exact adjustedPrice_extend_le_extend hfirst hle (failed_eq_nil_of_foldl_extend hfailed)
      (failed_eq_nil_of_foldl_extend hfailed')

/-- **Rules that keep the order leave the higher of two prices higher, or equal to the other**, if
none of them fails for either. Only rules that the filter admits need keep it. The prices may have
any sign, before and in between, and the final clamp at zero keeps the order as well. -/
theorem evaluate_le_evaluate (rules : List Rule) (price price' : Decimal) (op : Operation)
    (r : Request) (filter : RuleFilter)
    (h : ∀ rule ∈ rules, filter.admits rule.ruleType = true → ∀ a ∈ rule.actions, a.KeepsOrder)
    (hle : price ≤ price') (hfailed : (evaluate rules price op r filter).failed = [])
    (hfailed' : (evaluate rules price' op r filter).failed = []) :
    (evaluate rules price op r filter).adjustedPrice
      ≤ (evaluate rules price' op r filter).adjustedPrice := by
  have hordered : ∀ rule ∈ Rule.inOrder _, rule.KeepsOrder := Rule.forall_admitted_iff.2 h
  unfold evaluate at hfailed hfailed' ⊢
  rw [clamp_failed] at hfailed hfailed'
  rw [Decimal.le_iff, value_clamp, value_clamp]
  exact max_le_max_right 0 (Decimal.le_iff.1
    (adjustedPrice_foldl_extend_le hordered hle hfailed hfailed'))

/-- A rule takes ten off and a third of that, so that five and eight both go down below zero, to
numbers with no end. With a markup of ten percent and an addition of two they come back up. -/
theorem evaluate_le_evaluate_below_zero : ∃ two three five eight ten rule running running',
    two = (⟨false, 2, 0, by decide, by decide⟩ : Decimal)
    ∧ three = (⟨false, 3, 0, by decide, by decide⟩ : Decimal)
    ∧ five = (⟨false, 5, 0, by decide, by decide⟩ : Decimal)
    ∧ eight = (⟨false, 8, 0, by decide, by decide⟩ : Decimal)
    ∧ ten = (⟨false, 10, 0, by decide, by decide⟩ : Decimal)
    ∧ rule = Rule.ofDraft {
      name := "third"
      ruleType := .promotion
      actions := [⟨.subtract, ten⟩, ⟨.divide, three⟩, ⟨.percentageMarkup, ten⟩, ⟨.add, two⟩] }
      ⟨1, by decide⟩ "ann" ⟨1⟩
    ∧ Action.applyAll (rule.actions.take 2) five = .ok running ∧ running < .zero
    ∧ Action.applyAll (rule.actions.take 2) eight = .ok running' ∧ running' < .zero
    ∧ running.scale = 28 ∧ running'.scale = 28
    ∧ (∀ a ∈ rule.actions, a.KeepsOrder) ∧ five ≤ eight
    ∧ (evaluate [rule] five .refill {} .all).failed = []
    ∧ (evaluate [rule] eight .refill {} .all).failed = []
    ∧ .zero < (evaluate [rule] five .refill {} .all).adjustedPrice
    ∧ (evaluate [rule] five .refill {} .all).adjustedPrice
      ≤ (evaluate [rule] eight .refill {} .all).adjustedPrice := by
  refine ⟨_, _, _, _, _, _, ⟨true, 16666666666666666666666666667, 28, by decide, by decide⟩,
    ⟨true, 6666666666666666666666666667, 28, by decide, by decide⟩, rfl, rfl, rfl, rfl, rfl, rfl,
    rfl, by decide, rfl, by decide, rfl, rfl, ?_⟩
  generalize hrule : Rule.ofDraft _ _ _ _ = rule
  have hkeeps : ∀ a ∈ rule.actions, a.KeepsOrder := by subst hrule; decide
  have hfailed : (evaluate [rule] ⟨false, 5, 0, by decide, by decide⟩ .refill {} .all).failed
      = [] := by subst hrule; decide +kernel
  have hfailed' : (evaluate [rule] ⟨false, 8, 0, by decide, by decide⟩ .refill {} .all).failed
      = [] := by subst hrule; decide +kernel
  refine ⟨hkeeps, by decide, hfailed, hfailed', by subst hrule; decide +kernel, ?_⟩
  exact evaluate_le_evaluate [rule] _ _ .refill {} .all
    (fun _ hmem _ => by rwa [List.mem_singleton.1 hmem]) (by decide) hfailed hfailed'

end Trace

end Tariff
