import Tariff.Proofs.Change
import Tariff.Proofs.Conditions
import Tariff.Proofs.Tax
import Tariff.Proofs.Traces

/-!
# What validation is for

A draft is checked when it is written, and a rule is applied when a price is asked
for, perhaps a long time after. The two look at conditions and actions each in its
own way. What the check is for is that the later look never finds anything wrong.

Of conditions that pass this is so: they are true or false of every request, and
their order does not matter (`Condition.allHold_eq_ok`, `Condition.allHold_eq_of_perm`).

Of an action that passes nothing can be said but that it does not divide by zero.
It may still fail, where the price that it makes is beyond the largest decimal
(`Action.Overflows`), and that is the only way (`Action.overflows_of_apply_eq_error`).
-/

namespace Tariff

/-! ## Actions

An action that has passed its check fails for one reason only, and this can be told from its exact
result. -/

namespace Action

/-- **One plus or minus a percentage is always a decimal.** A hundredth of a decimal leaves room for
one more, on either side. -/
theorem exists_percentageFactor (percent : Decimal) (isMarkup : Bool) :
    ∃ factor, percentageFactor percent isMarkup = some factor := by
  obtain ⟨fraction, hfraction, hle, -⟩ := percent.exists_div_hundred
  -- The fraction is a hundredth of the bound at most, so with one it is below the bound if this is
  -- not very small.
  have hbound : 4 ≤ Decimal.bound := by
    unfold Decimal.bound
    exact_mod_cast (by decide : 4 ≤ Decimal.capacity)
  obtain ⟨hlow, hhigh⟩ := abs_le.1 hle
  unfold percentageFactor
  rw [hfraction]
  refine Option.ne_none_iff_exists'.1 (fun hnone => ?_)
  cases isMarkup with
  | true =>
    have hnone : Decimal.one.add fraction = none := hnone
    have hlarge := Decimal.add_eq_none_iff.1 hnone
    have hsmall : |Decimal.one.value + fraction.value| < Decimal.bound - 1 / 2 := by
      rw [Decimal.value_one]
      exact abs_lt.2 ⟨by linarith, by linarith⟩
    linarith
  | false =>
    have hnone : Decimal.one.sub fraction = none := hnone
    have hlarge := Decimal.sub_eq_none_iff.1 hnone
    have hsmall : |Decimal.one.value - fraction.value| < Decimal.bound - 1 / 2 := by
      rw [Decimal.value_one]
      exact abs_lt.2 ⟨by linarith, by linarith⟩
    linarith

/-- **The price that an action makes is beyond the largest decimal**, by half a unit of it at least.
It is said of the exact price, since there is no decimal to say it of. What is set to a fixed price
is that price. -/
def Overflows (a : Action) (price : Decimal) : Prop :=
  match a.kind with
  | .add => Decimal.bound - 1 / 2 ≤ |price.value + a.value.value|
  | .subtract => Decimal.bound - 1 / 2 ≤ |price.value - a.value.value|
  | .multiply => Decimal.bound - 1 / 2 ≤ |price.value * a.value.value|
  | .divide => Decimal.bound - 1 / 2 ≤ |price.value / a.value.value|
  | .percentageDiscount => ∃ factor, percentageFactor a.value false = some factor
    ∧ Decimal.bound - 1 / 2 ≤ |price.value * factor.value|
  | .percentageMarkup => ∃ factor, percentageFactor a.value true = some factor
    ∧ Decimal.bound - 1 / 2 ≤ |price.value * factor.value|
  | .setFixed => False

/-- A checked result is missing where it is an error. -/
theorem eq_none_of_checked {result : Option Decimal} {x m : Miscalculation}
    (h : (match result with
      | some d => Except.ok d
      | none => .error x) = .error m) : m = x ∧ result = none := by
  cases result with
  | some d => cases h
  | none =>
    cases h
    exact ⟨rfl, rfl⟩

/-- **An action that passes fails only where the price overflows.** One case for each kind of
action. The check is needed for a division, which could otherwise fail by its divisor. -/
theorem overflows_of_apply_eq_error {a : Action} (ha : a.validate = .ok ()) {price : Decimal}
    {m : Miscalculation} (h : a.apply price = .error m) :
    m = .action a.kind a.value price ∧ a.Overflows price := by
  obtain ⟨kind, value⟩ := a
  unfold Overflows
  cases kind with
  | add =>
    obtain ⟨rfl, hnone⟩ := eq_none_of_checked h
    exact ⟨rfl, Decimal.add_eq_none_iff.1 hnone⟩
  | subtract =>
    obtain ⟨rfl, hnone⟩ := eq_none_of_checked h
    exact ⟨rfl, Decimal.sub_eq_none_iff.1 hnone⟩
  | multiply =>
    obtain ⟨rfl, hnone⟩ := eq_none_of_checked h
    exact ⟨rfl, Decimal.bound_le_of_mul_eq_none hnone⟩
  | divide =>
    -- A divisor of zero would have been refused by the check.
    have hzero : value.isZero = false := by
      cases hzero : value.isZero with
      | false => rfl
      | true =>
        unfold validate at ha
        rw [if_pos hzero] at ha
        cases ha
    have h : (if value.isZero then Except.error .zeroDivisor else _) = Except.error m := h
    rw [hzero, if_neg Bool.false_ne_true] at h
    obtain ⟨rfl, hnone⟩ := eq_none_of_checked h
    exact ⟨rfl, Decimal.bound_le_of_div_eq_none hzero hnone⟩
  | percentageDiscount =>
    obtain ⟨factor, hfactor⟩ := exists_percentageFactor value false
    obtain ⟨rfl, hnone⟩ := eq_none_of_checked h
    rw [hfactor] at hnone
    exact ⟨rfl, factor, hfactor, Decimal.bound_le_of_mul_eq_none hnone⟩
  | percentageMarkup =>
    obtain ⟨factor, hfactor⟩ := exists_percentageFactor value true
    obtain ⟨rfl, hnone⟩ := eq_none_of_checked h
    rw [hfactor] at hnone
    exact ⟨rfl, factor, hfactor, Decimal.bound_le_of_mul_eq_none hnone⟩
  | setFixed => cases h

/-- **A list of actions fails at one of them**, on the price that those before it have made. -/
theorem exists_apply_eq_error_of_applyAll {actions : List Action} {price : Decimal}
    {m : Miscalculation} (h : applyAll actions price = .error m) :
    ∃ a ∈ actions, ∃ running, a.apply running = .error m := by
  induction actions generalizing price with
  | nil => cases h
  | cons a rest ih =>
    have hsteps : (a.apply price >>= fun running => applyAll rest running) = .error m := h
    cases hfirst : a.apply price with
    | error m' =>
      rw [hfirst] at hsteps
      cases hsteps
      exact ⟨a, List.mem_cons_self, price, hfirst⟩
    | ok running =>
      rw [hfirst] at hsteps
      obtain ⟨a', ha', running', herror⟩ := ih hsteps
      exact ⟨a', List.mem_cons_of_mem _ ha', running', herror⟩

end Action

/-! ## Rules

A rule is its conditions and its actions, and it is valid if all of them are. -/

/-- **The drafts that may be stored.** -/
theorem Draft.validate_eq_ok_iff {d : Draft} :
    d.validate = .ok () ↔ Text.isBlank d.name = false ∧ d.actions.isEmpty = false
      ∧ (∀ c ∈ d.conditions, c.Suits) ∧ (∀ a ∈ d.actions, a.validate = .ok ())
      ∧ d.validateWindow = .ok () := by
  unfold validate
  cases hname : Text.isBlank d.name with
  | true => exact iff_of_false (throw_bind_ne_ok _ _ _) nofun
  | false =>
    cases hactions : d.actions.isEmpty with
    | true => exact iff_of_false (throw_bind_ne_ok _ _ _) nofun
    | false =>
      simp only [Bool.false_eq_true, if_false, bind_check_eq_ok_iff, forM_eq_ok_iff,
        Condition.validate_eq_ok_iff, true_and]

namespace Rule

/-- **A rule that may be stored**, as it was written. A rule is as valid as its draft. -/
def IsValid (rule : Rule) : Prop := rule.toDraft.validate = .ok ()

variable {rule : Rule}

/-- **The order of the conditions of a valid rule does not matter.** -/
theorem IsValid.appliesTo_eq_of_perm (h : rule.IsValid) {conditions : List Condition}
    (hperm : conditions.Perm rule.conditions) (op : Operation) (r : Request) :
    { rule with conditions }.appliesTo op r = rule.appliesTo op r := by
  have hsuits : ∀ c ∈ rule.conditions, c.Suits := (Draft.validate_eq_ok_iff.1 h).2.2.1
  unfold appliesTo
  dsimp only
  rw [Condition.allHold_eq_of_perm hsuits hperm]

/-- **Whether a valid rule applies has an answer.** -/
theorem IsValid.exists_appliesTo (h : rule.IsValid) (op : Operation) (r : Request) :
    ∃ b, rule.appliesTo op r = .ok b := by
  have hsuits : ∀ c ∈ rule.conditions, c.Suits := (Draft.validate_eq_ok_iff.1 h).2.2.1
  have hok : ∀ {c : Prop} [Decidable c] {x : Except Problem Bool}, (∃ b, x = .ok b) →
      ∃ b, (if c then .ok false else x) = .ok b := by
    intro c _ x hx
    split
    · exact ⟨false, rfl⟩
    · exact hx
  -- The limits to operations and outlets are looked at before the conditions.
  exact hok (hok ⟨_, Condition.allHold_eq_ok hsuits _⟩)

/-- **The actions of a valid rule make a price, or one of them overflows**, at the price that it is
then applied to. -/
theorem IsValid.applyAll_cases (h : rule.IsValid) (price : Decimal) :
    (∃ d, Action.applyAll rule.actions price = .ok d)
      ∨ ∃ a ∈ rule.actions, ∃ running, a.Overflows running
        ∧ Action.applyAll rule.actions price = .error (.action a.kind a.value running) := by
  obtain ⟨-, -, -, hactions, -⟩ := Draft.validate_eq_ok_iff.1 h
  cases hresult : Action.applyAll rule.actions price with
  | ok d => exact .inl ⟨d, rfl⟩
  | error m =>
    obtain ⟨a, ha, running, herror⟩ := Action.exists_apply_eq_error_of_applyAll hresult
    obtain ⟨rfl, hoverflows⟩ := Action.overflows_of_apply_eq_error (hactions a ha) herror
    exact .inr ⟨a, ha, running, hoverflows, rfl⟩

end Rule

/-! ## Failed rules

What is said of a rule is said of each entry of the list of rules that have failed. -/

/-- **A rule among these has failed since one of its actions overflows**, and this is what is
told of it. -/
def FailedRule.IsOverflow (f : FailedRule) (rules : List Rule) : Prop :=
  ∃ rule ∈ rules, f.ruleId = rule.id ∧ f.ruleName = rule.name
    ∧ ∃ a ∈ rule.actions, ∃ running, a.Overflows running
      ∧ f.cause = .calculation (.action a.kind a.value running)

namespace Trace

/-- **A valid rule is left out of a price only where it overflows.** It could also fail where it
cannot be told whether it applies, but of a valid rule that is always told. -/
theorem overflows_of_outcome_eq_error {rule : Rule} (h : rule.IsValid) {op : Operation}
    {r : Request} {price : Decimal} {e : Error} (he : outcome rule op r price = .error e) :
    ∃ a ∈ rule.actions, ∃ running, a.Overflows running
      ∧ e = .calculation (.action a.kind a.value running) := by
  obtain ⟨b, happlies⟩ := h.exists_appliesTo op r
  unfold outcome at he
  rw [happlies] at he
  cases b with
  | false => cases he
  | true =>
    dsimp only at he
    obtain ⟨d, hok⟩ | ⟨a, ha, running, hoverflows, herror⟩ := h.applyAll_cases price
    · rw [hok] at he
      cases he
    · rw [herror] at he
      cases he
      exact ⟨a, ha, running, hoverflows, rfl⟩

/-- One more valid rule fails only where it overflows. -/
theorem isOverflow_of_mem_failed_extend {rules : List Rule} {rule : Rule} (hmem : rule ∈ rules)
    (h : rule.IsValid) {op : Operation} {r : Request} {t : Trace}
    (ht : ∀ f ∈ t.failed, f.IsOverflow rules) :
    ∀ f ∈ (extend op r t rule).failed, f.IsOverflow rules := by
  cases houtcome : outcome rule op r t.adjustedPrice with
  | error e =>
    rw [extend_of_error houtcome]
    intro f hf
    rcases List.mem_append.1 hf with hold | hnew
    · exact ht f hold
    · rw [List.mem_singleton.1 hnew]
      exact ⟨rule, hmem, rfl, rfl, overflows_of_outcome_eq_error h houtcome⟩
  | ok result =>
    cases result with
    | none => rwa [extend_of_none houtcome]
    | some after => rwa [extend_of_some houtcome]

/-- **Of valid rules all that fail overflow**, by induction over the rules. -/
theorem isOverflow_of_mem_failed_evaluate {rules : List Rule} (h : ∀ rule ∈ rules, rule.IsValid)
    (price : Decimal) (op : Operation) (r : Request) (filter : RuleFilter) :
    ∀ f ∈ (evaluate rules price op r filter).failed, f.IsOverflow rules := by
  have hordered : ∀ rule ∈ Rule.inOrder (rules.filter fun rule => filter.admits rule.ruleType),
      rule ∈ rules := fun rule hrule =>
    List.mem_of_mem_filter (Rule.mem_inOrder.1 hrule)
  unfold evaluate
  rw [clamp_failed]
  refine List.foldlRecOn (motive := fun t : Trace => ∀ f ∈ t.failed, f.IsOverflow rules) _ _
    (fun f hf => absurd hf List.not_mem_nil) (fun t ht rule hrule => ?_)
  exact isOverflow_of_mem_failed_extend (hordered rule hrule) (h rule (hordered rule hrule)) ht

end Trace

end Tariff
