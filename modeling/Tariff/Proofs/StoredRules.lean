import Tariff.Proofs.Amounts
import Tariff.Proofs.Table
import Tariff.Proofs.Validation

/-!
# Stored rules are valid

Every rule that is stored has been checked as it was written. There are three ways
for a rule to come into the store, a creation, a revision, and a seed, and a seed
creates or revises; so this is an invariant of steps (`Engine.Step.rulesValid`).

What validation promises is therefore true of all that prices meet. A quote and the
price of an order say which rules have failed, and each of these has made a price
beyond the largest decimal.
-/

namespace Tariff

/-! ## The invariant -/

/-- What was written of a new rule is its draft. -/
theorem Rule.toDraft_ofDraft (d : Draft) (id : Uuid) (actor : String) (t : Instant) :
    (Rule.ofDraft d id actor t).toDraft = d := rfl

theorem Rule.toDraft_revise (rule : Rule) (d : Draft) (actor : String) (t : Instant) :
    (rule.revise d actor t).toDraft = d := rfl

namespace Engine

/-- **All stored rules are valid.** -/
def RulesValid (e : Engine) : Prop := ∀ rule ∈ e.store.rules.values, rule.IsValid

/-- A valid rule can be stored among valid ones, new or in the place of another. -/
theorem RulesValid.withRule {e : Engine} (he : e.RulesValid) {new : Rule} (hnew : new.IsValid)
    (old : Option Rule) (author : Author) (o : Occasion) :
    (e.withRule old new author o).RulesValid := by
  intro rule hrule
  rcases e.store.rules.eq_or_mem_values_of_insert hrule with rfl | hold
  · exact hnew
  · exact he rule hold

/-- **Every step keeps the stored rules valid.** Only the two that write a rule are of interest, and
both check it first. -/
theorem Step.rulesValid {e e' : Engine} {ids : List Uuid} {ts : List Instant}
    (h : Step e ids ts e') (he : e.RulesValid) : e'.RulesValid := by
  cases h with
  | setSetting h =>
    obtain ⟨-, -, rfl⟩ := setSetting_eq_ok_iff.1 h
    exact he
  | deleteSetting h =>
    obtain ⟨old, -, -, -, rfl⟩ := deleteSetting_eq_ok_iff.1 h
    exact he
  | createCategory h =>
    obtain ⟨-, -, -, rfl⟩ := createCategory_eq_ok_iff.1 h
    exact he
  | @createRule draft author o new e' h =>
    obtain ⟨hvalid, -, -, rfl, rfl⟩ := createRule_eq_ok_iff.1 h
    refine he.withRule ?_ _ _ _
    unfold Rule.IsValid
    rwa [Rule.toDraft_ofDraft]
  | @updateRule id draft author o new e' h =>
    obtain ⟨hvalid, old, -, -, -, rfl, rfl⟩ := updateRule_eq_ok_iff.1 h
    refine he.withRule ?_ _ _ _
    unfold Rule.IsValid
    rwa [Rule.toDraft_revise]
  | deleteRule h =>
    obtain ⟨old, -, -, -, rfl⟩ := deleteRule_eq_ok_iff.1 h
    exact fun rule hrule => he rule (e.store.rules.mem_values_of_erase hrule)
  | clearCache => exact he
  | lookUp key r t => exact he

/-- The stored rules of all runs of new engines are valid. -/
theorem rulesValid_run {config : EngineConfig} {e : Engine} (h : Engine.create config = .ok e)
    (calls : List Call) : (e.run calls).RulesValid := by
  obtain ⟨-, rfl⟩ := create_eq_ok_iff.1 h
  exact run_keeps Step.rulesValid calls (fun rule hrule => absurd hrule List.not_mem_nil)

end Engine

/-! ## What quotes and orders say of rules

The traces in quotes and orders are made from rules in force, and these are stored. So what is true
of stored rules is true of all that such a trace names. -/

/-- Nothing is said of what a computation ends in. -/
theorem Pricing.Ends.trivial {α : Type} (m : Pricing α) :
    m.Ends (fun _ => True) (fun _ => True) := by
  intro c
  split <;> exact True.intro

namespace View

variable {v : View} {P : Trace → Prop}

/-- **What is true of everything that the rules in force make of a price** is true of the trace in a
quote, and of the one in an order. -/
theorem ends_quote_trace (h : ∀ price op r filter, P (v.applyRules price op r filter))
    (usual : TaxMode) (op : Operation) (r : Request) :
    (v.quote usual op r).Ends (fun q => P q.trace) (fun _ => True) := by
  refine (Pricing.Ends.trivial _).bind (fun base _ => ?_)
  refine (Pricing.Ends.trivial _).bind (fun rate _ => ?_)
  refine (Pricing.Ends.trivial _).bind (fun mode _ => ?_)
  split
  · exact .throw True.intro
  · exact .pure (h _ _ _ _)

/-- In an order this is the trace of the volume discounts. The traces of its lines are not kept. -/
theorem ends_order_trace (h : ∀ price op r filter, P (v.applyRules price op r filter))
    (op : Operation) (lines : List Order.Line) (shared : Request) :
    (v.order op lines shared).Ends (fun o => P o.volumeTrace) (fun _ => True) := by
  cases hvalid : Order.validate lines with
  | error p =>
    rw [order_eq_throw hvalid]
    exact .throw True.intro
  | ok =>
    rw [order_eq_validOrder hvalid]
    refine (Pricing.Ends.trivial _).bind (fun tally _ => ?_)
    exact (Pricing.Ends.trivial _).bind (fun discount _ => .pure (h _ _ _ _))

/-- **Of valid rules in force all that fail overflow.** Only rules in force can fail, and these are
stored ones. -/
theorem isOverflow_of_mem_failed_applyRules (hv : ∀ rule ∈ v.store.rules.values, rule.IsValid)
    (price : Decimal) (op : Operation) (r : Request) (filter : RuleFilter) :
    ∀ f ∈ (v.applyRules price op r filter).failed, f.IsOverflow v.store.rules.values := by
  intro f hf
  obtain ⟨rule, hrule, hfailed⟩ := Trace.isOverflow_of_mem_failed_evaluate
    (fun rule hrule => hv rule (Store.mem_values_of_mem_liveRules hrule)) price op r filter f hf
  exact ⟨rule, Store.mem_values_of_mem_liveRules hrule, hfailed⟩

end View

/-- **Stored rules are safe to apply.** After any run of a new engine, each stored rule applies to a
request or does not, and the order of its conditions makes no difference; and its actions make
another price of any price, or one of them overflows. So every rule that a quote or an order says
has failed is a stored one, an action of which overflows.

The order of conditions could make a difference, as evaluation stops at the first one that does not
hold, and one after it might have failed. Conditions of a stored rule never do. -/
theorem rules_run_safe {config : EngineConfig} {e : Engine} (h : Engine.create config = .ok e)
    (calls : List Call) :
    (∀ rule ∈ (e.run calls).store.rules.values,
        (∀ op r, ∃ b, ∀ conditions : List Condition, conditions.Perm rule.conditions →
          { rule with conditions }.appliesTo op r = .ok b)
        ∧ ∀ price, (∃ d, Action.applyAll rule.actions price = .ok d)
          ∨ ∃ a ∈ rule.actions, ∃ running, a.Overflows running
            ∧ Action.applyAll rule.actions price = .error (.action a.kind a.value running))
      ∧ (∀ op r t quote, ((e.run calls).getQuote op r t).1 = .ok quote →
        ∀ f ∈ quote.trace.failed, f.IsOverflow (e.run calls).store.rules.values)
      ∧ ∀ op lines r t order, ((e.run calls).getOrderPrice op lines r t).1 = .ok order →
        ∀ f ∈ order.volumeTrace.failed, f.IsOverflow (e.run calls).store.rules.values := by
  have hvalid := Engine.rulesValid_run h calls
  have htrace := fun t : Instant =>
    View.isOverflow_of_mem_failed_applyRules (v := (e.run calls).view t) hvalid
  refine ⟨fun rule hrule => ⟨fun op r => ?_, (hvalid rule hrule).applyAll_cases⟩, ?_, ?_⟩
  · obtain ⟨b, hb⟩ := (hvalid rule hrule).exists_appliesTo op r
    exact ⟨b, fun conditions hperm => by rw [(hvalid rule hrule).appliesTo_eq_of_perm hperm, hb]⟩
  · intro op r t quote hquote
    have hends := View.ends_quote_trace (P := fun trace => ∀ f ∈ trace.failed,
      f.IsOverflow (e.run calls).store.rules.values) (htrace t) (e.run calls).config.defaultTaxMode
    exact (hends op r).of_eq_ok (Prod.ext hquote rfl)
  · intro op lines r t order horder
    have hends := View.ends_order_trace (P := fun trace => ∀ f ∈ trace.failed,
      f.IsOverflow (e.run calls).store.rules.values) (htrace t)
    exact (hends op lines r).of_eq_ok (Prod.ext horder rfl)

/-- A refill has the largest price that there is, and a rule makes it ten times as much. The
quote says that the rule has failed, and it overflows. -/
theorem rules_run_safe_multiply :
    Engine.create {} = .ok Engine.initial
      ∧ ∃ e quote, e = Engine.initial.run
          [.setSetting "refill.base_price" (.number ⟨false, 2 ^ 96 - 1, 0, by decide, by decide⟩)
            { author := ⟨"ann", none⟩ } (.number 1),
          .createRule
            { name := "tenfold"
              ruleType := .surcharge
              actions := [⟨.multiply, ⟨false, 10, 0, by decide, by decide⟩⟩] }
            ⟨"ann", none⟩ (.number 2)]
        ∧ (e.getQuote .refill {} ⟨3⟩).1 = .ok quote ∧ quote.trace.failed.length = 1
        ∧ ∀ f ∈ quote.trace.failed, f.IsOverflow e.store.rules.values := by
  have hfailed : (match ((Engine.initial.run
        [.setSetting "refill.base_price" (.number ⟨false, 2 ^ 96 - 1, 0, by decide, by decide⟩)
          { author := ⟨"ann", none⟩ } (.number 1),
        .createRule
          { name := "tenfold"
            ruleType := .surcharge
            actions := [⟨.multiply, ⟨false, 10, 0, by decide, by decide⟩⟩] }
          ⟨"ann", none⟩ (.number 2)]).getQuote .refill {} ⟨3⟩).1 with
      | .ok quote => quote.trace.failed.length
      | .error _ => 0) = 1 := by decide +kernel
  split at hfailed
  · next quote hquote =>
    exact ⟨rfl, _, quote, rfl, hquote, hfailed,
      (rules_run_safe Engine.create_initial _).2.1 .refill {} ⟨3⟩ quote hquote⟩
  · cases hfailed

end Tariff
