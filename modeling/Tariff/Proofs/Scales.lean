import Mathlib.Data.List.Forall2
import Tariff.Proofs.Actions

/-!
# Trailing zeros do not matter

A decimal keeps its trailing zeros: 100 and 100.00 are the same number and differ in
their scales. Every operation looks at the scales of its operands, to align them, to
choose the scale of its result and to see whether it fits. Of two evaluations that are
the same but for trailing zeros nothing else may differ than trailing zeros: **the same
rules are carried out, the same rules fail, and all prices are the same numbers**.

Each kind of data has its relation of being the same in this sense: operands, conditions,
actions, rules, requests, and traces. Computations on such data agree (`Agree`) if they
all fail or answer with data that is the same again, and this goes through what they are
put together from. The messages of failures have scales in them and are not compared.

For the arithmetic nothing is to be done about scales here. What an operation answers is
settled by the exact result (`Decimal.Answers.rel`), and that is a matter of the numbers.
-/

namespace Tariff

/-! ## Computations that agree

Two evaluations are compared step by step. Where one of them fails the other one has to fail as
well, but it may say so in other words. -/

/-- **Two computations agree** if both fail, or both have answers and these are related. What they
fail with may differ. -/
inductive Agree {ε α : Type} (R : α → α → Prop) : Except ε α → Except ε α → Prop
  | ok {a b : α} (h : R a b) : Agree R (.ok a) (.ok b)
  | error (e e' : ε) : Agree R (.error e) (.error e')

namespace Agree

variable {ε α β : Type} {R : α → α → Prop} {S : β → β → Prop} {x y : Except ε α}

/-- It is enough that they agree once their errors are forgotten. -/
theorem of_toOption (h : Option.Rel R x.toOption y.toOption) : Agree R x y := by
  cases x with
  | error e =>
    cases y with
    | error e' => exact .error e e'
    | ok b => cases h
  | ok a =>
    cases y with
    | error e' => cases h
    | ok b =>
      cases h with
      | some hab => exact .ok hab

/-- What is put together from computations that agree agrees. This is what takes the relation
through everything that is written with `do`. -/
theorem bind {f g : α → Except ε β} (h : Agree R x y) (hfg : ∀ a b, R a b → Agree S (f a) (g b)) :
    Agree S (x >>= f) (y >>= g) := by
  cases h with
  | ok hab => exact hfg _ _ hab
  | error e e' => exact .error e e'

/-- A choice between an answer and computations that agree agrees. -/
theorem ite {c : Prop} [Decidable c] {a b : α} (hab : R a b) (h : Agree R x y) :
    Agree R (if c then .ok a else x) (if c then .ok b else y) := by
  split
  · exact .ok hab
  · exact h

end Agree

/-- **Sorting keeps lists alike** whose elements are ordered in the same way. The code sorts the
rules before it applies them, and so do both of two evaluations. -/
theorem forall₂_mergeSort {α : Type} {R : α → α → Prop} {le : α → α → Bool} {l l' : List α}
    (hle : ∀ a a' b b', R a a' → R b b' → le a b = le a' b') (h : List.Forall₂ R l l') :
    List.Forall₂ R (l.mergeSort le) (l'.mergeSort le) := by
  -- The pairs are sorted, and the two lists are their sides.
  obtain ⟨hlength, hpairs⟩ := List.forall₂_iff_zip.1 h
  have hleft : ((l.zip l').mergeSort fun p q => le p.1 q.1).map Prod.fst = l.mergeSort le := by
    rw [List.map_mergeSort (s := le) (f := Prod.fst) fun p _ q _ => rfl,
      List.map_fst_zip hlength.le]
  have hright : ((l.zip l').mergeSort fun p q => le p.1 q.1).map Prod.snd = l'.mergeSort le := by
    rw [List.map_mergeSort (s := le) (f := Prod.snd) fun p hp q hq =>
      hle _ _ _ _ (hpairs hp) (hpairs hq), List.map_snd_zip hlength.ge]
  rw [← hleft, ← hright, List.forall₂_map_left_iff, List.forall₂_map_right_iff, List.forall₂_same]
  exact fun p hp => hpairs (List.mem_mergeSort.1 hp)

/-! ## Data that is the same

For each kind of data the relation says which numbers in it are compared as numbers, and that the
rest is equal. They are equivalences, but only what is needed of that is proved. -/

/-- **Operands are the same** if their numbers are, and the rest of them is equal. A text is no
number here, even where it looks like one: its trailing zeros are letters, and stay. -/
inductive Operand.Same : Operand → Operand → Prop
  | number {a b : Decimal} (h : a.SameNumber b) : Same (.number a) (.number b)
  | text (s : String) : Same (.text s) (.text s)
  | list {items items' : List Operand} (h : List.Forall₂ Same items items') :
    Same (.list items) (.list items')

/-- **Conditions are the same** if their operands are. -/
structure Condition.Same (c c' : Condition) : Prop where
  field : c.field = c'.field
  comparison : c.comparison = c'.comparison
  operand : c.operand.Same c'.operand

/-- **Actions are the same** if their values are the same number. -/
structure Action.Same (a a' : Action) : Prop where
  kind : a.kind = a'.kind
  value : a.value.SameNumber a'.value

/-- **Rules are the same** if they have the same conditions and actions, and differ in nothing else.
In particular they have the same priority and age, and so the same turn. -/
structure Rule.Same (rule rule' : Rule) : Prop where
  conditions : List.Forall₂ Condition.Same rule.conditions rule'.conditions
  actions : List.Forall₂ Action.Same rule.actions rule'.actions
  others : rule' = { rule with conditions := rule'.conditions, actions := rule'.actions }

/-- **Requests are the same** if the capacities of their cylinders are the same number, and they
differ in nothing else. -/
structure Request.Same (r r' : Request) : Prop where
  cylinderSize : Option.Rel Decimal.SameNumber r.cylinderSize r'.cylinderSize
  others : r' = { r with cylinderSize := r'.cylinderSize }

/-- **Steps are the same** if they are of the same rule, from and to the same number. -/
structure Step.Same (s s' : Step) : Prop where
  number : s.number = s'.number
  ruleId : s.ruleId = s'.ruleId
  ruleName : s.ruleName = s'.ruleName
  ruleType : s.ruleType = s'.ruleType
  before : s.before.SameNumber s'.before
  after : s.after.SameNumber s'.after

/-- **Failures are the same** if they are of the same rule. -/
structure FailedRule.Same (f f' : FailedRule) : Prop where
  ruleId : f.ruleId = f'.ruleId
  ruleName : f.ruleName = f'.ruleName

/-- **Traces are the same** if they have the same prices, steps and failures, one by one. The
failures are of the same rules for what may be different reasons, as a message may have a
scale in it. -/
structure Trace.Same (t t' : Trace) : Prop where
  basePrice : t.basePrice.SameNumber t'.basePrice
  adjustedPrice : t.adjustedPrice.SameNumber t'.adjustedPrice
  steps : List.Forall₂ Step.Same t.steps t'.steps
  failed : List.Forall₂ FailedRule.Same t.failed t'.failed
  clamped : t.clamped = t'.clamped

/-! ## Conditions

A condition gets numbers from the request, from its own operand and from texts. Whatever it makes of
these it makes of their values. -/

namespace Operand

variable {o o' actual actual' : Operand}

/-- The lemmas that follow go through what conditions are computed from, one function each. Whether
an operand is a list does not depend on scales. -/
theorem Same.isList (h : o.Same o') : o.isList = o'.isList := by
  cases h <;> rfl

/-- Nor does whether it is a number, and which. -/
theorem Same.decimal? (h : o.Same o') :
    Option.Rel Decimal.SameNumber o.decimal? o'.decimal? := by
  cases h with
  | number h => exact .some h
  | list => exact .none
  | text s =>
    show Option.Rel _ (Decimal.parse? (Text.trimBlanks s)) (Decimal.parse? (Text.trimBlanks s))
    cases Decimal.parse? (Text.trimBlanks s) with
    | none => exact .none
    | some d => exact .some rfl

/-- So two numbers are found equal, or not, as the two others are. -/
theorem Same.sameNumber (h : o.Same o') (hactual : actual.Same actual') :
    actual.sameNumber o = actual'.sameNumber o' := by
  have hleft := hactual.decimal?
  have hright := h.decimal?
  unfold Operand.sameNumber
  generalize actual.decimal? = x, actual'.decimal? = x' at hleft
  generalize o.decimal? = y, o'.decimal? = y' at hright
  cases hleft with
  | none => rfl
  | some hx =>
    cases hright with
    | none => rfl
    | some hy =>
      rw [Decimal.sameNumber_iff] at hx hy
      simp only [Decimal.sameNumber_iff, hx, hy]

/-- **Operands that are the same are equal to the same operands.** The comparison is a loose one, in
which a text may be equal to a number. -/
theorem Same.looselyEqual (h : o.Same o') (hactual : actual.Same actual') :
    actual.looselyEqual o = actual'.looselyEqual o' := by
  have hnumbers := h.sameNumber hactual
  -- Only two texts are compared in another way.
  cases hactual with
  | number _ => exact hnumbers
  | list _ => exact hnumbers
  | text s =>
    cases h with
    | text s' => rfl
    | number _ => exact hnumbers
    | list _ => exact hnumbers

/-- And so some item of a list is, where some item of the other list is. -/
theorem any_looselyEqual {items items' : List Operand} (h : List.Forall₂ Same items items')
    (hactual : actual.Same actual') :
    items.any actual.looselyEqual = items'.any actual'.looselyEqual := by
  induction h with
  | nil => rfl
  | cons h _ ih => rw [List.any_cons, List.any_cons, h.looselyEqual hactual, ih]

end Operand

/-- **A request has the same operand in each field.** Only the capacity of the cylinder is a number
that may have another scale. -/
theorem Request.Same.operand? {r r' : Request} (h : r.Same r') (f : Field) :
    Option.Rel Operand.Same (r.operand? f) (r'.operand? f) := by
  have hrefl : ∀ o : Option Operand, (∀ a ∈ o, a.Same a) → Option.Rel Operand.Same o o := by
    intro o ho
    cases o with
    | none => exact .none
    | some a => exact .some (ho a rfl)
  have hsize := h.cylinderSize
  rw [h.others]
  cases f with
  | cylinderSize =>
    unfold Request.operand?
    dsimp only
    generalize r.cylinderSize = size, r'.cylinderSize = size' at hsize
    cases hsize with
    | none => exact .none
    | some hd => exact .some (.number hd)
  | outletId | quantity =>
    refine hrefl _ fun a ha => ?_
    obtain ⟨n, -, rfl⟩ := Option.map_eq_some_iff.1 ha
    exact .number rfl
  | cylinderType | customerTier | operationType =>
    refine hrefl _ fun a ha => ?_
    obtain ⟨s, -, rfl⟩ := Option.map_eq_some_iff.1 ha
    exact .text _

theorem Request.Same.withOperation {r r' : Request} (h : r.Same r') (op : Operation) :
    (r.withOperation op).Same (r'.withOperation op) where
  cylinderSize := h.cylinderSize
  others := by
    rw [h.others]
    rfl

namespace Condition

variable {c c' : Condition} {actual actual' : Operand} {r r' : Request}

/-- A condition that compares with one operand has one, or fails for having a list. -/
theorem Same.single (h : c.Same c') : Agree Operand.Same c.single c'.single := by
  unfold Condition.single
  rw [h.operand.isList]
  split
  · exact .error _ _
  · exact .ok h.operand

/-- One that compares with a list has a list, of the same items, or fails. -/
theorem Same.items (h : c.Same c') : Agree (List.Forall₂ Operand.Same) c.items c'.items := by
  have hoperand := h.operand
  unfold Condition.items
  generalize c.operand = o, c'.operand = o' at hoperand
  cases hoperand with
  | number _ => exact .error _ _
  | text s => exact .error _ _
  | list hitems => exact .ok hitems

/-- An ordering has a number on either side, or fails. -/
theorem Same.sides (h : c.Same c') (hactual : actual.Same actual') :
    Agree (fun p q => p.1.SameNumber q.1 ∧ p.2.SameNumber q.2)
      (c.sides actual) (c'.sides actual') := by
  have hleft := hactual.decimal?
  have hsingle := h.single
  unfold Condition.sides
  generalize actual.decimal? = x, actual'.decimal? = x' at hleft
  cases hleft with
  | none => exact .error _ _
  | some hx =>
    refine hsingle.bind fun o o' ho => ?_
    have hright := ho.decimal?
    generalize o.decimal? = y, o'.decimal? = y' at hright
    cases hright with
    | none => exact .error _ _
    | some hy => exact .ok ⟨hx, hy⟩

/-- **Conditions that are the same are true or false of the same values.** One case for each
comparison; of a computation with numbers only the numbers matter. -/
theorem Same.test (h : c.Same c') (hactual : actual.Same actual') :
    Agree Eq (c.test actual) (c'.test actual') := by
  have hsides := h.sides hactual
  unfold Condition.test
  rw [← h.comparison]
  cases c.comparison with
  | eq => exact h.single.bind fun o o' ho => .ok (ho.looselyEqual hactual)
  | ne => exact h.single.bind fun o o' ho => .ok (congrArg (! ·) (ho.looselyEqual hactual))
  | gt | gte | lt | lte =>
    refine hsides.bind fun p q hpq => .ok ?_
    obtain ⟨hx, hy⟩ := hpq
    rw [Decimal.sameNumber_iff] at hx hy
    simp only [Decimal.lt_iff, Decimal.le_iff, hx, hy]
  | isIn => exact h.items.bind fun l l' hl => .ok (Operand.any_looselyEqual hl hactual)
  | notIn =>
    exact h.items.bind fun l l' hl => .ok (congrArg (! ·) (Operand.any_looselyEqual hl hactual))

/-- So they hold of the same requests, or fail on them. -/
theorem Same.evaluate (h : c.Same c') (hr : r.Same r') :
    Agree Eq (c.evaluate r) (c'.evaluate r') := by
  have hactual := hr.operand? c.field
  unfold Condition.evaluate
  rw [← h.field]
  generalize r.operand? c.field = x, r'.operand? c.field = x' at hactual
  cases hactual with
  | none => exact .ok rfl
  | some hactual => exact h.test hactual

/-- **Conditions that are the same hold of the same requests.** By induction on the lists: where one
of them fails or does not hold, neither list is looked at any further. -/
theorem agree_allHold {conditions conditions' : List Condition}
    (h : List.Forall₂ Same conditions conditions') (hr : r.Same r') :
    Agree Eq (allHold r conditions) (allHold r' conditions') := by
  induction h with
  | nil => exact .ok rfl
  | cons hc _ ih =>
    refine (hc.evaluate hr).bind fun b b' hb => ?_
    subst hb
    cases b with
    | false => exact .ok rfl
    | true => exact ih

end Condition

/-! ## Actions

An action answers the rounding of its exact result, and this is a number without a scale. So nothing
has to be known of how it rounds. -/

namespace Action

variable {a a' : Action} {price price' : Decimal}

/-- Actions that are the same have the same exact result, as a function of the price. -/
theorem Same.exact (h : a.Same a') (x : ℚ) : a.exact x = a'.exact x := by
  obtain ⟨kind, value⟩ := a
  obtain ⟨kind', value'⟩ := a'
  obtain rfl : kind = kind' := h.kind
  have hvalue : value.value = value'.value := Decimal.sameNumber_iff.1 h.value
  unfold Action.exact
  dsimp only
  rw [hvalue, share_eq_of_value_eq hvalue, share_eq_of_value_eq hvalue]

/-- They divide by zero together. -/
theorem Same.dividesByZero (h : a.Same a') : a.dividesByZero = a'.dividesByZero := by
  unfold Action.dividesByZero
  rw [h.kind, Decimal.isZero_eq (Decimal.sameNumber_iff.1 h.value)]

/-- **Actions that are the same make the same number of the same number**, or both fail. The exact
results are equal, so the answers are the same number (`Decimal.Answers.rel`). The scales of the
operands decide only which of its decimals the code comes to. -/
theorem Same.apply (h : a.Same a') (hprice : price.SameNumber price') :
    Agree Decimal.SameNumber (a.apply price) (a'.apply price') := by
  cases hzero : a.dividesByZero with
  | true =>
    rw [apply_of_dividesByZero hzero, apply_of_dividesByZero (h.dividesByZero ▸ hzero)]
    exact .error _ _
  | false =>
    have hanswers := answers_apply hzero price
    have hanswers' := answers_apply (h.dividesByZero ▸ hzero) price'
    rw [← h.exact, ← Decimal.sameNumber_iff.1 hprice] at hanswers'
    have hrel := hanswers.rel hanswers'
    simp only [← Decimal.sameNumber_iff] at hrel
    exact .of_toOption hrel

/-- So do all of a list. -/
theorem agree_applyAll {actions actions' : List Action} (h : List.Forall₂ Same actions actions')
    (hprice : price.SameNumber price') :
    Agree Decimal.SameNumber (applyAll actions price) (applyAll actions' price') := by
  induction h generalizing price price' with
  | nil => exact .ok hprice
  | cons ha _ ih => exact (ha.apply hprice).bind fun d d' hd => ih hd

end Action

/-! ## Rules

The order of the rules has no number in it, so both evaluations go through the same rules in the
same order. -/

namespace Rule.Same

variable {rule rule' a a' b b' : Rule}

/-- What is not a condition or an action is equal. -/
theorem id_eq (h : rule.Same rule') : rule.id = rule'.id := by
  rw [h.others]

theorem name_eq (h : rule.Same rule') : rule.name = rule'.name := by
  rw [h.others]

theorem ruleType_eq (h : rule.Same rule') : rule.ruleType = rule'.ruleType := by
  rw [h.others]

/-- **Rules that are the same are applied in the same order.** -/
theorem order_eq (ha : a.Same a') (hb : b.Same b') : a.order b = a'.order b' := by
  rw [ha.others, hb.others]
  rfl

/-- **Rules that are the same apply to the same requests.** -/
theorem appliesTo {r r' : Request} (h : rule.Same rule') (hr : r.Same r') (op : Operation) :
    Agree Eq (rule.appliesTo op r) (rule'.appliesTo op r') := by
  have hconditions := Condition.agree_allHold h.conditions (hr.withOperation op)
  have hrule : rule'.operationTypes = rule.operationTypes ∧ rule'.outletIds = rule.outletIds := by
    rw [h.others]
    exact ⟨rfl, rfl⟩
  have hrequest : r'.outletId = r.outletId := by rw [hr.others]
  unfold Rule.appliesTo
  rw [hrule.1, hrule.2, hrequest]
  exact .ite rfl (.ite rfl hconditions)

end Rule.Same

namespace Trace

variable {rule rule' : Rule} {r r' : Request} {t t' : Trace} (op : Operation)

/-- **Rules that are the same make the same of the same number**: they both apply, or not, or fail,
and where they apply the price afterwards is the same number. -/
theorem agree_outcome {price price' : Decimal} (h : rule.Same rule') (hr : r.Same r')
    (hprice : price.SameNumber price') :
    Agree (Option.Rel Decimal.SameNumber) (outcome rule op r price)
      (outcome rule' op r' price') := by
  have happlies := h.appliesTo hr op
  have hprices := Action.agree_applyAll h.actions hprice
  unfold outcome
  generalize rule.appliesTo op r = x, rule'.appliesTo op r' = x' at happlies
  generalize Action.applyAll rule.actions price = y,
    Action.applyAll rule'.actions price' = y' at hprices
  cases happlies with
  | error p p' => exact .error _ _
  | @ok b b' hb =>
    subst hb
    cases b with
    | false => exact .ok .none
    | true =>
      cases hprices with
      | error m m' => exact .error _ _
      | ok hd => exact .ok (.some hd)

/-- **One more rule leaves traces the same.** The step or the failure is added to both, under the
same number. -/
theorem Same.extend (ht : t.Same t') (h : rule.Same rule') (hr : r.Same r') :
    (extend op r t rule).Same (extend op r' t' rule') := by
  have houtcome := agree_outcome op h hr ht.adjustedPrice
  generalize hx : outcome rule op r t.adjustedPrice = x,
    hx' : outcome rule' op r' t'.adjustedPrice = x' at houtcome
  cases houtcome with
  | error e e' =>
    rw [extend_of_error hx, extend_of_error hx']
    exact { ht with failed := List.rel_append ht.failed (.cons ⟨h.id_eq, h.name_eq⟩ .nil) }
  | ok hresult =>
    cases hresult with
    | none =>
      rw [extend_of_none hx, extend_of_none hx']
      exact ht
    | some hafter =>
      rw [extend_of_some hx, extend_of_some hx']
      have hnumber : t.steps.length + 1 = t'.steps.length + 1 := by rw [ht.steps.length_eq]
      exact { ht with
        adjustedPrice := hafter
        steps := List.rel_append ht.steps
          (.cons ⟨hnumber, h.id_eq, h.name_eq, h.ruleType_eq, ht.adjustedPrice, hafter⟩ .nil) }

/-- A price below zero is one in both, so both are clamped. -/
theorem Same.clamp (ht : t.Same t') : t.clamp.Same t'.clamp := by
  unfold Trace.clamp
  rw [Decimal.isNegative_eq (Decimal.sameNumber_iff.1 ht.adjustedPrice)]
  split
  · exact { ht with adjustedPrice := rfl, clamped := rfl }
  · exact ht

/-- **Trailing zeros do not change what rules make of a price.** Evaluations that are the same but
for the scales of their numbers carry out the same rules, fail at the same rules, and have the same
number for a price at every step and at the end. By induction over the rules in their order, with
traces that are the same before each of them. -/
theorem same_evaluate {rules rules' : List Rule} {price price' : Decimal} {r r' : Request}
    (hrules : List.Forall₂ Rule.Same rules rules') (hprice : price.SameNumber price')
    (hr : r.Same r') (filter : RuleFilter) :
    (evaluate rules price op r filter).Same (evaluate rules' price' op r' filter) := by
  have hadmitted := List.rel_filter (R := Rule.Same)
    (p := fun rule => filter.admits rule.ruleType) (q := fun rule => filter.admits rule.ruleType)
    (fun a b hab => by show _ = true ↔ _ = true; rw [hab.ruleType_eq]) hrules
  have hordered : List.Forall₂ Rule.Same (Rule.inOrder _) (Rule.inOrder _) :=
    forall₂_mergeSort (fun a a' b b' ha hb => by rw [ha.order_eq hb]) hadmitted
  have hstart : (start price).Same (start price') := ⟨hprice, hprice, .nil, .nil, rfl⟩
  have hfold := List.rel_foldl (P := Same) (R := Rule.Same)
    (fun t t' ht a b hab => ht.extend op hab hr) hstart hordered
  exact hfold.clamp

/-- Ten percent off and five on, for cylinders of 12.5 kilograms, and a division by zero that
fails. With other scales throughout, the price of 95 has other trailing zeros. -/
theorem same_evaluate_ninety_five : ∃ rule rule' division division' price price' r r',
    price = (⟨false, 100, 0, by decide, by decide⟩ : Decimal)
    ∧ price' = (⟨false, 10000, 2, by decide, by decide⟩ : Decimal)
    ∧ r = { cylinderSize := some ⟨false, 1250, 2, by decide, by decide⟩ }
    ∧ r' = { cylinderSize := some ⟨false, 125, 1, by decide, by decide⟩ }
    ∧ rule = Rule.ofDraft {
      name := "small"
      ruleType := .promotion
      conditions := [⟨.cylinderSize, .isIn,
        .list [.text "none", .number ⟨false, 125, 1, by decide, by decide⟩]⟩]
      actions := [⟨.percentageDiscount, ⟨false, 10, 0, by decide, by decide⟩⟩,
        ⟨.add, ⟨false, 5, 0, by decide, by decide⟩⟩] } ⟨1, by decide⟩ "ann" ⟨1⟩
    ∧ rule' = { rule with
      conditions := [⟨.cylinderSize, .isIn,
        .list [.text "none", .number ⟨false, 1250, 2, by decide, by decide⟩]⟩]
      actions := [⟨.percentageDiscount, ⟨false, 1000, 2, by decide, by decide⟩⟩,
        ⟨.add, ⟨false, 50, 1, by decide, by decide⟩⟩] }
    ∧ division = Rule.ofDraft {
      name := "division"
      ruleType := .surcharge
      actions := [⟨.divide, .zero⟩] } ⟨2, by decide⟩ "ann" ⟨1⟩
    ∧ division' = { division with actions := [⟨.divide, ⟨false, 0, 2, by decide, by decide⟩⟩] }
    ∧ List.Forall₂ Rule.Same [rule, division] [rule', division'] ∧ price.SameNumber price'
    ∧ r.Same r'
    ∧ (evaluate [rule, division] price .refill r .all).Same
      (evaluate [rule', division'] price' .refill r' .all)
    ∧ (evaluate [rule, division] price .refill r .all).adjustedPrice
      = ⟨false, 9500, 2, by decide, by decide⟩
    ∧ (evaluate [rule', division'] price' .refill r' .all).adjustedPrice
      = ⟨false, 950000, 4, by decide, by decide⟩
    ∧ (evaluate [rule', division'] price' .refill r' .all).failed.map (·.ruleId)
      = [division.id] := by
  refine ⟨_, _, _, _, _, _, _, _, rfl, rfl, rfl, rfl, rfl, rfl, rfl, rfl, ?_⟩
  have hsize : ∀ {d d' : Decimal}, d.SameNumber d' →
      Operand.Same (.list [.text "none", .number d]) (.list [.text "none", .number d']) :=
    fun h => .list (.cons (.text _) (.cons (.number h) .nil))
  refine ⟨?rules, by decide, ?request, same_evaluate .refill ?rules (by decide) ?request .all,
    ?_, ?_, ?_⟩
  case request => exact ⟨.some (by decide), rfl⟩
  case rules =>
    refine .cons ⟨.cons ⟨rfl, rfl, hsize (by decide)⟩ .nil, ?_, rfl⟩
      (.cons ⟨.nil, .cons ⟨rfl, by decide⟩ .nil, rfl⟩ .nil)
    exact .cons ⟨rfl, by decide⟩ (.cons ⟨rfl, by decide⟩ .nil)
  -- The rules are in order as they are given, and nothing has to be sorted.
  all_goals
    rw [evaluate_of_pairwise]
    · decide +kernel
    · decide

end Trace

end Tariff
