import Tariff.Proofs.Actions
import Tariff.Proofs.Orders

/-!
# Rules that lower a price

An action that takes something off a price should never raise it. Of a single action
that is not quite so: once the running price is below zero, a percentage of it or a
division brings it up towards zero again. And each result is rounded, perhaps up.

What holds of every action that lowers (`Action.Lowers`) is that it stays below **whatever
is above both the price and zero** (`Action.Lowers.le_of_apply`). A bound of this kind is
a decimal, so rounding does not cross it, and the next action may be held against the same
bound. So it is carried through any list of actions, through any number of rules, whether
they apply or fail, and through the clamp at the end. For a base price that is not negative
the price itself is such a bound. The discount of an order is what its volume discounts take
off in this way, and it lies between zero and the subtotal.
-/

namespace Tariff

namespace Action

/-- **The actions that lower a price**: to take off an amount or a percentage, and to multiply or
divide by what makes it smaller. To set a price is not among them, whatever it is set to, and
neither is an addition of less than nothing. -/
def Lowers (a : Action) : Prop :=
  match a.kind with
  | .percentageDiscount => .zero ≤ a.value ∧ a.value ≤ .hundred
  | .subtract => .zero ≤ a.value
  | .multiply => .zero ≤ a.value ∧ a.value ≤ .one
  | .divide => .one ≤ a.value
  | .add | .percentageMarkup | .setFixed => False

instance decidableLowers : DecidablePred Lowers
  | ⟨.percentageDiscount, value⟩ =>
    inferInstanceAs (Decidable (Decimal.zero ≤ value ∧ value ≤ .hundred))
  | ⟨.subtract, value⟩ => inferInstanceAs (Decidable (Decimal.zero ≤ value))
  | ⟨.multiply, value⟩ => inferInstanceAs (Decidable (Decimal.zero ≤ value ∧ value ≤ .one))
  | ⟨.divide, value⟩ => inferInstanceAs (Decidable (Decimal.one ≤ value))
  | ⟨.add, _⟩ | ⟨.percentageMarkup, _⟩ | ⟨.setFixed, _⟩ => inferInstanceAs (Decidable False)

/-- A part of a number stays below what is above the number and zero. For a number below zero the
part is above the number, which is why zero has to be below the bound as well. -/
theorem mul_le_of_part {x b c : ℚ} (hx : x ≤ b) (hb : 0 ≤ b) (hc : 0 ≤ c) (hc' : c ≤ 1) :
    x * c ≤ b :=
  calc x * c ≤ b * c := mul_le_mul_of_nonneg_right hx hc
    _ ≤ b := mul_le_of_le_one_right hb hc'

namespace Lowers

variable {a : Action} {price after b : Decimal}

/-- **The exact result stays below what is above the price and zero.** There is one case for each
kind of action that lowers; percentages are parts by their shares. -/
theorem exact_le (h : a.Lowers) {x y : ℚ} (hx : x ≤ y) (hy : 0 ≤ y) : a.exact x ≤ y := by
  obtain ⟨kind, value⟩ := a
  cases kind with
  | percentageDiscount =>
    obtain ⟨hlow, hhigh⟩ : Decimal.zero ≤ value ∧ value ≤ .hundred := h
    rw [Decimal.zero_le_iff] at hlow
    rw [Decimal.le_iff, Decimal.value_hundred] at hhigh
    exact mul_le_of_part hx hy (zero_le_share_discount hhigh) (share_discount_le_one hlow)
  | subtract =>
    have hlow : Decimal.zero ≤ value := h
    rw [Decimal.zero_le_iff] at hlow
    show x - value.value ≤ y
    linarith
  | multiply =>
    obtain ⟨hlow, hhigh⟩ : Decimal.zero ≤ value ∧ value ≤ .one := h
    rw [Decimal.zero_le_iff] at hlow
    rw [Decimal.le_iff, Decimal.value_one] at hhigh
    exact mul_le_of_part hx hy hlow hhigh
  | divide =>
    have hone : Decimal.one ≤ value := h
    rw [Decimal.le_iff, Decimal.value_one] at hone
    show x / value.value ≤ y
    rw [div_eq_mul_inv]
    exact mul_le_of_part hx hy (inv_nonneg.2 (zero_le_one.trans hone)) (inv_le_one_of_one_le₀ hone)
  | add | percentageMarkup | setFixed => exact absurd h id

/-- **An action that lowers stays below what is above the price and zero**, also where it rounds.
The bound is a decimal, and no rounding takes a number across a decimal. -/
theorem le_of_apply (h : a.Lowers) (hok : a.apply price = .ok after) (hprice : price ≤ b)
    (hb : .zero ≤ b) : after ≤ b := by
  rw [Decimal.zero_le_iff] at hb
  rw [Decimal.le_iff] at hprice ⊢
  exact (isRounding_of_apply hok).rounds.ge_of_ge b (h.exact_le hprice hb)

end Lowers

/-- **So do all of a list.** The bound stays the same from action to action, which is what makes
this an induction: with the running price itself as the bound it would not be one, since an action
may raise it while it is below zero. -/
theorem le_of_applyAll {actions : List Action} {price after b : Decimal}
    (h : ∀ a ∈ actions, a.Lowers) (hok : applyAll actions price = .ok after) (hprice : price ≤ b)
    (hb : .zero ≤ b) : after ≤ b := by
  induction actions generalizing price with
  | nil =>
    cases hok
    exact hprice
  | cons a rest ih =>
    obtain ⟨hfirst, hrest⟩ := List.forall_mem_cons.1 h
    obtain ⟨running, hrunning, hafter⟩ := applyAll_cons_eq_ok_iff.1 hok
    exact ih hrest hafter (hfirst.le_of_apply hrunning hprice hb)

end Action

/-- **A rule that lowers prices**, by each of its actions. -/
def Rule.Lowers (rule : Rule) : Prop := ∀ a ∈ rule.actions, a.Lowers

namespace Trace

variable {op : Operation} {r : Request} {b : Decimal}

/-- One more rule that lowers leaves the running price below the bound, whether it is carried out or
not. A rule that fails in the middle of its actions leaves the price that it found. -/
theorem adjustedPrice_extend_le {rule : Rule} (h : rule.Lowers) (hb : .zero ≤ b) {t : Trace}
    (ht : t.adjustedPrice ≤ b) : (extend op r t rule).adjustedPrice ≤ b := by
  cases houtcome : outcome rule op r t.adjustedPrice with
  | error e => rwa [extend_of_error houtcome]
  | ok result =>
    cases result with
    | none => rwa [extend_of_none houtcome]
    | some after =>
      rw [extend_of_some houtcome]
      exact Action.le_of_applyAll h (outcome_eq_some_iff.1 houtcome).2 ht hb

/-- **Rules that lower never raise a price** that is not negative. The price is its own bound; and
the clamp at the end, which may raise what the rules have left, raises it to zero at most. -/
theorem evaluate_le {rules : List Rule} {price : Decimal} (hprice : .zero ≤ price)
    {filter : RuleFilter}
    (h : ∀ rule ∈ rules, filter.admits rule.ruleType = true → rule.Lowers) :
    (evaluate rules price op r filter).adjustedPrice ≤ price := by
  have hordered := Rule.forall_admitted_iff.2 h
  have hrunning := List.foldlRecOn (motive := fun t : Trace => t.adjustedPrice ≤ price) _
    (extend op r) (Int.le_refl _ : (start price).adjustedPrice ≤ price)
    fun t ht rule hrule => adjustedPrice_extend_le (hordered rule hrule) hprice ht
  rw [Decimal.le_iff] at hrunning
  rw [Decimal.zero_le_iff] at hprice
  unfold evaluate
  rw [Decimal.le_iff, value_clamp]
  exact max_le hrunning hprice

end Trace

/-! ## The discount of an order

What the bound of a single price is, the subtotal is for an order. So the difference of the two is
not below zero, and no more than the subtotal. -/

/-- **What lies between zero and a decimal** leaves a difference that does so too. Both bounds are
decimals, so that the rounding of the difference stays between them. -/
theorem Decimal.sub_between {a b d : Decimal} (h : a.sub b = some d) (hb : .zero ≤ b)
    (hle : b ≤ a) : .zero ≤ d ∧ d ≤ a := by
  have hrounds := Decimal.sub_rounds h
  rw [Decimal.zero_le_iff] at hb
  rw [Decimal.le_iff] at hle
  constructor
  · rw [Decimal.zero_le_iff]
    exact hrounds.nonneg (by linarith)
  · rw [Decimal.le_iff]
    exact hrounds.ge_of_ge a (by linarith)

/-- **The discount of an order** is between zero and the subtotal where the volume discounts in
force lower prices: it is the subtotal less the price that they leave, which is not below zero and
not above the subtotal. -/
theorem View.discount_between {v : View} {op : Operation} {lines : List Order.Line}
    {shared : Request} {o : PricedOrder} {c c' : Option Cache}
    (h : ∀ rule ∈ v.store.liveRules v.now, rule.ruleType = .volumeDiscount → rule.Lowers)
    (ho : v.order op lines shared c = (.ok o, c')) :
    .zero ≤ o.discount ∧ o.discount ≤ o.subtotal := by
  have hnonneg := (v.ends_order op lines shared).of_eq_ok ho
  obtain ⟨-, -, -, htrace, htotal, hdiscount⟩ := order_eq_ok_iff.1 ho
  refine Decimal.sub_between hdiscount hnonneg.total ?_
  rw [htotal, htrace]
  exact Trace.evaluate_le hnonneg.subtotal fun rule hrule hadmits =>
    h rule hrule (beq_iff_eq.1 hadmits).symm

/-- **Rules that lower prices never raise one.** Whichever of them apply or fail, they leave a base
price that is not negative at most as it was. And where all volume discounts in force are of this
kind, the discount of every order that is answered lies between zero and its subtotal.

Only rules that take part need to lower prices. Of an order the lines may be raised by other rules:
the volume discounts begin with the subtotal, whatever that has become. -/
theorem prices_le_of_lowers :
    (∀ (rules : List Rule) (price : Decimal) (op : Operation) (r : Request) (filter : RuleFilter),
        .zero ≤ price →
        (∀ rule ∈ rules, filter.admits rule.ruleType = true → ∀ a ∈ rule.actions, a.Lowers) →
        (Trace.evaluate rules price op r filter).adjustedPrice ≤ price)
      ∧ ∀ (e : Engine) (op : Operation) (lines : List Order.Line) (r : Request) (t : Instant)
        (o : PricedOrder),
        (∀ rule ∈ e.store.liveRules t, rule.ruleType = .volumeDiscount →
          ∀ a ∈ rule.actions, a.Lowers) →
        (e.getOrderPrice op lines r t).1 = .ok o →
        .zero ≤ o.discount ∧ o.discount ≤ o.subtotal := by
  refine ⟨fun rules price op r filter hprice h => Trace.evaluate_le hprice h, ?_⟩
  intro e op lines r t o h ho
  exact View.discount_between h
    (show (e.view t).order op lines r e.cache = (.ok o, _) from Prod.ext ho rfl)

/-- A rule takes off ten and then the half, so that five goes down to five below zero and up again
to two and a half below. As the volume discount of an order over five it takes off all of it. -/
theorem prices_le_of_lowers_below_zero : ∃ five ten fifty draft rule e o,
    five = (⟨false, 5, 0, by decide, by decide⟩ : Decimal)
    ∧ ten = (⟨false, 10, 0, by decide, by decide⟩ : Decimal)
    ∧ fifty = (⟨false, 50, 0, by decide, by decide⟩ : Decimal)
    ∧ draft = ({
      name := "less"
      ruleType := .volumeDiscount
      actions := [⟨.subtract, ten⟩, ⟨.percentageDiscount, fifty⟩] } : Draft)
    ∧ rule = Rule.ofDraft draft ⟨1, by decide⟩ "ann" ⟨1⟩
    ∧ Action.apply ⟨.subtract, ten⟩ five = .ok five.neg
    ∧ Action.applyAll rule.actions five = .ok ⟨true, 250, 2, by decide, by decide⟩
    ∧ .zero ≤ five ∧ (∀ a ∈ rule.actions, a.Lowers)
    ∧ (Trace.evaluate [rule] five .refill {} .all).adjustedPrice ≤ five
    ∧ e = Engine.initial.run
      [.setSetting "refill.base_price" (.number five) { author := ⟨"ann", none⟩ } (.number 1),
      .createRule draft ⟨"ann", none⟩ (.number 2)]
    ∧ (∀ rule ∈ e.store.liveRules ⟨3⟩, rule.ruleType = .volumeDiscount →
      ∀ a ∈ rule.actions, a.Lowers)
    ∧ (e.getOrderPrice .refill [⟨"a", 1, none⟩] {} ⟨3⟩).1 = .ok o ∧ o.total = .zero
    ∧ .zero ≤ o.discount ∧ o.discount ≤ o.subtotal := by
  obtain ⟨hprices, horders⟩ := prices_le_of_lowers
  have htotal : (match ((Engine.initial.run
      [.setSetting "refill.base_price" (.number ⟨false, 5, 0, by decide, by decide⟩)
        { author := ⟨"ann", none⟩ } (.number 1),
      .createRule {
        name := "less"
        ruleType := .volumeDiscount
        actions := [⟨.subtract, ⟨false, 10, 0, by decide, by decide⟩⟩,
          ⟨.percentageDiscount, ⟨false, 50, 0, by decide, by decide⟩⟩] }
        ⟨"ann", none⟩ (.number 2)]).getOrderPrice .refill [⟨"a", 1, none⟩] {} ⟨3⟩).1 with
      | .ok o => some o.total
      | .error _ => none) = some .zero := by decide +kernel
  split at htotal
  · next o ho =>
    refine ⟨_, _, _, _, _, _, o, rfl, rfl, rfl, rfl, rfl, rfl, rfl, by decide,
      by decide, hprices _ _ _ _ _ (by decide) ?_, rfl, by decide +kernel, ho,
      Option.some.inj htotal, ?_⟩
    · decide
    · exact horders _ _ _ _ _ _ (by decide +kernel) ho
  · cases htotal

end Tariff
