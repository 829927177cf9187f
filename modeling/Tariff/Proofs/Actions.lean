import Tariff.Proofs.Validation

/-!
# The numbers that actions make

An action makes a price of a price by an operation on decimals. Its exact result is a
number (`Action.exact`), and what the action answers is what the operation answers: the
rounding of that number, or a failure if it is too large (`Action.answers_apply`). So all
that is to be known of an action is arithmetic of fractions, and the rest is known of
rounding: it keeps the order, and it depends on nothing but the number.

A percentage acts as a **share**, one plus or minus a hundredth of it. The share is a
decimal that is rounded itself, twice. It keeps to the side of zero and of one that it
belongs to, since these are decimals.
-/

namespace Tariff

namespace Decimal

/-- A result that is checked answers what it did. The check gives a name to the failure, and which
name that is makes no difference to the number. -/
theorem Answers.checked {x : ℚ} {result : Option Decimal} (h : Answers x result)
    {m : Miscalculation} : Answers x (match result with
      | some d => Except.ok d
      | none => .error m).toOption := by
  cases result <;> exact h

variable {a a' b b' : Decimal}

theorem isZero_eq (h : a.value = b.value) : a.isZero = b.isZero :=
  Bool.eq_iff_iff.2 (by rw [isZero_iff, isZero_iff, h])

theorem isNegative_eq (h : a.value = b.value) : a.isNegative = b.isNegative :=
  Bool.eq_iff_iff.2 (by rw [isNegative_iff, isNegative_iff, h])

end Decimal

namespace Action

open Decimal (Answers IsRounding)

/-! ## Shares

Both ways of writing a percentage, as a discount and as a markup, are treated together. What is
needed of a share later is its place: between zero and one if it takes something off, and not below
zero if it adds something. -/

/-- **The share of a price that a percentage leaves or makes of it.** It is the number of a decimal,
and not one plus or minus a hundredth of the percentage, since both steps round. The factor can
always be computed (`exists_percentageFactor`), so that the default is never used. -/
def share (percent : Decimal) (isMarkup : Bool) : ℚ :=
  ((percentageFactor percent isMarkup).getD .one).value

theorem share_eq {percent factor : Decimal} {isMarkup : Bool}
    (h : percentageFactor percent isMarkup = some factor) :
    share percent isMarkup = factor.value := by
  rw [share, h, Option.getD_some]

/-- **A share is rounded twice**: the hundredth is, and its sum or difference with one. All that is
said of shares below is said of these two roundings. A percentage is divided by a hundred here, so
that the quotient fits, and neither step can fail. -/
theorem exists_isRounding_share (percent : Decimal) (isMarkup : Bool) :
    ∃ fraction factor : Decimal, fraction.IsRounding (percent.value / 100)
      ∧ factor.IsRounding (if isMarkup then 1 + fraction.value else 1 - fraction.value)
      ∧ share percent isMarkup = factor.value := by
  obtain ⟨factor, hfactor⟩ := exists_percentageFactor percent isMarkup
  obtain ⟨fraction, hfraction, hsum⟩ := Option.bind_eq_some_iff.1 hfactor
  have hquotient := Decimal.div_answers percent (b := .hundred) (by decide)
  rw [hfraction, Decimal.value_hundred] at hquotient
  refine ⟨fraction, factor, hquotient, ?_, share_eq hfactor⟩
  cases isMarkup with
  | true =>
    have hanswers := Decimal.add_answers .one fraction
    rwa [show Decimal.one.add fraction = some factor from hsum, Decimal.value_one] at hanswers
  | false =>
    have hanswers := Decimal.sub_answers .one fraction
    rwa [show Decimal.one.sub fraction = some factor from hsum, Decimal.value_one] at hanswers

/-- **Only the number of a percentage matters.** A rounding depends on the number alone, so `10` and
`10.0` come to the same share, although the quotients are computed from different mantissas. -/
theorem share_eq_of_value_eq {percent percent' : Decimal} (h : percent.value = percent'.value)
    (isMarkup : Bool) : share percent isMarkup = share percent' isMarkup := by
  obtain ⟨fraction, factor, hfraction, hfactor, hshare⟩ :=
    exists_isRounding_share percent isMarkup
  obtain ⟨fraction', factor', hfraction', hfactor', hshare'⟩ :=
    exists_isRounding_share percent' isMarkup
  rw [← h] at hfraction'
  rw [← hfraction.value_eq hfraction'] at hfactor'
  rw [hshare, hshare', hfactor.value_eq hfactor']

/-- A discount of a hundred percent at most leaves no negative share. Its hundredth is at most
one, and stays so when it is rounded, since one is a decimal; in the same way the difference stays
above zero. -/
theorem zero_le_share_discount {percent : Decimal} (h : percent.value ≤ 100) :
    0 ≤ share percent false := by
  obtain ⟨fraction, factor, hfraction, hfactor, hshare⟩ := exists_isRounding_share percent false
  have hone := hfraction.rounds.ge_of_ge .one (by rw [Decimal.value_one]; linarith)
  rw [Decimal.value_one] at hone
  rw [hshare]
  exact hfactor.rounds.nonneg (by rw [if_neg Bool.false_ne_true]; linarith)

/-- A discount that is not negative leaves no more than there was. The hundredth is not below zero,
and what is taken away from one is rounded to one at most. -/
theorem share_discount_le_one {percent : Decimal} (h : 0 ≤ percent.value) :
    share percent false ≤ 1 := by
  obtain ⟨fraction, factor, hfraction, hfactor, hshare⟩ := exists_isRounding_share percent false
  have hnonneg := hfraction.rounds.nonneg (by linarith)
  have hone := hfactor.rounds.ge_of_ge .one
    (by rw [Decimal.value_one, if_neg Bool.false_ne_true]; linarith)
  rwa [Decimal.value_one, ← hshare] at hone

/-- A markup that is not negative makes no negative share. -/
theorem zero_le_share_markup {percent : Decimal} (h : 0 ≤ percent.value) :
    0 ≤ share percent true := by
  obtain ⟨fraction, factor, hfraction, hfactor, hshare⟩ := exists_isRounding_share percent true
  have hnonneg := hfraction.rounds.nonneg (by linarith)
  rw [hshare]
  exact hfactor.rounds.nonneg (by rw [if_pos rfl]; linarith)

/-! ## Exact results

A price is taken as a number here, and so is what becomes of it. The decimals come in only with the
last lemma, which holds the answer of an action against this number. -/

/-- **The number that an action makes of a price**, before it is rounded. This is what one would
write down for the action on paper, except that a percentage stands for its share. A division by
zero has a number here as well, which nothing will ever be the rounding of. -/
def exact (a : Action) (x : ℚ) : ℚ :=
  match a.kind with
  | .add => x + a.value.value
  | .subtract => x - a.value.value
  | .multiply => x * a.value.value
  | .divide => x / a.value.value
  | .percentageDiscount => x * share a.value false
  | .percentageMarkup => x * share a.value true
  | .setFixed => a.value.value

/-- A percentage answers the price times its share. -/
theorem answers_share (percent price : Decimal) (isMarkup : Bool) :
    Answers (price.value * share percent isMarkup)
      ((percentageFactor percent isMarkup).bind price.mul) := by
  obtain ⟨factor, hfactor⟩ := exists_percentageFactor percent isMarkup
  rw [hfactor, share_eq hfactor]
  exact Decimal.mul_answers price factor

/-- Whether an action divides by zero. This is a matter of the number, so that `0.00` is a zero
divisor too. -/
def dividesByZero (a : Action) : Bool := a.kind = .divide && a.value.isZero

theorem apply_of_dividesByZero {a : Action} (h : a.dividesByZero = true) (price : Decimal) :
    a.apply price = .error .zeroDivisor := by
  obtain ⟨kind, value⟩ := a
  rw [dividesByZero, Bool.and_eq_true, decide_eq_true_eq] at h
  obtain ⟨rfl, hzero⟩ := h
  exact if_pos hzero

/-- **An action answers its exact result**, unless it divides by zero: it answers the rounding of
that number if this is a decimal, and a failure if it is too large. Each kind of action is one
operation, for which this is known; a price that is set is one that was a decimal before. -/
theorem answers_apply {a : Action} (h : a.dividesByZero = false) (price : Decimal) :
    Answers (a.exact price.value) (a.apply price).toOption := by
  obtain ⟨kind, value⟩ := a
  cases kind with
  | add => exact (Decimal.add_answers price value).checked
  | subtract => exact (Decimal.sub_answers price value).checked
  | multiply => exact (Decimal.mul_answers price value).checked
  | divide =>
    have hzero : value.isZero = false := h
    unfold apply
    dsimp only
    rw [hzero, if_neg Bool.false_ne_true]
    exact (Decimal.div_answers price hzero).checked
  | percentageDiscount => exact (answers_share value price false).checked
  | percentageMarkup => exact (answers_share value price true).checked
  | setFixed => exact IsRounding.self value

/-- **What an action makes of a price** is the rounding of the exact number. In this form it is
used: no action that has answered has divided by zero. -/
theorem isRounding_of_apply {a : Action} {price after : Decimal} (h : a.apply price = .ok after) :
    after.IsRounding (a.exact price.value) := by
  cases hzero : a.dividesByZero with
  | true =>
    rw [apply_of_dividesByZero hzero] at h
    cases h
  | false =>
    have hanswers := answers_apply hzero price
    rwa [h] at hanswers

/-! ## Lists of actions -/

/-- **Actions are carried out** where the first is, and the others are on what it makes. So the
price is rounded after every action, and what is proved of lists of actions is proved by induction
with the running price left open. -/
theorem applyAll_cons_eq_ok_iff {a : Action} {rest : List Action} {price after : Decimal} :
    applyAll (a :: rest) price = .ok after
      ↔ ∃ running, a.apply price = .ok running ∧ applyAll rest running = .ok after := by
  show (a.apply price >>= fun running => applyAll rest running) = .ok after ↔ _
  cases a.apply price <;> simp [bind, Except.bind]

end Action

end Tariff
