import Tariff.Proofs.Conditions

/-!
# The laws of comparisons

Whoever writes a rule takes the comparisons at their word: what is not equal is the opposite of
what is equal, a value is in a list if it equals one of its items, and of two numbers one is
less, or they are the same, or the other one is less. Inside, the comparisons go two ways.
Equality looks at the operands as they are, and compares two texts letter by letter; the
orderings first make numbers of both sides. A text that is a number is a text to the one and a
number to the others.

They agree because of what fields hold. A field that holds numbers has a number, never a text,
so that equality makes a number of the operand as well. All six comparisons then say how the
number in the field stands to the operand (`test_of_numbers`), and `Comparison.verdict` is the
reading of each.

None of this is so where the request leaves the field out. Every condition on the field is
false then, and what is not equal is no more true than what is equal: absence comes before
negation.
-/

namespace Tariff

/-! ## How two numbers stand to each other

Decimals are compared as whole numbers of the least unit, and the comparisons ask what the outcome
is. These lemmas turn each such question into one about the decimals. -/

namespace Decimal

variable {a b : Decimal}

/-- Two decimals are compared as numbers, by the integers that they are multiples of the
least unit. -/
theorem isLT_compare_units : (compare a.units b.units).isLT = decide (a < b) := by
  rw [Bool.eq_iff_iff, Ordering.isLT_iff_eq_lt, Int.compare_eq_lt, decide_eq_true_iff]
  rfl

theorem isGT_compare_units : (compare a.units b.units).isGT = decide (b < a) := by
  rw [Bool.eq_iff_iff, Ordering.isGT_iff_eq_gt, Int.compare_eq_gt, decide_eq_true_iff]
  rfl

theorem isLE_compare_units : (compare a.units b.units).isLE = decide (a ≤ b) := by
  rw [Bool.eq_iff_iff, Std.isLE_compare, decide_eq_true_iff]
  rfl

theorem isGE_compare_units : (compare a.units b.units).isGE = decide (b ≤ a) := by
  rw [Bool.eq_iff_iff, Std.isGE_compare, decide_eq_true_iff]
  rfl

theorem isEq_compare_units : (compare a.units b.units).isEq = decide (a.SameNumber b) := by
  rw [Bool.eq_iff_iff, Ordering.isEq_iff_eq_eq, Std.compare_eq_iff_eq, decide_eq_true_iff]
  rfl

end Decimal

/-- **What a comparison says** of a number that stands in an order to another one. Membership is no
matter of order, and its value here is never used. -/
def Comparison.verdict : Comparison → Ordering → Bool
  | .eq, x => x.isEq
  | .ne, x => x.isNe
  | .gt, x => x.isGT
  | .gte, x => x.isGE
  | .lt, x => x.isLT
  | .lte, x => x.isLE
  | .isIn, _ | .notIn, _ => false

/-! ## Equality

Equality is tried on texts and numbers without knowing which of the two it has. What it comes to is
settled here for a number and for a list. -/

namespace Operand

/-- A list equals nothing, not even itself. That is why an item which is a list is as good
as left out. -/
theorem looselyEqual_of_isList {a o : Operand} (h : o.isList = true) :
    a.looselyEqual o = false := by
  cases o with
  | list items => cases a <;> simp [looselyEqual, sameNumber, decimal?]
  | _ => cases h

/-- **A number equals what is the same number**, also where that is written as a text. So `60`
equals the text `60.0`, although no two texts are equal that differ in a letter. -/
theorem looselyEqual_number {a d : Decimal} {o : Operand} (h : o.decimal? = some d) :
    (number a).looselyEqual o = decide (a.SameNumber d) := by
  have hsame : (number a).looselyEqual o = (number a).sameNumber o := by cases o <;> rfl
  rw [hsame]
  unfold sameNumber
  rw [h]
  rfl

end Operand

namespace Condition

variable {f : Field} {r : Request} {actual o : Operand} {a d : Decimal}

/-- An operand that is no list is what a comparison with one operand is made with. -/
theorem single_eq_ok {c : Condition} (h : c.operand.isList = false) : c.single = .ok c.operand := by
  unfold single
  rw [h]
  rfl

/-- Equality is asked of the operands as they are. -/
theorem test_eq (ho : o.isList = false) :
    test ⟨f, .eq, o⟩ actual = .ok (actual.looselyEqual o) := by
  show (single ⟨f, .eq, o⟩ >>= fun o => pure (actual.looselyEqual o)) = _
  rw [single_eq_ok ho]
  rfl

theorem test_ne (ho : o.isList = false) :
    test ⟨f, .ne, o⟩ actual = .ok (!actual.looselyEqual o) := by
  show (single ⟨f, .ne, o⟩ >>= fun o => pure (!actual.looselyEqual o)) = _
  rw [single_eq_ok ho]
  rfl

/-- **A value is in a list** if it equals one of its items, those that are lists left out.
Membership goes through the items with the comparison that equality makes. -/
theorem any_looselyEqual_iff {items : List Operand} :
    items.any actual.looselyEqual = true
      ↔ ∃ o ∈ items, o.isList = false ∧ test ⟨f, .eq, o⟩ actual = .ok true := by
  rw [List.any_eq_true]
  refine exists_congr (fun o => and_congr_right (fun _ => ?_))
  cases hlist : o.isList with
  | true =>
    rw [Operand.looselyEqual_of_isList hlist]
    exact iff_of_false nofun nofun
  | false =>
    rw [test_eq hlist, Except.ok.injEq]
    exact (and_iff_right rfl).symm

/-! ## Numbers

The orderings make numbers of both sides, and fail where one is none. Where both are, equality does
the same in effect. -/

/-- Both sides of an ordering, where they are numbers. -/
theorem sides_eq_ok {c : Condition} (hactual : actual.decimal? = some a)
    (ho : c.operand.decimal? = some d) : c.sides actual = .ok (a, d) := by
  unfold sides
  simp only [hactual, single_eq_ok (Operand.isList_eq_false ho), ho, bind, Except.bind, pure,
    Except.pure]

/-- **Comparisons of numbers say how one number stands to the other**, equality no less than the
orderings. The field has a number here; the operand may be a number or a text that is one, and each
comparison reads the order of the two numbers in its own way. -/
theorem test_of_numbers (ho : o.decimal? = some d) {x : Comparison}
    (hx : x.isMembership = false) :
    test ⟨f, x, o⟩ (.number a) = .ok (x.verdict (compare a.units d.units)) := by
  have hlist : o.isList = false := Operand.isList_eq_false ho
  have hequal := Operand.looselyEqual_number (a := a) ho
  -- An ordering asks both sides for a number, and has them here.
  have horder : ∀ (x : Comparison) (p : Decimal × Decimal → Bool),
      (sides ⟨f, x, o⟩ (.number a) >>= fun sides => pure (p sides)) = .ok (p (a, d)) :=
    fun x p => by
      rw [sides_eq_ok rfl ho]
      rfl
  cases x with
  | eq =>
    rw [test_eq hlist, hequal, ← Decimal.isEq_compare_units]
    rfl
  | ne =>
    rw [test_ne hlist, hequal, ← Decimal.isEq_compare_units, Ordering.not_isEq_eq_isNe]
    rfl
  | gt =>
    exact (horder .gt fun sides => sides.2 < sides.1).trans
      (congrArg Except.ok Decimal.isGT_compare_units.symm)
  | gte =>
    exact (horder .gte fun sides => sides.2 ≤ sides.1).trans
      (congrArg Except.ok Decimal.isGE_compare_units.symm)
  | lt =>
    exact (horder .lt fun sides => sides.1 < sides.2).trans
      (congrArg Except.ok Decimal.isLT_compare_units.symm)
  | lte =>
    exact (horder .lte fun sides => sides.1 ≤ sides.2).trans
      (congrArg Except.ok Decimal.isLE_compare_units.symm)
  | isIn | notIn => cases hx

/-! ## The laws -/

/-- **On a field that the request leaves out every condition is false**, also one that negates. -/
theorem evaluate_of_absent (h : r.operand? f = none) (x : Comparison) (o : Operand) :
    evaluate ⟨f, x, o⟩ r = .ok false := by
  unfold evaluate
  rw [h]

/-- Where the request has something in the field, this is what is tested. -/
theorem evaluate_of_present (h : r.operand? f = some actual) (x : Comparison) (o : Operand) :
    evaluate ⟨f, x, o⟩ r = test ⟨f, x, o⟩ actual := by
  unfold evaluate
  rw [h]

/-- **The comparisons keep their word.** On a field that the request leaves out every condition is
false. Where it carries the field: what is not equal to an operand that is no list is the opposite
of what is equal; not to be in a list is the opposite of being in it, and that is to equal an item
that is no list; and where the field holds numbers and the operand is one, or a text that is one,
then exactly one of less, equal and greater is true, as the two numbers stand, and the other two
orderings are what they say.

All of these answer, and with no error. That is part of each law, since a comparison that could not
be made would say nothing about its opposite. -/
theorem evaluate_laws (f : Field) (r : Request) :
    (r.operand? f = none → ∀ x o, evaluate ⟨f, x, o⟩ r = .ok false)
      ∧ ∀ actual, r.operand? f = some actual →
        (∀ o, o.isList = false → ∃ b, evaluate ⟨f, .eq, o⟩ r = .ok b
          ∧ evaluate ⟨f, .ne, o⟩ r = .ok !b)
        ∧ (∀ items, ∃ b, evaluate ⟨f, .isIn, .list items⟩ r = .ok b
          ∧ evaluate ⟨f, .notIn, .list items⟩ r = .ok !b
          ∧ (b = true ↔ ∃ o ∈ items, o.isList = false ∧ evaluate ⟨f, .eq, o⟩ r = .ok true))
        ∧ (f.isNumeric = true → ∀ o d, o.decimal? = some d → ∃ a lt eq gt,
          actual = .number a ∧ (lt = true ↔ a < d) ∧ (eq = true ↔ a.SameNumber d)
          ∧ (gt = true ↔ d < a) ∧ [lt, eq, gt].count true = 1
          ∧ evaluate ⟨f, .lt, o⟩ r = .ok lt ∧ evaluate ⟨f, .eq, o⟩ r = .ok eq
          ∧ evaluate ⟨f, .gt, o⟩ r = .ok gt
          ∧ evaluate ⟨f, .gte, o⟩ r = .ok (gt || eq)
          ∧ evaluate ⟨f, .lte, o⟩ r = .ok (lt || eq)) := by
  refine ⟨evaluate_of_absent, fun actual hactual => ?_⟩
  simp only [evaluate_of_present hactual]
  refine ⟨fun o ho => ⟨_, test_eq ho, test_ne ho⟩, fun items => ?_, fun hf o d ho => ?_⟩
  · exact ⟨items.any actual.looselyEqual, rfl, rfl, any_looselyEqual_iff⟩
  · obtain ⟨a, rfl⟩ := exists_number_of_operand? hf hactual
    -- All six comparisons are told from the one order of the two numbers.
    have htest : ∀ x : Comparison, x.isMembership = false →
        test ⟨f, x, o⟩ (.number a) = .ok (x.verdict (compare a.units d.units)) :=
      fun _ => test_of_numbers ho
    refine ⟨a, _, _, _, rfl, ?_, ?_, ?_, ?_, htest .lt rfl, htest .eq rfl, htest .gt rfl, ?_, ?_⟩
    · rw [Comparison.verdict, Decimal.isLT_compare_units, decide_eq_true_iff]
    · rw [Comparison.verdict, Decimal.isEq_compare_units, decide_eq_true_iff]
    · rw [Comparison.verdict, Decimal.isGT_compare_units, decide_eq_true_iff]
    · cases compare a.units d.units <;> rfl
    · rw [htest .gte rfl]
      cases compare a.units d.units <;> rfl
    · rw [htest .lte rfl]
      cases compare a.units d.units <;> rfl

/-- Sixty cylinders are asked for, and the operand is the text " 60.0 ": it is neither less nor
greater but equal, and so not unequal. -/
theorem evaluate_laws_of_text :
    (∃ d, Operand.decimal? (.text " 60.0 ") = some d)
      ∧ evaluate ⟨.quantity, .eq, .text " 60.0 "⟩ { quantity := some 60 } = .ok true
      ∧ evaluate ⟨.quantity, .ne, .text " 60.0 "⟩ { quantity := some 60 } = .ok false
      ∧ evaluate ⟨.quantity, .lt, .text " 60.0 "⟩ { quantity := some 60 } = .ok false
      ∧ evaluate ⟨.quantity, .gte, .text " 60.0 "⟩ { quantity := some 60 } = .ok true := by
  obtain ⟨hopposite, -, hnumbers⟩ := (evaluate_laws .quantity { quantity := some 60 }).2 _ rfl
  have hd : Operand.decimal? (.text " 60.0 ") = some ⟨false, 600, 1, by decide, by decide⟩ := by
    decide +kernel
  obtain ⟨a, lt, eq, gt, ha, hlt, heq, -, -, hevallt, hevaleq, -, hevalgte, -⟩ :=
    hnumbers rfl _ _ hd
  cases ha
  obtain rfl : eq = true := heq.2 (by decide)
  obtain rfl : lt = false := Bool.eq_false_iff.2 fun h => absurd (hlt.1 h) (by decide)
  obtain ⟨b, hevaleq', hevalne⟩ := hopposite (.text " 60.0 ") rfl
  obtain rfl : true = b := Except.ok.inj (hevaleq.symm.trans hevaleq')
  rw [Bool.or_true] at hevalgte
  exact ⟨⟨_, hd⟩, hevaleq, hevalne, hevallt, hevalgte⟩

end Condition

end Tariff
