import Mathlib.Data.List.Perm.Basic
import Tariff.Rule.Matching
import Tariff.Rule.Validation

/-!
# Conditions and what they need

A condition is checked when its rule is written, and looked at when a price is asked for,
perhaps a long time after. The check knows the comparison, the field and the operand;
what a request will have in the field it does not know.

With a value in hand it can be told whether the comparison can be made: `Condition.Fits`
says exactly what it needs (`Condition.exists_test_iff`). A condition that passes the check
has an operand that suits its comparison and its field (`Condition.Suits`), and it fits
whatever a request has there. It is then true or false of every request. Without that, what
a rule says would depend on the order of its conditions: they are looked at one after the
other, and one that is false hides an error in a later one. Of conditions that pass, the
order does not matter (`Condition.allHold_eq_of_perm`).

The check refuses no more than it has to. A request that carries every field, and texts that
are no numbers (`Request.full`), finds the fault in any condition that does not pass. There
is one exception: a list in a list is refused, and does no harm but that it equals nothing
(`Condition.validate_exact`).
-/

namespace Tariff

/-- Whether a check passes can be told, so that a proof may ask of a list whether all of
it passes. -/
instance decidablePasses : DecidablePred fun x : Except Problem Unit => x = .ok ()
  | .ok () => isTrue rfl
  | .error _ => isFalse nofun

/-- A computation goes on to an answer where its first step has one, if nothing else can fail. -/
theorem exists_bind_eq_ok_iff {ε α β : Type} {x : Except ε α} {f : α → Except ε β}
    (hf : ∀ a, ∃ b, f a = .ok b) : (∃ b, x >>= f = .ok b) ↔ ∃ a, x = .ok a := by
  cases x with
  | error e => exact iff_of_false nofun nofun
  | ok a => exact iff_of_true (hf a) ⟨a, rfl⟩

/-- No comparison both orders numbers and asks for membership. -/
theorem Comparison.isMembership_eq_false {x : Comparison} (h : x.isOrdering = true) :
    x.isMembership = false := by
  cases x <;> first | rfl | cases h

/-- A list is no number. -/
theorem Operand.isList_eq_false {o : Operand} {d : Decimal} (h : o.decimal? = some d) :
    o.isList = false := by
  cases o with
  | list items => cases h
  | _ => rfl

namespace Condition

variable {c : Condition} {actual : Operand} {r : Request}

/-! ## What passes the check

The check goes by the kind of the comparison, and so do the lemmas: membership first, then a single
operand, with or without an ordering. -/

/-- **The operand suits the comparison and the field**: a membership comparison has a list without
lists in it; any other has no list, and one that orders has a number, and a field that holds
numbers. Nothing here is about a request. -/
structure Suits (c : Condition) : Prop where
  list : c.comparison.isMembership = true →
    ∃ items, c.operand = .list items ∧ ∀ o ∈ items, o.isList = false
  single : c.comparison.isMembership = false → c.operand.isList = false
  number : c.comparison.isOrdering = true →
    c.field.isNumeric = true ∧ ∃ d, c.operand.decimal? = some d

/-- **A condition that asks for membership passes** with a list that has no lists in it. -/
theorem validate_eq_ok_iff_of_isMembership {c : Condition}
    (hmember : c.comparison.isMembership = true) :
    c.validate = .ok () ↔ ∃ items, c.operand = .list items ∧ ∀ o ∈ items, o.isList = false := by
  unfold validate
  rw [if_pos hmember]
  cases c.operand with
  | list items =>
    have hflat : items.any Operand.isList = false ↔ ∀ o ∈ items, o.isList = false := by simp
    cases hany : items.any Operand.isList with
    | true =>
      refine iff_of_false (by simp [hany]) ?_
      rintro ⟨_, heq, hitems⟩
      cases heq
      rw [hflat.2 hitems] at hany
      cases hany
    | false => exact iff_of_true (by simp [hany]) ⟨items, rfl, hflat.1 hany⟩
  | _ => exact iff_of_false nofun nofun

/-- **Any other condition passes** with an operand that is no list, and is a number where the
comparison orders, which a field that holds numbers is for. -/
theorem validate_eq_ok_iff_of_single {c : Condition}
    (hsingle : c.comparison.isMembership = false) :
    c.validate = .ok () ↔ c.operand.isList = false ∧ (c.comparison.isOrdering = true →
      c.field.isNumeric = true ∧ ∃ d, c.operand.decimal? = some d) := by
  unfold validate
  rw [hsingle, if_neg Bool.false_ne_true]
  cases c.operand.isList with
  | true => exact iff_of_false nofun nofun
  | false =>
    rw [if_neg Bool.false_ne_true]
    cases c.comparison.isOrdering with
    | false => exact iff_of_true rfl ⟨rfl, nofun⟩
    | true =>
      rw [if_pos rfl]
      cases c.field.isNumeric with
      | false => exact iff_of_false nofun (fun h => Bool.false_ne_true (h.2 rfl).1)
      | true =>
        cases c.operand.decimal? with
        | none => exact iff_of_false nofun (fun h => nomatch (h.2 rfl).2)
        | some d => exact iff_of_true rfl ⟨rfl, fun _ => ⟨rfl, d, rfl⟩⟩

/-- **The conditions that pass** are those whose operand suits. The check asks for the comparison
first and then goes one of two ways, which are the two lemmas before. -/
theorem validate_eq_ok_iff {c : Condition} : c.validate = .ok () ↔ c.Suits := by
  cases hmember : c.comparison.isMembership with
  | true =>
    have hunordered : c.comparison.isOrdering ≠ true := fun horder => by
      rw [Comparison.isMembership_eq_false horder] at hmember
      cases hmember
    rw [validate_eq_ok_iff_of_isMembership hmember]
    constructor
    · exact fun h => ⟨fun _ => h, by simp [hmember], fun horder => absurd horder hunordered⟩
    · exact fun h => h.list hmember
  | false =>
    rw [validate_eq_ok_iff_of_single hmember]
    constructor
    · exact fun h => ⟨by simp [hmember], fun _ => h.1, h.2⟩
    · exact fun h => ⟨h.single hmember, h.number⟩

/-! ## What a comparison needs

A comparison fails for one of three reasons only: it has a list and wants one operand, it has one
operand and wants a list, or it orders what is no number. -/

/-- **The comparison can be made of a value**: it has the list or the single operand that it is for,
and numbers on both sides if it orders. In contrast to `Suits` the value in the request is looked
at, and the field is not; and lists in a list are no hindrance. -/
structure Fits (c : Condition) (actual : Operand) : Prop where
  list : c.comparison.isMembership = true → ∃ items, c.operand = .list items
  single : c.comparison.isMembership = false → c.operand.isList = false
  number : c.comparison.isOrdering = true →
    (∃ d, actual.decimal? = some d) ∧ ∃ d, c.operand.decimal? = some d

/-- A comparison with one operand can be made with whatever is no list. -/
theorem exists_single_iff : (∃ o, c.single = .ok o) ↔ c.operand.isList = false := by
  unfold Condition.single
  cases c.operand.isList with
  | true => exact iff_of_false nofun nofun
  | false => exact iff_of_true ⟨_, rfl⟩ rfl

/-- A membership comparison can be made with a list, whatever its items are. -/
theorem exists_items_iff : (∃ items, c.items = .ok items) ↔ ∃ items, c.operand = .list items := by
  unfold Condition.items
  cases c.operand with
  | list items => exact iff_of_true ⟨items, rfl⟩ ⟨items, rfl⟩
  | _ => exact iff_of_false nofun nofun

/-- An ordering can be made of two numbers. -/
theorem exists_sides_iff : (∃ sides, c.sides actual = .ok sides)
    ↔ (∃ d, actual.decimal? = some d) ∧ ∃ d, c.operand.decimal? = some d := by
  unfold sides
  cases actual.decimal? with
  | none => exact iff_of_false nofun (fun h => nomatch h.1)
  | some left =>
    -- The left side is a number. The right side is one where the operand is no list and reads as
    -- one.
    cases hlist : c.operand.isList with
    | true =>
      have hright : ¬∃ d, c.operand.decimal? = some d := fun ⟨_, hd⟩ => by
        rw [Operand.isList_eq_false hd] at hlist
        cases hlist
      refine iff_of_false ?_ fun h => hright h.2
      simp [single, hlist, bind, Except.bind, pure, Except.pure]
    | false =>
      cases hright : c.operand.decimal? with
      | none =>
        refine iff_of_false ?_ fun h => nomatch h.2
        simp [single, hlist, hright, bind, Except.bind, pure, Except.pure, throw, throwThe,
          MonadExceptOf.throw]
      | some right =>
        refine iff_of_true ⟨(left, right), ?_⟩ ⟨⟨left, rfl⟩, right, rfl⟩
        simp [single, hlist, hright, bind, Except.bind, pure, Except.pure]

/-- **A comparison can be made** of exactly those values that it fits. For each comparison the parts
that can fail are those that `Fits` names, and the rest of the computation answers. -/
theorem exists_test_iff : (∃ b, c.test actual = .ok b) ↔ c.Fits actual := by
  unfold test
  cases hc : c.comparison with
  | eq | ne =>
    refine (exists_bind_eq_ok_iff fun _ => ⟨_, rfl⟩).trans (exists_single_iff.trans ?_)
    exact ⟨fun h => ⟨by simp [hc, Comparison.isMembership], fun _ => h,
      by simp [hc, Comparison.isOrdering]⟩, fun h => h.single (by rw [hc]; rfl)⟩
  | gt | gte | lt | lte =>
    refine (exists_bind_eq_ok_iff fun _ => ⟨_, rfl⟩).trans (exists_sides_iff.trans ?_)
    refine ⟨fun h => ⟨by simp [hc, Comparison.isMembership], fun _ => ?_, fun _ => h⟩,
      fun h => h.number (by rw [hc]; rfl)⟩
    obtain ⟨-, d, hd⟩ := h
    exact Operand.isList_eq_false hd
  | isIn | notIn =>
    refine (exists_bind_eq_ok_iff fun _ => ⟨_, rfl⟩).trans (exists_items_iff.trans ?_)
    exact ⟨fun h => ⟨fun _ => h, by simp [hc, Comparison.isMembership],
      by simp [hc, Comparison.isOrdering]⟩, fun h => h.list (by rw [hc]; rfl)⟩

/-- **A request has an answer** where the comparison can be made of what it has in the field, if
it has anything there. -/
theorem exists_evaluate_iff : (∃ b, c.evaluate r = .ok b)
    ↔ ∀ actual, r.operand? c.field = some actual → c.Fits actual := by
  unfold evaluate
  cases hactual : r.operand? c.field with
  | none => exact iff_of_true ⟨false, rfl⟩ nofun
  | some actual =>
    rw [exists_test_iff]
    exact ⟨fun h actual' heq => Option.some.inj heq ▸ h, fun h => h actual rfl⟩

/-! ## Conditions that suit

From here on a condition that has passed its check is no longer opened. It has a truth value
(`Condition.holds`), and this is all that rules need of it. -/

/-- A field that holds numbers has a number where a request carries it. This is how what the check
knows of the field comes to bear on a request that it does not know. -/
theorem exists_number_of_operand? {f : Field} (hf : f.isNumeric = true) {r : Request}
    {actual : Operand} (h : r.operand? f = some actual) : ∃ d, actual = .number d := by
  unfold Request.operand? at h
  cases f with
  | outletId | quantity | cylinderSize =>
    obtain ⟨x, -, rfl⟩ := Option.map_eq_some_iff.1 h
    exact ⟨_, rfl⟩
  | _ => cases hf

/-- **A condition that suits fits** whatever a request has in the field. It orders only on a field
that holds numbers, and a request has a number there. -/
theorem Suits.fits (h : c.Suits) (hactual : r.operand? c.field = some actual) :
    c.Fits actual where
  list hc := by
    obtain ⟨items, hoperand, -⟩ := h.list hc
    exact ⟨items, hoperand⟩
  single := h.single
  number hc := by
    obtain ⟨d, rfl⟩ := exists_number_of_operand? (h.number hc).1 hactual
    exact ⟨⟨d, rfl⟩, (h.number hc).2⟩

/-- **Whether a condition holds**, where an error counts as not. For conditions that suit there is
no error, and this is what they say. -/
def holds (c : Condition) (r : Request) : Bool :=
  match c.evaluate r with
  | .ok b => b
  | .error _ => false

/-- **A condition that suits is true or false of every request.** -/
theorem Suits.evaluate_eq_ok {c : Condition} (h : c.Suits) (r : Request) :
    c.evaluate r = .ok (c.holds r) := by
  obtain ⟨b, hb⟩ := exists_evaluate_iff.2 fun actual hactual => h.fits (r := r) hactual
  unfold holds
  rw [hb]

/-- **Conditions that suit all hold where each of them does.** They are looked at until one is
false; without errors it makes no difference that the others are not looked at. -/
theorem allHold_eq_ok {conditions : List Condition} (h : ∀ c ∈ conditions, c.Suits) (r : Request) :
    allHold r conditions = .ok (conditions.all (·.holds r)) := by
  induction conditions with
  | nil => rfl
  | cons c rest ih =>
    obtain ⟨hc, hrest⟩ := List.forall_mem_cons.1 h
    rw [allHold, hc.evaluate_eq_ok r, List.all_cons]
    -- What comes after a condition that does not hold is not looked at.
    cases c.holds r with
    | false => rfl
    | true => exact ih hrest

/-- **The order of conditions that suit does not matter.** Of others it does, as a condition that is
false hides the error of those behind it. -/
theorem allHold_eq_of_perm {conditions conditions' : List Condition}
    (h : ∀ c ∈ conditions, c.Suits) (hperm : conditions'.Perm conditions) (r : Request) :
    allHold r conditions' = allHold r conditions := by
  rw [allHold_eq_ok h, allHold_eq_ok (fun c hc => h c (hperm.mem_iff.1 hc)), hperm.all_eq]

end Condition

/-! ## Conditions that do not

The other direction needs a request that brings the fault to light. One request does for all
conditions, since it has something in every field. -/

/-- **A request that carries every field**, with texts that are no numbers. It leaves no condition
false for lack of a value, so that whatever is wrong with a condition shows. -/
def Request.full : Request where
  outletId := some 0
  cylinderType := some "any"
  customerTier := some "any"
  operationType := some .refill
  quantity := some 0
  cylinderSize := some .zero

/-- It has a number in the fields that hold numbers, and in no other. -/
theorem Request.exists_operand?_full (f : Field) : ∃ actual, full.operand? f = some actual
    ∧ ((∃ d, actual.decimal? = some d) → f.isNumeric = true) := by
  cases f with
  | outletId | quantity | cylinderSize => exact ⟨_, rfl, fun _ => rfl⟩
  | cylinderType | customerTier | operationType =>
    refine ⟨_, rfl, fun ⟨d, hd⟩ => ?_⟩
    cases hd

namespace Condition

variable {c : Condition}

/-- **A list in a list**: a membership comparison has a list, and one of its items is a list. The
check refuses it although nothing can go wrong with it. -/
def NestsList (c : Condition) : Prop :=
  c.comparison.isMembership = true
    ∧ ∃ items, c.operand = .list items ∧ ∃ o ∈ items, o.isList = true

/-- **A request that carries every field finds what does not suit**, lists in lists apart. If it is
answered then the comparison could be made of its values, and these are numbers only where the field
holds numbers. -/
theorem suits_of_evaluate_full {b : Bool} (h : c.evaluate .full = .ok b)
    (hflat : ¬c.NestsList) : c.Suits := by
  obtain ⟨actual, hactual, hnumeric⟩ := Request.exists_operand?_full c.field
  have hfits := exists_evaluate_iff.1 ⟨b, h⟩ actual hactual
  constructor
  case list =>
    intro hmember
    obtain ⟨items, hoperand⟩ := hfits.list hmember
    refine ⟨items, hoperand, fun o ho => ?_⟩
    cases hlist : o.isList with
    | false => rfl
    | true => exact absurd ⟨hmember, items, hoperand, o, ho, hlist⟩ hflat
  case single => exact hfits.single
  case number =>
    intro horder
    obtain ⟨hleft, hright⟩ := hfits.number horder
    exact ⟨hnumeric hleft, hright⟩

/-- A list in a list does no harm: the condition is true or false of every request. The inner list
equals nothing, and the other items are compared as ever. -/
theorem NestsList.exists_evaluate (h : c.NestsList) (r : Request) :
    ∃ b, c.evaluate r = .ok b := by
  obtain ⟨hmember, items, hoperand, -⟩ := h
  refine exists_evaluate_iff.2 fun actual _ => ⟨fun _ => ⟨items, hoperand⟩, ?_, ?_⟩
  · intro hsingle
    rw [hmember] at hsingle
    cases hsingle
  · intro horder
    rw [Comparison.isMembership_eq_false horder] at hmember
    cases hmember

/-- A condition that suits has no list in a list. -/
theorem Suits.not_nestsList (h : c.Suits) : ¬c.NestsList := by
  rintro ⟨hmember, items, hoperand, o, ho, hlist⟩
  obtain ⟨items', hoperand', hitems⟩ := h.list hmember
  obtain rfl : items = items' := Operand.list.inj (hoperand.symm.trans hoperand')
  rw [hitems o ho] at hlist
  cases hlist

/-- **The check of conditions is exact**, lists in lists apart. A condition passes if and only if it
is true or false of every request and has no list in a list. And what there is an erroneous request
for are those conditions that do not pass and have no list in a list.

That a condition which passes never fails is what a rule relies on (`Suits.evaluate_eq_ok`). That
one which does not pass fails for some request is shown by one request that does it for all of them
(`Request.full`), so that the check is not stricter than it must be. -/
theorem validate_exact (c : Condition) :
    (c.validate = .ok () ↔ (∀ r, ∃ b, c.evaluate r = .ok b) ∧ ¬c.NestsList)
      ∧ ((∃ r p, c.evaluate r = .error p) ↔ c.validate ≠ .ok () ∧ ¬c.NestsList) := by
  rw [Ne, validate_eq_ok_iff]
  refine ⟨⟨fun h => ⟨fun r => ⟨_, h.evaluate_eq_ok r⟩, h.not_nestsList⟩, ?_⟩, ?_, ?_⟩
  · -- A condition that every request has an answer for has one for the request that carries every
    -- field.
    rintro ⟨hall, hflat⟩
    obtain ⟨b, hb⟩ := hall .full
    exact suits_of_evaluate_full hb hflat
  · rintro ⟨r, p, herror⟩
    constructor
    · intro h
      rw [h.evaluate_eq_ok r] at herror
      cases herror
    · intro h
      obtain ⟨b, hb⟩ := h.exists_evaluate r
      rw [hb] at herror
      cases herror
  · rintro ⟨hsuits, hflat⟩
    refine ⟨.full, ?_⟩
    cases hfull : c.evaluate .full with
    | error p => exact ⟨p, rfl⟩
    | ok b => exact absurd (suits_of_evaluate_full hfull hflat) hsuits

example : validate ⟨.quantity, .isIn, .list [.list []]⟩ = .error (.nestedList .quantity) := rfl

end Condition

end Tariff
