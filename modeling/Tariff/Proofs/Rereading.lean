import Tariff.Proofs.Spelling
import Tariff.Proofs.Validation

/-!
# Rules that were written and read

A draft of a rule is written to a document, kept there, and read when it is to be changed. What
is read should be the same rule. Not all of it is equal to what was written: a zero has lost its
sign, and a number in a condition has become a text.

The sign of a zero does no harm. It is there at all only where a zero is added, subtracted or
multiplied by, since anywhere else the check refuses it; and from then on a price may be zero
with a sign on one side and without on the other. **Actions make the same of both**
(`Action.map_apply_reread`), so the difference stays what it was until the last action.

The text does harm (`Condition.Suits.evaluate_reread_iff`), to one kind of condition: one that
compares a text with a number. **All else of a draft stays** (`Draft.Keeps`): it may be stored
as before, its actions make the same of every price, and what it is limited to is equal.
-/

namespace Tariff

/-! ## Zeros

A sum, a difference or a product with a zero in it may come out with another sign on its own zero,
and is else the same. Quotients by zero do not exist. -/

namespace Decimal

/-- A zero without its sign is a zero. -/
theorem isZero_unsignedZero (d : Decimal) : d.unsignedZero.isZero = d.isZero := rfl

/-- A sign that has been taken off a zero cannot be taken off once more. -/
theorem unsignedZero_unsignedZero (d : Decimal) : d.unsignedZero.unsignedZero = d.unsignedZero := by
  simp [unsignedZero]

/-- A decimal without a sign stays as it is. -/
theorem unsignedZero_of_isSignNegative_eq_false {d : Decimal} (h : d.isSignNegative = false) :
    d.unsignedZero = d := by
  have hsign : d.negative = false := h
  unfold unsignedZero
  rw [hsign, Bool.false_and, ← hsign]

/-- **Two results are the same but for the sign of a zero.** Both are there, and with the signs of
zeros taken off they are one decimal. Scales are part of it: a sum that had another scale would be
written otherwise later on. -/
def SameButSign (x y : Option Decimal) : Prop :=
  ∃ d d', x = some d ∧ y = some d' ∧ d.unsignedZero = d'.unsignedZero

/-- A decimal and what is left of it when it was written and read. -/
theorem SameButSign.unsignedZero (d : Decimal) : SameButSign (some d.unsignedZero) (some d) :=
  ⟨_, d, rfl, rfl, d.unsignedZero_unsignedZero⟩

variable {a b : Decimal}

/-- **What is added to zero** is the sum, and what zero is added to. -/
theorem sameButSign_add (h : a.isZero = true ∨ b.isZero = true) :
    SameButSign (a.unsignedZero.add b.unsignedZero) (a.add b) := by
  cases ha : a.isZero with
  | true =>
    have hadd {c d : Decimal} (hc : c.isZero = true) : c.add d = some d := if_pos hc
    rw [hadd ha, hadd (a.isZero_unsignedZero.trans ha)]
    exact .unsignedZero b
  | false =>
    have hb := h.resolve_left (by simp [ha])
    have hadd {c d : Decimal} (hc : c.isZero = false) (hd : d.isZero = true) :
        c.add d = some c := by
      unfold add
      rw [hc, hd]
      rfl
    rw [hadd ha hb, hadd (a.isZero_unsignedZero.trans ha) (b.isZero_unsignedZero.trans hb)]
    exact .unsignedZero a

/-- **What zero is taken from** stays, and what is taken from zero changes its sign. -/
theorem sameButSign_sub (h : a.isZero = true ∨ b.isZero = true) :
    SameButSign (a.unsignedZero.sub b.unsignedZero) (a.sub b) := by
  cases hb : b.isZero with
  | true =>
    have hsub {c d : Decimal} (hd : d.isZero = true) : c.sub d = some (if c.isZero then d else c) :=
      if_pos hd
    rw [hsub hb, hsub (b.isZero_unsignedZero.trans hb), a.isZero_unsignedZero]
    split
    · exact .unsignedZero b
    · exact .unsignedZero a
  | false =>
    have hsub {c : Decimal} : c.sub b = c.add b.neg := by
      unfold sub
      rw [hb]
      rfl
    have hneg : b.neg.unsignedZero = b.neg := b.neg.unsignedZero_of_ne hb
    have hadd := sameButSign_add (b := b.neg) (.inl (h.resolve_right (by simp [hb])))
    rw [hneg] at hadd
    rw [b.unsignedZero_of_ne hb, hsub, hsub]
    exact hadd

/-- A product with zero is the zero of scale zero, whatever the other factor is. -/
theorem mul_of_isZero (h : a.isZero = true ∨ b.isZero = true) : a.mul b = some zero := by
  unfold mul
  rw [if_pos (by simpa using h)]

/-- So the signs of the factors make no difference there. -/
theorem sameButSign_mul (h : a.isZero = true ∨ b.isZero = true) :
    SameButSign (a.unsignedZero.mul b.unsignedZero) (a.mul b) := by
  have h' : a.unsignedZero.isZero = true ∨ b.unsignedZero.isZero = true := h
  rw [mul_of_isZero h, mul_of_isZero h']
  exact ⟨_, _, rfl, rfl, rfl⟩

/-- And zero divided is zero, or fails, whatever its sign. -/
theorem sameButSign_div (h : a.isZero = true) :
    SameButSign (a.unsignedZero.div b) (a.div b) := by
  have hdiv {c : Decimal} (hc : c.isZero = true) : c.div b = some zero := if_pos hc
  rw [hdiv h, hdiv (a.isZero_unsignedZero.trans h)]
  exact ⟨_, _, rfl, rfl, rfl⟩

end Decimal

/-! ## Actions -/

namespace Action

variable {a : Action}

/-- **Reading changes only what does nothing**: the zero that is added, subtracted or multiplied by
may have had a sign. In a percentage, a divisor or a fixed price the check refuses a sign, also that
of a zero, or refuses the zero. -/
theorem reread_eq_or (h : a.validate = .ok ()) : a.reread = a
    ∨ a.value.isZero = true ∧ (a.kind = .add ∨ a.kind = .subtract ∨ a.kind = .multiply) := by
  obtain ⟨kind, value⟩ := a
  have hsame : value.unsignedZero = value → (Action.mk kind value).reread = ⟨kind, value⟩ :=
    congrArg (Action.mk kind)
  cases hzero : value.isZero with
  | false => exact .inl (hsame (value.unsignedZero_of_ne hzero))
  | true =>
    unfold validate at h
    cases kind with
    | add => exact .inr ⟨rfl, .inl rfl⟩
    | subtract => exact .inr ⟨rfl, .inr (.inl rfl)⟩
    | multiply => exact .inr ⟨rfl, .inr (.inr rfl)⟩
    | divide =>
      rw [if_pos hzero] at h
      cases h
    | percentageDiscount | percentageMarkup | setFixed =>
      refine .inl (hsame (Decimal.unsignedZero_of_isSignNegative_eq_false ?_))
      cases hsign : value.isSignNegative with
      | false => rfl
      | true => simp [hsign] at h

/-- **An action still makes sense** after it was read, since no check asks that a number
be negative. -/
theorem validate_reread (h : a.validate = .ok ()) : a.reread.validate = .ok () := by
  obtain hsame | ⟨-, hkind⟩ := reread_eq_or h
  · rw [hsame, h]
  · have hread : a.reread.kind = a.kind := rfl
    unfold validate
    obtain hkind | hkind | hkind := hkind <;> rw [hread, hkind]

/-- Results that are the same but for the sign of a zero pass the check for overflow. -/
theorem map_checked {x y : Option Decimal} (h : Decimal.SameButSign x y) (e e' : Miscalculation) :
    (match x with
      | some d => Except.ok d
      | none => .error e).map Decimal.unsignedZero
    = (match y with
      | some d => Except.ok d
      | none => .error e').map Decimal.unsignedZero := by
  obtain ⟨d, d', rfl, rfl, hsame⟩ := h
  exact congrArg Except.ok hsame

/-- **A percentage of zero is zero.** -/
theorem sameButSign_percentage {price : Decimal} (h : price.isZero = true) (percent : Decimal)
    (isMarkup : Bool) :
    Decimal.SameButSign ((percentageFactor percent isMarkup).bind price.unsignedZero.mul)
      ((percentageFactor percent isMarkup).bind price.mul) := by
  obtain ⟨factor, hfactor⟩ := exists_percentageFactor percent isMarkup
  have h' : price.unsignedZero.isZero = true := h
  rw [hfactor, Option.bind_some, Option.bind_some, Decimal.mul_of_isZero (.inl h),
    Decimal.mul_of_isZero (.inl h')]
  exact ⟨_, _, rfl, rfl, rfl⟩

/-- **The sign of a zero price** is of no account, where the action does not change when it is read.
One case for each kind of action, with the lemma above for its operation. A fixed price does not
look at the price before at all. -/
theorem map_apply_unsignedZero (hsame : a.reread = a) {price : Decimal}
    (hprice : price.isZero = true) :
    (a.apply price.unsignedZero).map Decimal.unsignedZero
      = (a.apply price).map Decimal.unsignedZero := by
  obtain ⟨kind, value⟩ := a
  have hvalue : value.unsignedZero = value := congrArg Action.value hsame
  cases kind with
  | add =>
    have hadd := Decimal.sameButSign_add (b := value) (.inl hprice)
    rw [hvalue] at hadd
    exact map_checked hadd _ _
  | subtract =>
    have hsub := Decimal.sameButSign_sub (b := value) (.inl hprice)
    rw [hvalue] at hsub
    exact map_checked hsub _ _
  | multiply =>
    have hmul := Decimal.sameButSign_mul (b := value) (.inl hprice)
    rw [hvalue] at hmul
    exact map_checked hmul _ _
  | divide =>
    unfold apply
    dsimp only
    split
    · rfl
    · exact map_checked (Decimal.sameButSign_div hprice) _ _
  | percentageDiscount => exact map_checked (sameButSign_percentage hprice value false) _ _
  | percentageMarkup => exact map_checked (sameButSign_percentage hprice value true) _ _
  | setFixed => rfl

/-- **An action makes the same of a price** after it was read, but for the sign of a zero. Either
the action was not changed by being read, and then the price may have been; or it adds, subtracts or
multiplies by a zero. -/
theorem map_apply_reread (h : a.validate = .ok ()) (price : Decimal) :
    (a.reread.apply price.unsignedZero).map Decimal.unsignedZero
      = (a.apply price).map Decimal.unsignedZero := by
  obtain hsame | ⟨hvalue, hkind⟩ := reread_eq_or h
  · rw [hsame]
    by_cases hprice : price.isZero = true
    · exact map_apply_unsignedZero hsame hprice
    · rw [price.unsignedZero_of_ne (by simpa using hprice)]
  · obtain ⟨kind, value⟩ := a
    obtain hkind | hkind | hkind := hkind
    · obtain rfl : kind = .add := hkind
      exact map_checked (Decimal.sameButSign_add (.inr hvalue)) _ _
    · obtain rfl : kind = .subtract := hkind
      exact map_checked (Decimal.sameButSign_sub (.inr hvalue)) _ _
    · obtain rfl : kind = .multiply := hkind
      exact map_checked (Decimal.sameButSign_mul (.inr hvalue)) _ _

/-- What has been written and read once stays as it is from then on. -/
theorem reread_reread (a : Action) : a.reread.reread = a.reread := by
  unfold reread
  rw [Decimal.unsignedZero_unsignedZero]

/-- **Actions make the same of a price** after they were read: the same failure, or the same price
but for the sign of a zero. The induction over the actions is for any two prices that are the same
but for the sign, since after the first action there may be two. -/
theorem map_applyAll_reread {actions : List Action} (h : ∀ a ∈ actions, a.validate = .ok ())
    {price price' : Decimal} (hprice : price.unsignedZero = price'.unsignedZero) :
    (applyAll (actions.map reread) price).map Decimal.unsignedZero
      = (applyAll actions price').map Decimal.unsignedZero := by
  induction actions generalizing price price' with
  | nil => exact congrArg Except.ok hprice
  | cons a rest ih =>
    obtain ⟨ha, hrest⟩ := List.forall_mem_cons.1 h
    -- What is read does not change when it is written and read once more.
    have hstep : (a.reread.apply price).map Decimal.unsignedZero
        = (a.apply price').map Decimal.unsignedZero := by
      rw [← map_apply_reread (validate_reread ha), reread_reread, hprice, map_apply_reread ha]
    show (a.reread.apply price >>= fun running => applyAll (rest.map reread) running).map _
      = (a.apply price' >>= fun running => applyAll rest running).map _
    cases hfirst : a.reread.apply price with
    | error m =>
      cases hfirst' : a.apply price' with
      | error m' =>
        rw [hfirst, hfirst'] at hstep
        cases hstep
        rfl
      | ok running' =>
        rw [hfirst, hfirst'] at hstep
        cases hstep
    | ok running =>
      cases hfirst' : a.apply price' with
      | error m' =>
        rw [hfirst, hfirst'] at hstep
        cases hstep
      | ok running' =>
        rw [hfirst, hfirst'] at hstep
        exact ih hrest (Except.ok.inj hstep)

end Action

/-! ## Drafts -/

/-- **Conditions all hold of a request or not as before**, if it spells no number of theirs
otherwise. Where one of them fails they fail as before, too. -/
theorem Condition.allHold_reread {conditions : List Condition} (h : ∀ c ∈ conditions, c.Suits)
    {r : Request} (hr : ∀ c ∈ conditions, ¬c.SpelledOtherwise r) :
    allHold r (conditions.map reread) = allHold r conditions := by
  induction conditions with
  | nil => rfl
  | cons c rest ih =>
    obtain ⟨hc, hrest⟩ := List.forall_mem_cons.1 h
    obtain ⟨hcr, hrestr⟩ := List.forall_mem_cons.1 hr
    rw [List.map_cons, allHold, allHold, (hc.evaluate_reread_iff r).2 hcr, ih hrest hrestr]

namespace Draft

variable {d d' : Draft}

/-- **What stays of a draft `d` that is read as `d'`.** It is not said that the two are equal, which
they need not be. Each field says in what respect they may be taken for one another. -/
structure Keeps (d d' : Draft) : Prop where
  /-- It may be stored. -/
  valid : d'.validate = .ok ()
  /-- A condition says the same of a request unless this spells one of its numbers otherwise. -/
  conditions : List.Forall₂ (fun c c' => ∀ r, c'.evaluate r = c.evaluate r ↔ ¬c.SpelledOtherwise r)
    d.conditions d'.conditions
  /-- Where it spells none of their numbers otherwise, the conditions hold as before. -/
  allHold : ∀ r, (∀ c ∈ d.conditions, ¬c.SpelledOtherwise r) →
    Condition.allHold r d'.conditions = Condition.allHold r d.conditions
  /-- The conditions that some request spells otherwise compare a text with a number. -/
  spelled : ∀ c ∈ d.conditions, (∃ r, c.SpelledOtherwise r) ↔ c.ComparesTextWithNumber
  /-- The actions make the same of every price, or fail in the same way. -/
  actions : ∀ price, (Action.applyAll d'.actions price).map Decimal.unsignedZero
    = (Action.applyAll d.actions price).map Decimal.unsignedZero
  /-- Nothing else has changed. -/
  others : d' = { d with conditions := d'.conditions, actions := d'.actions }

/-- **A draft that may be stored may still be** after it was read. Its check is that of
its parts. -/
theorem validate_reread (h : d.validate = .ok ()) : d.reread.validate = .ok () := by
  rw [validate_eq_ok_iff] at h ⊢
  obtain ⟨hname, hactions, hsuits, hvalid, hwindow⟩ := h
  refine ⟨hname, ?_, ?_, ?_, hwindow⟩
  · exact (List.isEmpty_map ..).trans hactions
  · exact List.forall_mem_map.2 fun c hc => (hsuits c hc).reread
  · exact List.forall_mem_map.2 fun a ha => Action.validate_reread (hvalid a ha)

/-- **What stays of a draft that was read**, put together from what is known of its conditions and
its actions. -/
theorem keeps_reread (h : d.validate = .ok ()) : d.Keeps d.reread := by
  obtain ⟨-, -, hsuits, hvalid, -⟩ := validate_eq_ok_iff.1 h
  exact {
    valid := validate_reread h
    conditions := List.forall₂_map_right_iff.2 (List.forall₂_same.2 fun c hc =>
      (hsuits c hc).evaluate_reread_iff)
    allHold := fun r hr => Condition.allHold_reread hsuits hr
    spelled := fun c _ => c.exists_spelledOtherwise_iff
    actions := fun price => Action.map_applyAll_reread hvalid rfl
    others := rfl }

/-- **Drafts survive, but for how numbers are spelled.** A draft that may be stored, and whose dates
the notation has, is read from its document, and from the text of its document, as a draft that may
be stored. Its actions make the same of every price, and everything but its conditions and actions
is equal. A condition says the same of every request that does not spell one of its numbers
otherwise, and something else of every request that does.

So the condition is exact on both sides. It can be told of a draft, before it is written, whether
there are requests that will be taken otherwise: if and only if one of its conditions compares a
text with a number. -/
theorem read_keeps (hvalid : d.validate = .ok ()) (hdates : d.HasWritableDates) :
    ∃ d', ofDocument? d.toJson = some d'
      ∧ (Json.parse? d.toJson.text).bind ofDocument? = some d' ∧ d.Keeps d' := by
  have hread := ofDocument?_toJson hdates
  have htext : (Json.parse? d.toJson.text).bind ofDocument? = some d.reread := by
    rw [d.isPlain_toJson.parse?_text, Option.bind_some, hread]
  exact ⟨d.reread, hread, htext, keeps_reread hvalid⟩

/-- Ten percent off for the customers of tier 1, from June 2024. -/
def forTier : Draft where
  name := "less"
  ruleType := .promotion
  conditions := [⟨.customerTier, .eq, .number .one⟩]
  actions := [⟨.percentageDiscount, .ofUInt32 10⟩]
  validFrom := some (.ofSeconds 1717200000 0)

/-- Its date is within the years that the notation has. -/
theorem hasWritableDates_forTier : forTier.HasWritableDates where
  validFrom := by
    rintro t ⟨⟩
    exact ⟨by decide, by decide⟩
  validUntil := nofun

/-- It survives, and what it says of most customers is what it said before. -/
theorem read_keeps_forTier : forTier.validate = .ok () ∧ forTier.HasWritableDates
    ∧ ∃ d', ofDocument? forTier.toJson = some d'
      ∧ (Json.parse? forTier.toJson.text).bind ofDocument? = some d' ∧ forTier.Keeps d' :=
  have hvalid : forTier.validate = .ok () := rfl
  ⟨hvalid, hasWritableDates_forTier, read_keeps hvalid hasWritableDates_forTier⟩

/-- **A draft can come to say something else.** A customer whose tier is spelled 1.0 is of tier 1,
until the draft is written and read. The number is written as a text, and read as that text. -/
theorem misread_forTier : forTier.validate = .ok () ∧ forTier.HasWritableDates
    ∧ Condition.allHold { customerTier := some "1.0" } forTier.conditions = .ok true
    ∧ ∃ d', ofDocument? forTier.toJson = some d' ∧ d'.validate = .ok ()
      ∧ Condition.allHold { customerTier := some "1.0" } d'.conditions = .ok false :=
  ⟨rfl, hasWritableDates_forTier, rfl, forTier.reread,
    ofDocument?_toJson hasWritableDates_forTier, rfl, rfl⟩

end Draft

end Tariff
