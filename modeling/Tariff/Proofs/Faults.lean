import Tariff.Proofs.Amounts

/-!
# Where pricing is at fault

Sums and products of prices are checked, and where one has no result the caller is
told; two sums are not. The sum of an amount and the tax on it is not checked where
the tax is added to the amount, and neither is the sum of the lines of an order.
Where such a sum is above the largest decimal, there is no answer at all.

This module proves that these are the only faults, and says exactly when they occur:
a quote is at fault just where the price, the rate and the mode it works with make
the computation of tax be so, and an order just where a line of it cannot be added
to the lines before. A price is never at fault.

The functions are taken apart by `Pricing.bind_eq_error_iff`, which finds the step
that failed and the state it failed in. All steps but those two cannot be it, by
what they end in.
-/

namespace Tariff

/-! ## The step that failed

Elsewhere a computation is read from its result. Here it is read from its failure, so there is a
lemma for each way in which a part of it can be the one that failed. -/

namespace Pricing

variable {α β : Type} {f : Failure} {c : Option Cache}

/-- **A computation fails** where its first part does, or the part that follows. The state in which
the second part has failed is named, as it is the one that the first has left. -/
theorem bind_eq_error_iff {m : Pricing α} {k : α → Pricing β} :
    ((m >>= k) c).1 = .error f ↔
      (m c).1 = .error f ∨ ∃ a c', m c = (.ok a, c') ∧ (k a c').1 = .error f := by
  rw [bind_apply]
  cases hm : m c with
  | mk result c' =>
    cases result with
    | error f' =>
      constructor
      · intro h
        cases h
        exact .inl rfl
      · rintro (h | ⟨_, _, heq, -⟩)
        · cases h
          rfl
        · cases heq
    | ok a =>
      constructor
      · exact fun h => .inr ⟨a, c', rfl, h⟩
      · rintro (h | ⟨_, _, heq, h⟩)
        · cases h
        · cases heq
          exact h

/-- It succeeds where both do. -/
theorem bind_eq_ok_iff {m : Pricing α} {k : α → Pricing β} {b : β} {c' : Option Cache} :
    (m >>= k) c = (.ok b, c') ↔ ∃ a c₁, m c = (.ok a, c₁) ∧ k a c₁ = (.ok b, c') := by
  rw [bind_apply]
  cases hm : m c with
  | mk result c₁ =>
    cases result with
    | error f' => exact iff_of_false (fun h => by cases h) (fun ⟨_, _, h, _⟩ => by cases h)
    | ok a =>
      constructor
      · exact fun h => ⟨a, c₁, rfl, h⟩
      · rintro ⟨_, _, heq, h⟩
        cases heq
        exact h

/-- **Steps fail at one of them**, after those before it have succeeded. So the list is split at the
one that failed. -/
theorem foldlM_eq_error_iff {g : β → α → Pricing β} {l : List α} {b : β} :
    ((l.foldlM g b) c).1 = .error f ↔
      ∃ done a rest b' c', l = done ++ a :: rest ∧ (done.foldlM g b) c = (.ok b', c')
        ∧ (g b' a c').1 = .error f := by
  induction l generalizing b c with
  | nil => exact iff_of_false (fun h => by cases h) (fun ⟨_, _, _, _, _, h, _⟩ => by simp at h)
  | cons a rest ih =>
    rw [List.foldlM_cons, bind_eq_error_iff]
    constructor
    · rintro (h | ⟨b', c', hb, h⟩)
      · exact ⟨[], a, rest, b, c, rfl, rfl, h⟩
      · obtain ⟨done, a', rest', b'', c'', rfl, hdone, h⟩ := ih.1 h
        refine ⟨a :: done, a', rest', b'', c'', rfl, ?_, h⟩
        rw [List.foldlM_cons, bind_eq_ok_iff]
        exact ⟨b', c', hb, hdone⟩
    · rintro ⟨done, a', rest', b', c', hl, hdone, h⟩
      cases done with
      | nil =>
        cases hl
        cases hdone
        exact .inl h
      | cons _ done =>
        cases hl
        rw [List.foldlM_cons, bind_eq_ok_iff] at hdone
        obtain ⟨b₁, c₁, hb, hdone⟩ := hdone
        exact .inr ⟨b₁, c₁, hb, ih.2 ⟨done, a', rest', b', c', rfl, hdone, h⟩⟩

/-- A number whose lack is a fault is at fault where it is lacking. -/
theorem checkFault_eq_fault_iff {fault : Fault} {a : Option α} {f : Fault} :
    ((checkFault fault a) c).1 = .error (.fault f) ↔ f = fault ∧ a = none := by
  cases a with
  | none =>
    constructor
    · intro h
      cases h
      exact ⟨rfl, rfl⟩
    · rintro ⟨rfl, -⟩
      rfl
  | some a => exact iff_of_false (fun h => by cases h) (fun h => by cases h.2)

/-- What ends in plain failures is not at fault. -/
theorem Ends.ne_fault {m : Pricing α} {good : α → Prop} (h : m.Ends good Failure.IsPlain)
    (c : Option Cache) (f : Fault) : (m c).1 ≠ .error (.fault f) := by
  intro hfault
  have hc := h c
  rw [hfault] at hc
  exact hc

end Pricing

/-! ## Quotes

A quote looks up a price, a rate and a mode. None of these is ever at fault, so what is left is the
tax. -/

/-- **Where a quote is at fault**: its price, rate and mode are such that tax is. The three are
looked up one after the other, each with the cache that is left by the one before, and none of them
is at fault. The mode has to be that which adds tax to the amount. -/
theorem View.quote_eq_fault_iff (v : View) (usual : TaxMode) (op : Operation) (r : Request)
    (c : Option Cache) (f : Fault) :
    (v.quote usual op r c).1 = .error (.fault f) ↔
      f = .addition ∧ ∃ amount c₁ rate c₂ c₃, v.price op r c = (.ok amount, c₁)
        ∧ v.taxRate (r.withOperation op) c₁ = (.ok rate, c₂)
        ∧ v.taxMode usual (r.withOperation op) c₂ = (.ok .exclusive, c₃)
        ∧ TaxBreakdown.compute amount rate .exclusive = .error (.fault .addition) := by
  unfold quote
  constructor
  · intro h
    obtain h | ⟨base, c₁, hbase, h⟩ := Pricing.bind_eq_error_iff.1 h
    · exact absurd h ((v.ends_basePrice op r).ne_fault c f)
    obtain h | ⟨rate, c₂, hrate, h⟩ := Pricing.bind_eq_error_iff.1 h
    · exact absurd h ((v.ends_taxRate _).ne_fault c₁ f)
    obtain h | ⟨mode, c₃, hmode, h⟩ := Pricing.bind_eq_error_iff.1 h
    · exact absurd h ((v.ends_taxMode _ usual).ne_fault c₂ f)
    have hamount := Decimal.isNegative_eq_false_iff.2
      (Decimal.zero_le_iff.1 (v.zero_le_applyRules base.amount op r .all))
    have hprice : v.price op r c = (.ok (v.applyRules base.amount op r .all).adjustedPrice, c₁) :=
      Pricing.bind_eq_ok_iff.2 ⟨base, c₁, hbase, rfl⟩
    obtain ⟨tax, htax, -⟩ | hnegative | hproduct | ⟨hsum, rfl⟩ :=
      TaxBreakdown.compute_cases hamount rate mode
    · rw [htax] at h
      cases h
    · rw [hnegative] at h
      cases h
    · rw [hproduct] at h
      cases h
    · rw [hsum] at h
      cases h
      exact ⟨rfl, _, c₁, rate, c₂, c₃, hprice, hrate, hmode, hsum⟩
  · rintro ⟨rfl, amount, c₁, rate, c₂, c₃, hprice, hrate, hmode, hsum⟩
    obtain ⟨base, c₁, hbase, heq⟩ := Pricing.bind_eq_ok_iff.1 hprice
    cases heq
    refine Pricing.bind_eq_error_iff.2 (.inr ⟨base, _, hbase, ?_⟩)
    refine Pricing.bind_eq_error_iff.2 (.inr ⟨rate, c₂, hrate, ?_⟩)
    refine Pricing.bind_eq_error_iff.2 (.inr ⟨.exclusive, c₃, hmode, ?_⟩)
    rw [hsum]
    rfl

/-! ## Orders

Two results in an order are not checked: the sum of the amounts, and the difference of subtotal and
price. The difference is always a decimal, and the sum need not be one. -/

namespace Order

/-- A line cannot be added where the sum is too large for a decimal. The sum is not below zero, so
there is one bound only. -/
theorem Tally.add_eq_fault_iff {t : Tally} {line : PricedLine} (ht : t.Nonneg)
    (hline : Decimal.zero ≤ line.total) {c : Option Cache} {f : Fault} :
    (t.add line c).1 = .error (.fault f) ↔
      f = .addition ∧ Decimal.bound - 1 / 2 ≤ t.subtotal.value + line.total.value := by
  have hsum : t.subtotal.add line.total = none ↔
      Decimal.bound - 1 / 2 ≤ t.subtotal.value + line.total.value := by
    rw [Decimal.add_eq_none_iff, abs_of_nonneg]
    exact add_nonneg (Decimal.zero_le_iff.1 ht.subtotal) (Decimal.zero_le_iff.1 hline)
  unfold add
  rw [Pricing.bind_eq_error_iff, Pricing.checkFault_eq_fault_iff, hsum]
  refine or_iff_left ?_
  rintro ⟨subtotal, c', -, h⟩
  dsimp only at h
  split at h
  · cases h
  · cases h

/-- **Where the lines of an order are at fault**: one of them, after those before it have been
added up, has a total that cannot be added to them. -/
theorem addLines_eq_fault_iff (v : View) (op : Operation) (shared : Request) (lines : List Line)
    (c : Option Cache) (f : Fault) :
    (addLines v op shared lines c).1 = .error (.fault f) ↔
      f = .addition ∧ ∃ done line rest t c₁ priced c₂, lines = done ++ line :: rest
        ∧ addLines v op shared done c = (.ok t, c₁)
        ∧ priceLine v op shared line c₁ = (.ok priced, c₂)
        ∧ Decimal.bound - 1 / 2 ≤ t.subtotal.value + priced.total.value := by
  refine Pricing.foldlM_eq_error_iff.trans ?_
  constructor
  · rintro ⟨done, line, rest, t, c₁, hlines, hdone, h⟩
    obtain h | ⟨priced, c₂, hpriced, h⟩ := Pricing.bind_eq_error_iff.1 h
    · exact absurd h ((ends_priceLine v op shared line).ne_fault c₁ f)
    rw [Tally.add_eq_fault_iff ((ends_addLines v op shared done).of_eq_ok hdone)
      ((ends_priceLine v op shared line).of_eq_ok hpriced)] at h
    exact ⟨h.1, done, line, rest, t, c₁, priced, c₂, hlines, hdone, hpriced, h.2⟩
  · rintro ⟨rfl, done, line, rest, t, c₁, priced, c₂, hlines, hdone, hpriced, hlarge⟩
    refine ⟨done, line, rest, t, c₁, hlines, hdone, ?_⟩
    refine Pricing.bind_eq_error_iff.2 (.inr ⟨priced, c₂, hpriced, ?_⟩)
    exact (Tally.add_eq_fault_iff ((ends_addLines v op shared done).of_eq_ok hdone)
      ((ends_priceLine v op shared line).of_eq_ok hpriced)).2 ⟨rfl, hlarge⟩

end Order

/-- **Where an order is at fault**: it is a valid one, and its lines are at fault. The discount
at the end is a difference of two amounts that are not below zero, and such a difference is
always a decimal. -/
theorem View.order_eq_fault_iff (v : View) (op : Operation) (lines : List Order.Line)
    (shared : Request) (c : Option Cache) (f : Fault) :
    (v.order op lines shared c).1 = .error (.fault f) ↔
      Order.validate lines = .ok ()
        ∧ (Order.addLines v op shared lines c).1 = .error (.fault f) := by
  cases hvalid : Order.validate lines with
  | error p =>
    rw [order_eq_throw hvalid]
    exact iff_of_false (fun h => by cases h) (fun h => by cases h.1)
  | ok =>
    rw [order_eq_validOrder hvalid, and_iff_right rfl]
    refine Pricing.bind_eq_error_iff.trans (or_iff_left ?_)
    -- The discount is the difference of two amounts that are not below zero.
    rintro ⟨t, c₁, ht, h⟩
    have ht := (Order.ends_addLines v op shared lines).of_eq_ok ht
    obtain h | ⟨_, _, -, h⟩ := Pricing.bind_eq_error_iff.1 h
    · exact Decimal.sub_ne_none_of_zero_le ht.subtotal (v.zero_le_applyRules _ _ _ _)
        (Pricing.checkFault_eq_fault_iff.1 h).2
    · cases h

/-! ## The engine

What was proved of a view is said of the engine, which adds no fault of its own: it only looks at
the clock and keeps the cache. -/

/-- What is read is what the computation gives for the cache as it is. -/
theorem Engine.read_fst {α : Type} (e : Engine) (m : Cached α) : (e.read m).1 = (m e.cache).1 := rfl

/-- What is read leaves the engine with another cache, and nothing else about it changed. -/
theorem Engine.read_eq_iff {α : Type} {e e' : Engine} {m : Cached α} {a : α} :
    e.read m = (a, e') ↔ ∃ c, m e.cache = (a, c) ∧ e' = { e with cache := c } := by
  have hread : e.read m = ((m e.cache).1, { e with cache := (m e.cache).2 }) := rfl
  rw [hread]
  constructor
  · intro h
    cases h
    exact ⟨_, rfl, rfl⟩
  · rintro ⟨c, h, rfl⟩
    rw [h]

/-- **Where an engine is at fault when it prices.** A price never is. A quote is at fault where the
tax on its price is, at the rate and in the mode that the settings give. An order is at fault where
it is a valid one and a line of it, priced after those before it, cannot be added to them. And the
computation of tax is at fault where tax is added to an amount, and the sum of both is above the
largest decimal.

These are equivalences, and they are said of any engine. So wherever the sums stay below the bound
there is an answer or an error that the caller is told; and wherever one of them does not, there
is neither. -/
theorem Engine.pricing_eq_fault_iff (e : Engine) (op : Operation) (r : Request)
    (lines : List Order.Line) (t : Instant) (f : Fault) :
    (e.getPrice op r t).1 ≠ .error (.fault f)
      ∧ ((e.getQuote op r t).1 = .error (.fault f) ↔
          f = .addition ∧ ∃ amount e₁ rate e₂ e₃, e.getPrice op r t = (.ok amount, e₁)
            ∧ e₁.read ((e.view t).taxRate (r.withOperation op)) = (.ok rate, e₂)
            ∧ e₂.read ((e.view t).taxMode e.config.defaultTaxMode (r.withOperation op))
              = (.ok .exclusive, e₃)
            ∧ TaxBreakdown.compute amount rate .exclusive = .error (.fault .addition))
      ∧ ((e.getOrderPrice op lines r t).1 = .error (.fault f) ↔
          f = .addition ∧ Order.validate lines = .ok ()
            ∧ ∃ done line rest tally e₁ priced e₂, lines = done ++ line :: rest
              ∧ e.read (Order.addLines (e.view t) op r done) = (.ok tally, e₁)
              ∧ e₁.read (Order.priceLine (e.view t) op r line) = (.ok priced, e₂)
              ∧ Decimal.bound - 1 / 2 ≤ tally.subtotal.value + priced.total.value)
      ∧ ∀ amount rate mode, TaxBreakdown.compute amount rate mode = .error (.fault f) ↔
          f = .addition ∧ mode = .exclusive ∧ amount.isNegative = false
            ∧ rate.isNegative = false ∧ ∃ fraction tax, rate.div .hundred = some fraction
              ∧ amount.mul fraction = some tax
              ∧ Decimal.bound - 1 / 2 ≤ amount.roundMoney.value + tax.roundMoney.value := by
  refine ⟨((e.view t).ends_price op r).ne_fault e.cache f, ?_, ?_,
    fun amount rate mode => TaxBreakdown.compute_eq_fault_iff amount rate mode f⟩
  · refine ((e.view t).quote_eq_fault_iff e.config.defaultTaxMode op r e.cache f).trans ?_
    unfold getPrice
    simp only [read_eq_iff]
    constructor
    · rintro ⟨rfl, amount, c₁, rate, c₂, c₃, hprice, hrate, hmode, hsum⟩
      exact ⟨rfl, amount, _, rate, _, _, ⟨c₁, hprice, rfl⟩, ⟨c₂, hrate, rfl⟩, ⟨c₃, hmode, rfl⟩,
        hsum⟩
    · rintro ⟨rfl, amount, _, rate, _, _, ⟨c₁, hprice, rfl⟩, ⟨c₂, hrate, rfl⟩, ⟨c₃, hmode, -⟩,
        hsum⟩
      exact ⟨rfl, amount, c₁, rate, c₂, c₃, hprice, hrate, hmode, hsum⟩
  · refine ((e.view t).order_eq_fault_iff op lines r e.cache f).trans ?_
    rw [Order.addLines_eq_fault_iff]
    simp only [read_eq_iff]
    constructor
    · rintro ⟨hvalid, rfl, done, line, rest, tally, c₁, priced, c₂, hlines, hdone, hpriced, hlarge⟩
      exact ⟨rfl, hvalid, done, line, rest, tally, _, priced, _, hlines, ⟨c₁, hdone, rfl⟩,
        ⟨c₂, hpriced, rfl⟩, hlarge⟩
    · rintro ⟨rfl, hvalid, done, line, rest, tally, _, priced, _, hlines, ⟨c₁, hdone, rfl⟩,
        ⟨c₂, hpriced, -⟩, hlarge⟩
      exact ⟨hvalid, rfl, done, line, rest, tally, c₁, priced, c₂, hlines, hdone, hpriced, hlarge⟩

/-- Whether a computation ended in the fault of a sum. It is told by running the computation, which
is how the two faults below are shown. -/
def Fault.isAddition {α : Type} : Except Failure α → Bool
  | .error (.fault .addition) => true
  | _ => false

theorem Fault.isAddition_iff {α : Type} {result : Except Failure α} :
    isAddition result = true ↔ result = .error (.fault .addition) := by
  constructor
  · intro h
    unfold isAddition at h
    split at h
    · rfl
    · cases h
  · rintro rfl
    rfl

/-- **Both sums are at fault**: where the price is the largest decimal, with tax at one percent
added to it, and with two lines. -/
theorem Engine.pricing_at_fault :
    TaxBreakdown.compute ⟨false, 2 ^ 96 - 1, 0, by decide, by decide⟩ .one .exclusive
        = .error (.fault .addition)
      ∧ ∃ e, e = Engine.initial.run
          [.setSetting "refill.base_price" (.number ⟨false, 2 ^ 96 - 1, 0, by decide, by decide⟩)
            { author := ⟨"ann", none⟩ } (.number 1),
          .setSetting "tax.rate" (.number .one) { author := ⟨"ann", none⟩ } (.number 2)]
        ∧ (e.getQuote .refill {} ⟨3⟩).1 = .error (.fault .addition)
        ∧ (e.getOrderPrice .refill [⟨"a", 1, none⟩, ⟨"b", 1, none⟩] {} ⟨3⟩).1
          = .error (.fault .addition) := by
  simp only [← Fault.isAddition_iff]
  exact ⟨by decide +kernel, _, rfl, by decide +kernel, by decide +kernel⟩

end Tariff
