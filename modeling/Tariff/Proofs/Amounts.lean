import Tariff.Proofs.Run
import Tariff.Proofs.Tax

/-!
# What pricing ends in

A price, a quote and the price of an order end in a result or in a failure. This
module proves of the results that **no amount in them is below zero**, though
settings may hold negative prices and rules may take a price below zero on the way;
and of the failures, that none of them is a complaint about such an amount.

`Pricing.Ends` says what holds of the result of a computation and what of its
failure, whatever is in the cache. It is proved from the steps of a computation
upwards, so each function needs one lemma. The amounts are not below zero since
every trace ends with a clamp, the sums of such amounts are not, and tax keeps them
so (`TaxBreakdown.compute_cases`).

A failure is plain (`Failure.IsPlain`), or it is the fault of a sum. Which sums that
are is the matter of another module.
-/

namespace Tariff

/-! ## Computations that end well or badly

There is one lemma for each way in which pricing puts its steps together: results, failures,
look-ups, checks and loops. With these a function is gone through in the order in which it is
written. -/

/-- **What a computation ends in**: `good` holds of its result and `bad` of its failure.

It is said of all caches at once. So nothing is promised of what a look-up answers, and what is
proved holds also where the cache serves an answer that is out of date. -/
def Pricing.Ends {α : Type} (m : Pricing α) (good : α → Prop) (bad : Failure → Prop) : Prop :=
  ∀ c, match (m c).1 with
    | .ok a => good a
    | .error f => bad f

namespace Pricing.Ends

variable {α β : Type} {P : α → Prop} {bad : Failure → Prop}

theorem pure {a : α} (h : P a) : Ends (pure a) P bad := fun _ => h

theorem throw {f : Failure} (h : bad f) : Ends (throw f : Pricing α) P bad := fun _ => h

/-- A look-up never fails, and may answer anything. -/
theorem resolve (v : View) (key : String) (r : Request) :
    Ends (liftM (v.resolve key r)) (fun _ => True) bad := fun _ => trivial

/-- **One computation after the other**: what holds of the first result is all that the second knows
of it, and a failure of either is a failure of both. -/
theorem bind {m : Pricing α} {k : α → Pricing β} {P' : β → Prop} (hm : m.Ends P bad)
    (hk : ∀ a, P a → (k a).Ends P' bad) : (m >>= k).Ends P' bad := by
  intro c
  have hc := hm c
  rw [bind_apply]
  cases hresult : (m c).1 with
  | error f =>
    rw [hresult] at hc
    exact hc
  | ok a =>
    rw [hresult] at hc
    exact hk a hc (m c).2

/-- Less may be said of the result and of the failure. -/
theorem mono {P' : α → Prop} {bad' : Failure → Prop} {m : Pricing α} (h : m.Ends P bad)
    (hgood : ∀ a, P a → P' a) (hbad : ∀ f, bad f → bad' f) : m.Ends P' bad' := by
  intro c
  have hc := h c
  split
  · next a hresult =>
    rw [hresult] at hc
    exact hgood a hc
  · next f hresult =>
    rw [hresult] at hc
    exact hbad f hc

/-- In particular a result that there is has the property. -/
theorem of_eq_ok {m : Pricing α} (h : m.Ends P bad) {c c' : Option Cache} {a : α}
    (heq : m c = (.ok a, c')) : P a := by
  have hc := h c
  rw [heq] at hc
  exact hc

/-- A number that may be missing: there is a failure where it is. -/
theorem check {e : Error} {a : Option α} (hsome : ∀ b, a = some b → P b)
    (hnone : a = none → bad (.error e)) : (Pricing.check e a).Ends P bad := by
  cases a with
  | none => exact throw (hnone rfl)
  | some b => exact pure (hsome b rfl)

/-- A number whose lack is a fault: the computation stops there, and not with an error
of its own. -/
theorem checkFault {fault : Fault} {a : Option α} (hsome : ∀ b, a = some b → P b)
    (hnone : a = none → bad (.fault fault)) : (Pricing.checkFault fault a).Ends P bad := by
  cases a with
  | none => exact throw (hnone rfl)
  | some b => exact pure (hsome b rfl)

/-- What is carried out unless it is refused. -/
theorem refuse {c : Prop} [Decidable c] {e : Error} {m : Pricing β} {P' : β → Prop}
    (he : bad (.error e)) (hm : ¬c → m.Ends P' bad) :
    Ends (if c then (Pricing.fail e : Pricing α) >>= fun _ => m else m) P' bad := by
  split
  · exact (throw (P := fun _ : α => False) he).bind (fun _ h => h.elim)
  · next hc => exact hm hc

/-- **An invariant of the steps** holds where a list of them has been carried out. -/
theorem foldlM {f : β → α → Pricing β} {inv : β → Prop}
    (hf : ∀ b a, inv b → (f b a).Ends inv bad) (l : List α) {b : β} (hb : inv b) :
    (l.foldlM f b).Ends inv bad := by
  induction l generalizing b with
  | nil => exact pure hb
  | cons a rest ih => exact (hf b a hb).bind (fun _ => ih)

end Pricing.Ends

/-! ## Traces -/

/-- **A trace ends at zero or above**, whatever price it starts from and whatever the rules do to
it. The clamp at its end is the only step of all pricing that looks at the sign. -/
theorem Trace.zero_le_evaluate (rules : List Rule) (price : Decimal) (op : Operation) (r : Request)
    (filter : RuleFilter) :
    Decimal.zero ≤ (Trace.evaluate rules price op r filter).adjustedPrice := by
  unfold evaluate clamp
  split
  · exact Decimal.zero_le_iff.2 Decimal.value_zero.ge
  · next hnonneg =>
    rw [Bool.not_eq_true] at hnonneg
    exact Decimal.zero_le_iff.2 (Decimal.isNegative_eq_false_iff.1 hnonneg)

theorem View.zero_le_applyRules (v : View) (price : Decimal) (op : Operation) (r : Request)
    (filter : RuleFilter) : Decimal.zero ≤ (v.applyRules price op r filter).adjustedPrice :=
  Trace.zero_le_evaluate _ _ _ _ _

/-! ## Prices and quotes

Each function has one lemma. It names the amounts of the result that are not below zero, and the
failures that are left. -/

/-- **A failure for another reason** than an amount below zero, that is not a fault. Tax is not
computed for amounts below zero; that this refusal never happens when an engine quotes a price is
part of what is to be proved. -/
def Failure.IsPlain : Failure → Prop
  | .error (.invalid (.negativeAmount _)) => False
  | .error _ => True
  | .fault _ => False

/-- A plain failure, or the fault of a sum that is too large. The fault cannot be left out: two
amounts may each be a decimal while their sum is none. -/
def Failure.IsPlainOrSum (f : Failure) : Prop := f.IsPlain ∨ f = .fault .addition

/-- A text that is no mode of tax is refused as such, which is a plain failure. -/
theorem TaxMode.parse_eq_error {text : String} {p : Problem} (h : parse text = .error p) :
    ∃ s, p = .unknownTaxMode s := by
  unfold parse at h
  dsimp only at h
  split at h
  · cases h
  · cases h
    exact ⟨_, rfl⟩

namespace View

variable (v : View) (op : Operation) (r : Request)

theorem ends_price? (key : String) : (v.price? key r).Ends (fun _ => True) Failure.IsPlain := by
  refine (Pricing.Ends.resolve v key r).bind (fun found _ => ?_)
  cases found with
  | none => exact .pure trivial
  | some value =>
    exact (Pricing.Ends.check (fun _ _ => trivial) (fun _ => trivial)).bind
      (fun _ _ => .pure trivial)

theorem ends_pricePerSize? : (v.pricePerSize? op r).Ends (fun _ => True) Failure.IsPlain := by
  unfold pricePerSize?
  cases r.cylinderSize with
  | none => exact .pure trivial
  | some size =>
    refine (v.ends_price? r op.feePerKgKey).bind (fun fee _ => ?_)
    cases fee with
    | none => exact .pure trivial
    | some fee =>
      exact (Pricing.Ends.check (fun _ _ => trivial) (fun _ => trivial)).bind
        (fun _ _ => .pure trivial)

theorem ends_unitPrice : (v.unitPrice op r).Ends (fun _ => True) Failure.IsPlain := by
  refine (v.ends_price? r op.basePriceKey).bind (fun found _ => ?_)
  cases found with
  | some price => exact .pure trivial
  | none =>
    refine (v.ends_pricePerSize? op r).bind (fun perSize _ => ?_)
    cases perSize with
    | some found => exact .pure trivial
    | none => exact .throw trivial

theorem ends_basePrice : (v.basePrice op r).Ends (fun _ => True) Failure.IsPlain := by
  unfold basePrice
  refine Pricing.Ends.refuse trivial (fun _ => ?_)
  refine (v.ends_unitPrice op _).bind (fun _ _ => ?_)
  exact (Pricing.Ends.check (fun _ _ => trivial) (fun _ => trivial)).bind
    (fun _ _ => .pure trivial)

/-- **A price is not below zero**, and its computation is never at fault. The base price it starts
from may well be below zero, being whatever was stored; the trace brings it up. -/
theorem ends_price : (v.price op r).Ends (Decimal.zero ≤ ·) Failure.IsPlain :=
  (v.ends_basePrice op r).bind (fun _ _ => .pure (v.zero_le_applyRules _ _ _ _))

theorem ends_taxRate : (v.taxRate r).Ends (fun _ => True) Failure.IsPlain := by
  refine (Pricing.Ends.resolve v taxRateKey r).bind (fun found _ => ?_)
  cases found with
  | none => exact .pure trivial
  | some value => exact .check (fun _ _ => trivial) (fun _ => trivial)

theorem ends_taxMode (usual : TaxMode) :
    (v.taxMode usual r).Ends (fun _ => True) Failure.IsPlain := by
  refine (Pricing.Ends.resolve v taxModeKey r).bind (fun found _ => ?_)
  cases found with
  | none => exact .pure trivial
  | some value =>
    refine (Pricing.Ends.check (P := fun _ => True) (fun _ _ => trivial)
      (fun _ => trivial)).bind (fun text _ => ?_)
    split
    · exact .pure trivial
    · next p hp =>
      obtain ⟨s, rfl⟩ := TaxMode.parse_eq_error hp
      exact .throw trivial

/-- **No amount of a quote is below zero**, and only the sum of amount and tax is ever at fault. The
tax is computed from the price after the rules, which is not below zero, so that it is not refused;
what it makes of such an amount is not below zero either (`TaxBreakdown.compute_cases`). -/
theorem ends_quote (usual : TaxMode) :
    (v.quote usual op r).Ends (fun q => Decimal.zero ≤ q.adjustedPrice ∧ q.tax.Nonneg)
      Failure.IsPlainOrSum := by
  refine ((v.ends_basePrice op r).mono (fun _ h => h) (fun _ => .inl)).bind (fun base _ => ?_)
  refine ((v.ends_taxRate _).mono (fun _ h => h) (fun _ => .inl)).bind (fun rate _ => ?_)
  refine ((v.ends_taxMode _ usual).mono (fun _ h => h) (fun _ => .inl)).bind (fun mode _ => ?_)
  have hprice := v.zero_le_applyRules base.amount op r .all
  have hamount := Decimal.isNegative_eq_false_iff.2 (Decimal.zero_le_iff.1 hprice)
  obtain ⟨tax, htax, hnonneg⟩ | hrate | hproduct | ⟨hsum, rfl⟩ :=
    TaxBreakdown.compute_cases hamount rate mode
  · rw [htax]
    exact .pure ⟨hprice, hnonneg⟩
  · rw [hrate]
    exact .throw (.inl trivial)
  · rw [hproduct]
    exact .throw (.inl trivial)
  · rw [hsum]
    exact .throw (.inr rfl)

end View

/-! ## Orders

An order adds up what its lines cost, so there are sums here that prices do not have; and one of
them, that of the amounts, may be a fault. -/

namespace Order

/-- **Nothing in the sum so far is below zero.** This is the invariant of the loop over the lines
of an order. -/
structure Tally.Nonneg (t : Tally) : Prop where
  lines : ∀ line ∈ t.lines, Decimal.zero ≤ line.total
  subtotal : Decimal.zero ≤ t.subtotal

theorem Tally.nonneg_empty : Tally.Nonneg {} where
  lines _ h := absurd h List.not_mem_nil
  subtotal := Decimal.zero_le_iff.2 Decimal.value_zero.ge

theorem ends_priceLine (v : View) (op : Operation) (shared : Request) (line : Line) :
    (priceLine v op shared line).Ends (fun priced => Decimal.zero ≤ priced.total)
      Failure.IsPlain :=
  (v.ends_basePrice op _).bind (fun _ _ => .pure (v.zero_le_applyRules _ _ _ _))

/-- A line is added to the sum: the sum of two amounts that are not below zero is not, as long as it
is a decimal, and it is a fault if it is none. -/
theorem Tally.ends_add {t : Tally} {line : PricedLine} (ht : t.Nonneg)
    (hline : Decimal.zero ≤ line.total) : (t.add line).Ends Tally.Nonneg Failure.IsPlainOrSum := by
  refine (Pricing.Ends.checkFault (P := fun sum => t.subtotal.add line.total = some sum)
    (fun _ h => h) (fun _ => .inr rfl)).bind (fun subtotal hsubtotal => ?_)
  refine Pricing.Ends.refuse (.inl trivial) (fun _ => .pure ⟨?_, ?_⟩)
  · intro l hl
    rcases List.mem_append.1 hl with hl | hl
    · exact ht.lines l hl
    · rwa [List.mem_singleton.1 hl]
  · have hle := ht.subtotal
    rw [Decimal.zero_le_iff] at hle hline ⊢
    exact (Decimal.add_rounds hsubtotal).nonneg (add_nonneg hle hline)

/-- **All lines are added** so, by the invariant. -/
theorem ends_addLines (v : View) (op : Operation) (shared : Request) (lines : List Line) :
    (addLines v op shared lines).Ends Tally.Nonneg Failure.IsPlainOrSum :=
  .foldlM (fun _ line ht =>
    ((ends_priceLine v op shared line).mono (fun _ h => h) (fun _ => .inl)).bind
      (fun _ hline => Tally.ends_add ht hline)) lines Tally.nonneg_empty

end Order

/-- **No amount of an order is below zero.** -/
structure PricedOrder.Nonneg (o : PricedOrder) : Prop where
  lines : ∀ line ∈ o.lines, Decimal.zero ≤ line.total
  subtotal : Decimal.zero ≤ o.subtotal
  total : Decimal.zero ≤ o.total

/-- The price of an order that has not been refused. The order is refused for its lines before
anything is looked up, and what comes after that is set apart here, since everything about amounts
is about it. -/
def View.validOrder (v : View) (op : Operation) (lines : List Order.Line) (shared : Request) :
    Pricing PricedOrder := do
  let tally ← Order.addLines v op shared lines
  let quantity := UInt32.ofNat tally.quantity
  let trace := v.applyRules tally.subtotal op { shared with quantity := some quantity }
    (.only .volumeDiscount)
  let discount ← Pricing.checkFault .subtraction (tally.subtotal.sub trace.adjustedPrice)
  return ⟨tally.lines, quantity, tally.subtotal, discount, trace.adjustedPrice, trace⟩

theorem View.order_eq_validOrder {v : View} {op : Operation} {lines : List Order.Line}
    {shared : Request} (h : Order.validate lines = .ok ()) :
    v.order op lines shared = v.validOrder op lines shared := by
  unfold order
  rw [h]
  rfl

theorem View.order_eq_throw {v : View} {op : Operation} {lines : List Order.Line}
    {shared : Request} {p : Problem} (h : Order.validate lines = .error p) :
    v.order op lines shared = throw (.error (.invalid p)) := by
  unfold order
  rw [h]
  rfl

/-- An order is not refused for an amount below zero. -/
theorem Order.isPlain_of_validate_eq_error {lines : List Line} {p : Problem}
    (h : validate lines = .error p) : (Failure.error (.invalid p)).IsPlain := by
  unfold validate at h
  split at h
  · cases h
    trivial
  · split at h
    · cases h
      trivial
    · cases h

/-- **No amount of an order is below zero**, and only the sum of its lines is ever at fault. -/
theorem View.ends_order (v : View) (op : Operation) (lines : List Order.Line) (shared : Request) :
    (v.order op lines shared).Ends PricedOrder.Nonneg Failure.IsPlainOrSum := by
  cases hvalid : Order.validate lines with
  | error p =>
    rw [order_eq_throw hvalid]
    exact .throw (.inl (Order.isPlain_of_validate_eq_error hvalid))
  | ok =>
    rw [order_eq_validOrder hvalid]
    refine (Order.ends_addLines v op shared lines).bind (fun tally ht => ?_)
    have htotal := v.zero_le_applyRules tally.subtotal op
      { shared with quantity := some (UInt32.ofNat tally.quantity) } (.only .volumeDiscount)
    refine (Pricing.Ends.checkFault (P := fun _ => True) (fun _ _ => trivial)
      (fun hnone => ?_)).bind (fun _ _ => .pure ⟨ht.lines, ht.subtotal, htotal⟩)
    exact absurd hnone (Decimal.sub_ne_none_of_zero_le ht.subtotal htotal)

/-- **No amount that an engine answers is below zero**: no price, no part of a quote, no line of an
order and none of its sums, whatever is stored. And no quote fails because the amount to be taxed
is below zero.

This is said of every engine, and not only of one that has been reached by calls: neither the prices
in its store nor the answers in its cache need to be sensible. It rests on the clamp at the end of
each trace, of which an order has one for each line and one for the sum. -/
theorem Engine.amounts_nonneg (e : Engine) (op : Operation) (r : Request)
    (lines : List Order.Line) (t : Instant) :
    (∀ price, (e.getPrice op r t).1 = .ok price → Decimal.zero ≤ price)
      ∧ (∀ quote, (e.getQuote op r t).1 = .ok quote →
          Decimal.zero ≤ quote.adjustedPrice ∧ quote.tax.Nonneg)
      ∧ (∀ amount, (e.getQuote op r t).1 ≠ .error (.error (.invalid (.negativeAmount amount))))
      ∧ ∀ order, (e.getOrderPrice op lines r t).1 = .ok order → order.Nonneg := by
  have hprice := (e.view t).ends_price op r e.cache
  have hquote := (e.view t).ends_quote op r e.config.defaultTaxMode e.cache
  have horder := (e.view t).ends_order op lines r e.cache
  refine ⟨fun price h => ?_, fun quote h => ?_, fun amount h => ?_, fun order h => ?_⟩
  · rwa [show ((e.view t).price op r e.cache).1 = .ok price from h] at hprice
  · rwa [show ((e.view t).quote _ op r e.cache).1 = .ok quote from h] at hquote
  · rw [show ((e.view t).quote _ op r e.cache).1 = _ from h] at hquote
    rcases hquote with hplain | hfault
    · exact hplain
    · cases hfault
  · rwa [show ((e.view t).order op lines r e.cache).1 = .ok order from h] at horder

/-- The base price of a refill is five below zero, and so is that of the quote. -/
theorem Engine.amounts_nonneg_of_negative_price :
    ∃ e quote, e = Engine.initial.run [.setSetting "refill.base_price"
          (.number ⟨true, 5, 0, by decide, by decide⟩) { author := ⟨"ann", none⟩ } (.number 1)]
      ∧ (e.getQuote .refill {} ⟨2⟩).1 = .ok quote ∧ quote.basePrice.isNegative = true
      ∧ Decimal.zero ≤ quote.adjustedPrice ∧ quote.tax.Nonneg := by
  have hbase : (match ((Engine.initial.run [.setSetting "refill.base_price"
        (.number ⟨true, 5, 0, by decide, by decide⟩) { author := ⟨"ann", none⟩ }
        (.number 1)]).getQuote .refill {} ⟨2⟩).1 with
      | .ok quote => quote.basePrice.isNegative
      | .error _ => false) = true := by decide +kernel
  split at hbase
  · next quote hquote =>
    exact ⟨_, quote, rfl, hquote, hbase,
      (Engine.amounts_nonneg _ .refill {} [] ⟨2⟩).2.1 quote hquote⟩
  · cases hbase

end Tariff
