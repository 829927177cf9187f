import Tariff.Proofs.Displacement

/-!
# Lines cost what their requests cost

The price of an order is worked out by a loop of its own, and not by asking for the
price of each line. Where no volume discount is in force the two should agree, since
there is then nothing that an order has and its lines have not.

They agree since each line goes through the same steps as its request on its own. All
rules in force take part in both (`View.applyRules_except_eq_all`), and none is left for
the sum, which is not below zero and so is not clamped either
(`View.adjustedPrice_applyRules_only`). Both use the cache in the same way. So a price
is the total of a priced line (`View.price_request_eq`), and an order is, without any
condition, what one gets by asking for the prices one after the other
(`getOrderPrice_eq_getPrices`): it ends in the same way and leaves the same cache.

It is another matter whether each of these prices is the one that the engine has for the
request as things stand (`order_eq_prices`). An entry of the cache may be out of date, since
a setting has begun or expired, and pricing one line may put it out before another line
is priced; then the line costs something else than its request
(`line_moves_where_answers_go`). Where nothing that the cache may serve is out of date, or
where it has room for two answers to each line, this cannot happen (`View.Lasting`).
-/

namespace Tariff

/-! ## Without volume discounts -/

/-- **No volume discount is in force.** -/
def View.WithoutVolumeDiscounts (v : View) : Prop :=
  ∀ rule ∈ v.store.liveRules v.now, rule.ruleType ≠ .volumeDiscount

instance (v : View) : Decidable v.WithoutVolumeDiscounts :=
  inferInstanceAs (Decidable (∀ rule ∈ v.store.liveRules v.now, rule.ruleType ≠ .volumeDiscount))

namespace View

variable {v : View} (hv : v.WithoutVolumeDiscounts) (op : Operation) (r : Request)
include hv

/-- **All rules take part** where all but the volume discounts do. -/
theorem applyRules_except_eq_all (price : Decimal) :
    v.applyRules price op r (.except .volumeDiscount) = v.applyRules price op r .all := by
  have hadmits : ∀ rule ∈ v.store.liveRules v.now,
      (RuleFilter.except .volumeDiscount).admits rule.ruleType
        = RuleFilter.all.admits rule.ruleType := fun rule hrule =>
    bne_iff_ne.2 (hv rule hrule).symm
  unfold applyRules Trace.evaluate
  rw [List.filter_congr hadmits]

/-- **No rule takes part** where only volume discounts do, and so the price stays. -/
theorem adjustedPrice_applyRules_only {price : Decimal} (hprice : .zero ≤ price) :
    (v.applyRules price op r (.only .volumeDiscount)).adjustedPrice = price := by
  have hnone : (v.store.liveRules v.now).filter (fun rule =>
      (RuleFilter.only .volumeDiscount).admits rule.ruleType) = [] := by
    refine List.filter_eq_nil_iff.2 fun rule hrule hadmits => hv rule hrule ?_
    exact (beq_iff_eq.1 hadmits).symm
  have hnonneg : (Trace.start price).adjustedPrice.isNegative = false :=
    Decimal.isNegative_eq_false_iff.2 (Decimal.zero_le_iff.1 hprice)
  unfold applyRules Trace.evaluate Rule.inOrder Trace.clamp
  rw [hnone, List.mergeSort_nil, List.foldl_nil, hnonneg]
  rfl

/-- **The price of a line's request is the total of the line.** -/
theorem price_request_eq (shared : Request) (line : Order.Line) :
    v.price op (line.request shared) = (·.total) <$> Order.priceLine v op shared line := by
  unfold price Order.priceLine
  simp only [map_bind, map_pure, applyRules_except_eq_all hv]

/-- **The prices of several lines' requests are the totals of the lines**, and use the cache as they
do. -/
theorem mapM_price_request_eq (shared : Request) (lines : List Order.Line) :
    ((lines.map (·.request shared)).mapM (v.price op) : Pricing (List Decimal))
      = List.map (·.total) <$> Order.priceLines v op shared lines := by
  unfold Order.priceLines
  induction lines with
  | nil => rfl
  | cons line rest ih =>
    rw [List.map_cons, List.mapM_cons, List.mapM_cons, ih, price_request_eq hv]
    simp only [map_bind, map_pure, bind_map_left, List.map_cons]

end View

/-! ## One price after the other -/

/-- **The prices of several requests**, asked for one after the other as long as there is a
price. -/
def Engine.getPrices (e : Engine) (op : Operation) :
    List Request → Instant → Except Failure (List Decimal) × Engine
  | [], _ => (.ok [], e)
  | r :: rest, t =>
    match e.getPrice op r t with
    | (.error f, e) => (.error f, e)
    | (.ok price, e) =>
      match e.getPrices op rest t with
      | (.error f, e) => (.error f, e)
      | (.ok prices, e) => (.ok (price :: prices), e)

namespace Engine

variable {e e' : Engine} {op : Operation} {t : Instant}

/-- **Prices that are asked one after the other are one read.** Each price finds the cache as the
one before has left it, which is how a read goes on from step to step. -/
theorem getPrices_eq_read (requests : List Request) :
    e.getPrices op requests t
      = e.read (requests.mapM ((e.view t).price op) : Pricing (List Decimal)) := by
  induction requests generalizing e with
  | nil => rfl
  | cons r rest ih =>
    refine Eq.symm (read_eq_iff.2 ?_)
    rw [List.mapM_cons]
    cases hfirst : (e.view t).price op r e.cache with
    | mk result c =>
      rw [show e.getPrice op r t = (result, { e with cache := c }) from
        read_eq_iff.2 ⟨c, hfirst, rfl⟩]
      cases result with
      | error f => exact ⟨c, Pricing.bind_eq_of_eq_error hfirst, rfl⟩
      | ok price =>
        rw [Pricing.bind_eq_of_eq_ok hfirst]
        dsimp only
        cases hrest : (rest.mapM ((e.view t).price op) : Pricing (List Decimal)) c with
        | mk result c' =>
          have hothers : ({ e with cache := c } : Engine).getPrices op rest t
              = (result, { e with cache := c' }) := ih.trans (read_eq_iff.2 ⟨c', hrest, rfl⟩)
          rw [hothers]
          cases result with
          | error f => exact ⟨c', Pricing.bind_eq_of_eq_error hrest, rfl⟩
          | ok others => exact ⟨c', Pricing.bind_eq_of_eq_ok hrest, rfl⟩

variable {shared : Request}

/-- **Prices that are asked one after the other are the totals of lines** that are priced so. -/
theorem getPrices_request_eq_ok_iff (he : (e.view t).WithoutVolumeDiscounts)
    {lines : List Order.Line} {prices : List Decimal} :
    e.getPrices op (lines.map (·.request shared)) t = (.ok prices, e') ↔
      ∃ priced c, Order.priceLines (e.view t) op shared lines e.cache = (.ok priced, c)
        ∧ priced.map (·.total) = prices ∧ e' = { e with cache := c } := by
  rw [getPrices_eq_read, View.mapM_price_request_eq he, read_eq_iff]
  constructor
  · rintro ⟨c, h, rfl⟩
    obtain ⟨priced, hpriced, htotal⟩ := Pricing.map_eq_ok_iff.1 h
    exact ⟨priced, c, hpriced, htotal, rfl⟩
  · rintro ⟨priced, c, hpriced, htotal, rfl⟩
    exact ⟨c, Pricing.map_eq_ok_iff.2 ⟨priced, hpriced, htotal⟩, rfl⟩

theorem priceLine_eq_error_of_getPrice (he : (e.view t).WithoutVolumeDiscounts)
    {line : Order.Line} {f : Failure}
    (h : e.getPrice op (line.request shared) t = (.error f, e')) :
    ∃ c, Order.priceLine (e.view t) op shared line e.cache = (.error f, c)
      ∧ e' = { e with cache := c } := by
  unfold getPrice at h
  rw [View.price_request_eq he, read_eq_iff] at h
  obtain ⟨c, hprice, he'⟩ := h
  exact ⟨c, Pricing.eq_error_of_map_eq_error hprice, he'⟩

end Engine

/-! ## The order -/

namespace Order

/-- An order with a line and without an empty one is not refused. -/
theorem validate_eq_ok {lines : List Line} (hlines : lines ≠ [])
    (hquantity : ∀ line ∈ lines, line.quantity ≠ 0) : validate lines = .ok () := by
  have hnone : lines.find? (fun line => line.quantity = 0) = none :=
    List.find?_eq_none.2 fun line hline hzero => hquantity line hline (of_decide_eq_true hzero)
  unfold validate
  rw [List.isEmpty_eq_false_iff.2 hlines, hnone]
  rfl

/-- **The lines fail with the first line that does**, if those before it can be added up. -/
theorem addLines_eq_error {v : View} {op : Operation} {shared : Request} {done rest : List Line}
    {line : Line} {tally : Tally} {f : Failure} {c c₁ c₂ : Option Cache}
    (hdone : addLines v op shared done c = (.ok tally, c₁))
    (hline : priceLine v op shared line c₁ = (.error f, c₂)) :
    addLines v op shared (done ++ line :: rest) c = (.error f, c₂) := by
  unfold addLines at hdone ⊢
  rw [List.foldlM_append, Pricing.bind_eq_of_eq_ok hdone, List.foldlM_cons]
  exact Pricing.bind_eq_of_eq_error (Pricing.bind_eq_of_eq_error hline)

end Order

/-- **An order is what its prices are one after the other**, where no volume discount is in force.
It is answered only if there is a price for the request of each line, and these are then the totals
of its lines, in order; its total is their sum from left to right, and its discount is zero. The
prices leave the cache that the order leaves. -/
theorem getOrderPrice_eq_getPrices {e e' : Engine} {t : Instant}
    (he : (e.view t).WithoutVolumeDiscounts) {op : Operation} {lines : List Order.Line}
    {shared : Request} {o : PricedOrder}
    (ho : e.getOrderPrice op lines shared t = (.ok o, e')) :
    e.getPrices op (lines.map (·.request shared)) t = (.ok (o.lines.map (·.total)), e')
      ∧ (o.lines.map (·.total)).foldlM Decimal.add .zero = some o.total
      ∧ o.discount.isZero = true := by
  obtain ⟨c, horder, rfl⟩ := Engine.read_eq_iff.1 ho
  obtain ⟨-, hpriced, hreaches, htrace, htotal, hdiscount⟩ := View.order_eq_ok_iff.1 horder
  have hnonneg := ((e.view t).ends_order op lines shared).of_eq_ok horder
  rw [htrace, View.adjustedPrice_applyRules_only he _ _ hnonneg.subtotal] at htotal
  rw [htotal] at hdiscount ⊢
  refine ⟨(Engine.getPrices_request_eq_ok_iff he).2 ⟨o.lines, c, hpriced, rfl, rfl⟩,
    hreaches.subtotal, ?_⟩
  -- The discount rounds zero, which is a decimal.
  have hrounds := Decimal.sub_rounds hdiscount
  rw [sub_self, ← Decimal.value_zero] at hrounds
  rw [Decimal.isZero_iff, ← Decimal.value_zero]
  exact le_antisymm (hrounds.ge_of_ge .zero le_rfl) (hrounds.le_of_le .zero le_rfl)

/-- **An order fails where its prices do.** If there is no price for the request of a line, while
there are prices for those before it, asked one after the other, and neither their sum nor that of
their quantities is too large, then the order fails with that very failure. -/
theorem getOrderPrice_eq_error {e e₁ e₂ : Engine} {t : Instant}
    (he : (e.view t).WithoutVolumeDiscounts) {op : Operation} {shared : Request}
    {done rest : List Order.Line} {line : Order.Line}
    (hquantity : ∀ l ∈ done ++ line :: rest, l.quantity ≠ 0) {prices : List Decimal}
    {sum : Decimal} {f : Failure}
    (hprices : e.getPrices op (done.map (·.request shared)) t = (.ok prices, e₁))
    (hsum : prices.foldlM Decimal.add .zero = some sum)
    (hsmall : (done.map (·.quantity.toNat)).sum < 2 ^ 32)
    (hfails : e₁.getPrice op (line.request shared) t = (.error f, e₂)) :
    e.getOrderPrice op (done ++ line :: rest) shared t = (.error f, e₂) := by
  have hlines : done ++ line :: rest ≠ [] :=
    List.append_ne_nil_of_right_ne_nil _ (List.cons_ne_nil _ _)
  obtain ⟨priced, c₁, hpriced, rfl, rfl⟩ := (Engine.getPrices_request_eq_ok_iff he).1 hprices
  obtain ⟨c₂, hline, rfl⟩ :=
    Engine.priceLine_eq_error_of_getPrice (e := { e with cache := c₁ }) he hfails
  rw [← Order.quantities_of_priceLines hpriced] at hsmall
  have hdone := Order.addLines_eq_ok_iff.2 ⟨priced, hpriced,
    (⟨rfl, hsum, (Nat.zero_add _).symm, hsmall⟩ :
      Order.Tally.Reaches {} priced ⟨priced, sum, (priced.map (·.quantity.toNat)).sum⟩)⟩
  refine Engine.read_eq_iff.2 ⟨c₂, ?_, rfl⟩
  rw [View.order_eq_validOrder (Order.validate_eq_ok hlines hquantity)]
  exact Pricing.bind_eq_of_eq_error (Order.addLines_eq_error hdone hline)

/-! ## Each price on its own -/

namespace Engine

variable {e : Engine} {t : Instant} {op : Operation} {requests : List Request} {k : Nat}

/-- **It makes no difference that prices are asked one after the other** where answers last: each is
the price that the engine has as it is. -/
theorem getPrices_of_lasting (he : (e.view t).Lasting (2 * requests.length + k) e.cache) :
    (e.getPrices op requests t).1 = requests.mapM fun r => (e.getPrice op r t).1 := by
  rw [getPrices_eq_read]
  rw [Nat.mul_comm] at he
  exact View.mapM_eq_of_sameAnswers ((e.view t).looksUp_price op) he he fun _ _ => rfl

/-- **And another price is what it was** after them, if answers last for it as well. -/
theorem getPrice_getPrices (he : (e.view t).Lasting (2 * requests.length + 2) e.cache)
    (r : Request) :
    ((e.getPrices op requests t).2.getPrice op r t).1 = (e.getPrice op r t).1 := by
  have hprices : (e.view t).LooksUp (requests.length * 2)
      (requests.mapM ((e.view t).price op) : Pricing (List Decimal)) :=
    .mapM ((e.view t).looksUp_price op) requests
  rw [Nat.mul_comm] at he
  obtain ⟨-, hleft, hkept⟩ := hprices.eq_of_sameAnswers he he fun _ _ => rfl
  have hlast := he.mono (Nat.le_add_left 2 _)
  rw [getPrices_eq_read]
  exact (((e.view t).looksUp_price op r).eq_of_sameAnswers (k := 0) hleft hlast hkept).1

end Engine

/-- **An order costs what its lines cost one by one** where no volume discount is in force and
answers last. Each line is compared with one call to the engine as it is before the order, and not
with calls made in a row; so it is needed that pricing one line does not change what the cache
answers for another, which is what `View.Lasting` says of two look-ups for each line.

If the order is answered, each line costs the price of its request; the total is the sum of these
prices from left to right, and the discount is zero. If there are prices for the requests of the
first lines, neither their sum nor that of their quantities is too large, and there is no price for
the request of the next line, then the order fails with that very failure. -/
theorem order_eq_prices {e : Engine} {t : Instant} (he : (e.view t).WithoutVolumeDiscounts)
    {lines : List Order.Line} (hquantity : ∀ line ∈ lines, line.quantity ≠ 0)
    (hlast : (e.view t).Lasting (2 * lines.length) e.cache) (op : Operation) (shared : Request) :
    (∀ o, (e.getOrderPrice op lines shared t).1 = .ok o →
        List.Forall₂ (fun line price => (e.getPrice op (line.request shared) t).1 = .ok price)
          lines (o.lines.map (·.total))
        ∧ (o.lines.map (·.total)).foldlM Decimal.add .zero = some o.total
        ∧ o.discount.isZero = true)
      ∧ ∀ done line rest prices sum f, lines = done ++ line :: rest →
        List.Forall₂ (fun line price => (e.getPrice op (line.request shared) t).1 = .ok price)
          done prices →
        prices.foldlM Decimal.add .zero = some sum →
        (done.map (·.quantity.toNat)).sum < 2 ^ 32 →
        (e.getPrice op (line.request shared) t).1 = .error f →
        (e.getOrderPrice op lines shared t).1 = .error f := by
  refine ⟨fun o ho => ?_, ?_⟩
  · obtain ⟨hprices, hsum, hdiscount⟩ := getOrderPrice_eq_getPrices he (Prod.ext ho rfl)
    have hall : (lines.map (·.request shared)).mapM (fun r => (e.getPrice op r t).1)
        = .ok (o.lines.map (·.total)) := by
      rw [← Engine.getPrices_of_lasting (k := 0) (by rwa [List.length_map]), hprices]
    exact ⟨List.forall₂_map_left_iff.1 (mapM_eq_ok_iff.1 hall), hsum, hdiscount⟩
  · rintro done line rest prices sum f rfl hprices hsum hsmall hfails
    -- The lines before the failing one leave room for its own two look-ups.
    have hdone : (e.view t).Lasting (2 * (done.map (·.request shared)).length + 2) e.cache := by
      refine hlast.mono ?_
      rw [List.length_map, List.length_append, List.length_cons]
      omega
    have hprices : (e.getPrices op (done.map (·.request shared)) t).1 = .ok prices :=
      (Engine.getPrices_of_lasting hdone).trans
        (mapM_eq_ok_iff.2 (List.forall₂_map_left_iff.2 hprices))
    have hline := (Engine.getPrice_getPrices hdone (line.request shared)).trans hfails
    exact congrArg Prod.fst (getOrderPrice_eq_error he hquantity (Prod.ext hprices rfl) hsum
      hsmall (Prod.ext hline rfl))

/-- A refill is a hundred, and one is added to every price. An order of two refills and three is
502, and its lines cost what the engine asks for each. There is room in the cache for their
answers. -/
theorem order_eq_prices_two_lines : ∃ e o lines, e = Engine.initial.run
      [.setSetting "refill.base_price" (.number .hundred) { author := ⟨"ann", none⟩ } (.number 1),
      .createRule { name := "one", ruleType := .surcharge, actions := [⟨.add, .one⟩] }
        ⟨"ann", none⟩ (.number 2)]
    ∧ lines = [⟨"a", 2, none⟩, ⟨"b", 3, none⟩]
    ∧ (e.view ⟨3⟩).WithoutVolumeDiscounts ∧ (∀ line ∈ lines, line.quantity ≠ 0)
    ∧ (e.view ⟨3⟩).Lasting (2 * lines.length) e.cache
    ∧ (e.getOrderPrice .refill lines {} ⟨3⟩).1 = .ok o
    ∧ o.total.mantissa = 502
    ∧ List.Forall₂ (fun line price => (e.getPrice .refill (line.request {}) ⟨3⟩).1 = .ok price)
      lines (o.lines.map (·.total))
    ∧ (o.lines.map (·.total)).foldlM Decimal.add .zero = some o.total
    ∧ o.discount.isZero = true := by
  obtain ⟨e, he⟩ : ∃ e, e = Engine.initial.run
      [.setSetting "refill.base_price" (.number .hundred) { author := ⟨"ann", none⟩ } (.number 1),
      .createRule { name := "one", ruleType := .surcharge, actions := [⟨.add, .one⟩] }
        ⟨"ann", none⟩ (.number 2)] := ⟨_, rfl⟩
  obtain ⟨lines, hlines⟩ : ∃ lines : List Order.Line,
      lines = [⟨"a", 2, none⟩, ⟨"b", 3, none⟩] := ⟨_, rfl⟩
  have hrules : (e.view ⟨3⟩).WithoutVolumeDiscounts := by
    subst he
    decide +kernel
  have hquantity : ∀ line ∈ lines, line.quantity ≠ 0 := by
    subst hlines
    decide
  have hlast : (e.view ⟨3⟩).Lasting (2 * lines.length) e.cache := by
    subst he hlines
    refine .inr fun c hc => ?_
    cases hc
    decide
  have htotal : (match (e.getOrderPrice .refill lines {} ⟨3⟩).1 with
      | .ok o => o.total.mantissa
      | .error _ => 0) = 502 := by
    subst he hlines
    decide +kernel
  split at htotal
  · next o ho =>
    obtain ⟨hprices, hsum, hdiscount⟩ := (order_eq_prices hrules hquantity hlast .refill {}).1 o ho
    exact ⟨e, o, lines, he, hlines, hrules, hquantity, hlast, ho, htotal, hprices, hsum,
      hdiscount⟩
  · simp at htotal

/-- **Where answers go, a line costs something else than its request.** A refill is a hundred until
instant 4, and two hundred from then on. A cylinder of kind `a` has been priced before, and since
then the cache has been filled; so at instant 4 the engine still says a hundred for it. In an order
it comes second, after a kind that the cache has no answer for. By the time it is priced its answer
is gone, and it costs two hundred. -/
theorem line_moves_where_answers_go : ∃ e o, Engine.create {} = .ok Engine.initial
    ∧ e = Engine.initial.run Call.untilFull
    ∧ (e.view ⟨4⟩).WithoutVolumeDiscounts
    ∧ (e.getOrderPrice .refill [⟨"b", 1, none⟩, ⟨"a", 1, none⟩] {} ⟨4⟩).1 = .ok o
    ∧ o.lines.map (·.total) = [.ofUInt32 200, .ofUInt32 200]
    ∧ (e.getPrice .refill ((⟨"a", 1, none⟩ : Order.Line).request {}) ⟨4⟩).1 = .ok .hundred
    ∧ ¬ List.Forall₂ (fun line price => (e.getPrice .refill (line.request {}) ⟨4⟩).1 = .ok price)
      ([⟨"b", 1, none⟩, ⟨"a", 1, none⟩] : List Order.Line) (o.lines.map (·.total)) := by
  obtain ⟨e, c, he, hc, hrules, hold⟩ := Engine.exists_displaces
  have hnone : (e.view ⟨4⟩).WithoutVolumeDiscounts := fun rule hrule => by
    have hstored : rule ∈ e.store.rules.values := Store.mem_values_of_mem_liveRules hrule
    rw [hrules] at hstored
    cases hstored
  have horder : (e.getOrderPrice .refill [⟨"b", 1, none⟩, ⟨"a", 1, none⟩] {} ⟨4⟩).1
      = .ok ⟨[⟨"b", 1, .ofUInt32 200, .ofUInt32 200, []⟩,
          ⟨"a", 1, .ofUInt32 200, .ofUInt32 200, []⟩],
        2, .ofUInt32 400, .zero, .ofUInt32 400, .start (.ofUInt32 400)⟩ := by
    unfold Engine.getOrderPrice
    rw [Engine.read_fst, hc]
    exact View.order_two_eq_ok hrules hold.read hold.readAfter (by decide) (by decide) (by decide)
      (by decide)
  have hprice : (e.getPrice .refill ((⟨"a", 1, none⟩ : Order.Line).request {}) ⟨4⟩).1
      = .ok .hundred := by
    have hline := Order.priceLine_of_one hrules hold.served (by decide) (by decide)
    unfold Engine.getPrice
    rw [Engine.read_fst, hc, View.price_request_eq hnone]
    exact congrArg Prod.fst (Pricing.map_eq_ok_iff.2 ⟨_, hline, rfl⟩)
  refine ⟨e, _, rfl, he, hnone, horder, rfl, hprice, fun hall => ?_⟩
  obtain ⟨-, hsecond⟩ := List.forall₂_cons.1 hall
  have hsame := (List.forall₂_cons.1 hsecond).1
  rw [hprice] at hsame
  exact absurd (Except.ok.inj hsame) (by decide)

end Tariff
