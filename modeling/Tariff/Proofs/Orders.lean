import Tariff.Proofs.Faults
import Tariff.Proofs.Traces
import Tariff.Proofs.Uniqueness

/-!
# What an order adds up, and where its volume discounts act

The lines of an order are priced and added up in one loop, which keeps three sums.
It has a result exactly where all lines can be priced one after the other and
neither sum of them is too large, and the result is then these sums
(`addLines_eq_ok_iff`). So the loop may be forgotten, and an order is the list of its
priced lines with the sums of it (`View.order_eq_ok_iff`).

The rules are carried out twice on what the lines come to: all but the volume
discounts on each line, and the volume discounts on the sum. What a trace says was
carried out is a selection, in their order, of the rules in force that take part
(`Trace.exists_sublist_evaluate`). Stored rules have distinct identifiers. Hence no
rule is carried out twice in one trace, and none both on a line and on the sum.
-/

namespace Tariff

namespace Pricing

variable {α : Type} {c c' : Option Cache}

/-- A check that would end the computation for good is passed where there is a value, which
it hands on. -/
theorem checkFault_eq_ok_iff {fault : Fault} {a : Option α} {b : α} :
    checkFault fault a c = (.ok b, c') ↔ a = some b ∧ c = c' := by
  cases a with
  | none => exact iff_of_false (fun h => by cases h) (fun h => by cases h.1)
  | some a =>
    refine Prod.mk_inj.trans (and_congr_left' ?_)
    exact ⟨fun h => congrArg some (Except.ok.inj h), fun h => congrArg _ (Option.some.inj h)⟩

/-- A result is what it is, and leaves the cache alone. -/
theorem pure_eq_ok_iff {a b : α} : (pure a : Pricing α) c = (.ok b, c') ↔ a = b ∧ c = c' := by
  refine Prod.mk_inj.trans (and_congr_left' ?_)
  exact ⟨Except.ok.inj, congrArg _⟩

variable {β : Type} {m : Pricing α} {f : Failure}

/-- A function of a result has a result where the computation has one. -/
theorem map_eq_ok_iff {g : α → β} {b : β} :
    (g <$> m) c = (.ok b, c') ↔ ∃ a, m c = (.ok a, c') ∧ g a = b := by
  rw [← bind_pure_comp, bind_eq_ok_iff]
  constructor
  · rintro ⟨a, c₁, hm, h⟩
    obtain ⟨hb, rfl⟩ := pure_eq_ok_iff.1 h
    exact ⟨a, hm, hb⟩
  · rintro ⟨a, hm, hb⟩
    exact ⟨a, c', hm, pure_eq_ok_iff.2 ⟨hb, rfl⟩⟩

/-- What follows a result goes on from it, with the cache that it has left. -/
theorem bind_eq_of_eq_ok {k : α → Pricing β} {a : α} (h : m c = (.ok a, c')) :
    (m >>= k) c = k a c' := by
  rw [bind_apply, h]
  rfl

/-- What follows a failure is not carried out. -/
theorem bind_eq_of_eq_error {k : α → Pricing β} (h : m c = (.error f, c')) :
    (m >>= k) c = (.error f, c') := by
  rw [bind_apply, h]
  rfl

theorem eq_error_of_map_eq_error {g : α → β} (h : (g <$> m) c = (.error f, c')) :
    m c = (.error f, c') := by
  cases hm : m c with
  | mk result c₁ =>
    cases result with
    | error f' =>
      rw [← bind_pure_comp, bind_eq_of_eq_error hm] at h
      cases h
      rfl
    | ok a =>
      rw [(map_eq_ok_iff (b := g a)).2 ⟨a, hm, rfl⟩] at h
      cases h

end Pricing

/-! ## Adding lines up -/

namespace Order

/-- **The prices of lines**, each on its own. The loop in the code prices a line and adds it at
once. Here the lines are all priced first, so that the sums can be stated of a list. -/
def priceLines (v : View) (op : Operation) (shared : Request) (lines : List Line) :
    Pricing (List PricedLine) :=
  lines.mapM (priceLine v op shared)

/-- **What a sum becomes by some priced lines.** The amounts are added from left to right, as
decimals: each step may round, and the sum need not be the exact one. The quantities are added
exactly, and the sum of them has to fit 32 bits. -/
structure Tally.Reaches (t : Tally) (priced : List PricedLine) (t' : Tally) : Prop where
  lines : t'.lines = t.lines ++ priced
  subtotal : (priced.map (·.total)).foldlM Decimal.add t.subtotal = some t'.subtotal
  quantity : t'.quantity = t.quantity + (priced.map (·.quantity.toNat)).sum
  quantity_lt : t'.quantity < 2 ^ 32

/-- One more line is added if neither sum becomes too large. -/
theorem Tally.add_eq_ok_iff {t t' : Tally} {line : PricedLine} {c c' : Option Cache} :
    t.add line c = (.ok t', c') ↔
      (∃ subtotal, t.subtotal.add line.total = some subtotal
        ∧ t.quantity + line.quantity.toNat < 2 ^ 32
        ∧ ⟨t.lines ++ [line], subtotal, t.quantity + line.quantity.toNat⟩ = t') ∧ c = c' := by
  unfold add
  rw [Pricing.bind_eq_ok_iff]
  constructor
  · rintro ⟨subtotal, c₁, hchecked, h⟩
    obtain ⟨hsum, rfl⟩ := Pricing.checkFault_eq_ok_iff.1 hchecked
    dsimp only at h
    split at h
    · cases h
    · next hlt =>
      obtain ⟨rfl, rfl⟩ := Pricing.pure_eq_ok_iff.1 h
      exact ⟨⟨subtotal, hsum, Nat.lt_of_not_le hlt, rfl⟩, rfl⟩
  · rintro ⟨⟨subtotal, hsum, hlt, rfl⟩, rfl⟩
    refine ⟨subtotal, c, Pricing.checkFault_eq_ok_iff.2 ⟨hsum, rfl⟩, ?_⟩
    dsimp only
    rw [if_neg (Nat.not_le_of_lt hlt)]
    rfl

/-- By no lines a sum becomes itself. -/
theorem Tally.reaches_nil_iff {t t' : Tally} (ht : t.quantity < 2 ^ 32) :
    t.Reaches [] t' ↔ t = t' := by
  constructor
  · rintro ⟨hlines, hsubtotal, hquantity, -⟩
    cases t
    cases t'
    rw [List.append_nil] at hlines
    cases hlines
    cases hsubtotal
    cases hquantity
    rfl
  · rintro rfl
    exact ⟨(List.append_nil _).symm, rfl, rfl, ht⟩

/-- A list of lines is added by its first line and then the others. Only the last quantity is asked
to be small enough, since quantities do not get smaller. -/
theorem Tally.reaches_cons_iff {t t' : Tally} {line : PricedLine} {priced : List PricedLine} :
    t.Reaches (line :: priced) t' ↔ ∃ t₁ : Tally, (∃ subtotal,
        t.subtotal.add line.total = some subtotal ∧ t.quantity + line.quantity.toNat < 2 ^ 32
          ∧ ⟨t.lines ++ [line], subtotal, t.quantity + line.quantity.toNat⟩ = t₁)
      ∧ t₁.Reaches priced t' := by
  constructor
  · rintro ⟨hlines, hsubtotal, hquantity, hlt⟩
    rw [List.map_cons, List.foldlM_cons, Option.bind_eq_bind, Option.bind_eq_some_iff] at hsubtotal
    obtain ⟨subtotal, hadd, hsubtotal⟩ := hsubtotal
    rw [List.map_cons, List.sum_cons, ← Nat.add_assoc] at hquantity
    refine ⟨_, ⟨subtotal, hadd, ?_, rfl⟩, ?_, hsubtotal, hquantity, hlt⟩
    · exact Nat.lt_of_le_of_lt (Nat.le_add_right _ _) (hquantity ▸ hlt)
    · rw [hlines, List.append_assoc]
      rfl
  · rintro ⟨_, ⟨subtotal, hadd, -, rfl⟩, hlines, hsubtotal, hquantity, hlt⟩
    refine ⟨?_, ?_, ?_, hlt⟩
    · rw [hlines, List.append_assoc]
      rfl
    · rw [List.map_cons, List.foldlM_cons, hadd]
      exact hsubtotal
    · rw [hquantity, List.map_cons, List.sum_cons, Nat.add_assoc]

/-- **Lines are added up** where all can be priced and neither sum of them is too large. The loop
starts from nothing, but the induction is over what is left of the lines, so it is stated for any
sum to start from. -/
theorem addLines_eq_ok_iff {v : View} {op : Operation} {shared : Request} {lines : List Line}
    {t : Tally} {c c' : Option Cache} :
    addLines v op shared lines c = (.ok t, c') ↔
      ∃ priced, priceLines v op shared lines c = (.ok priced, c')
        ∧ Tally.Reaches {} priced t := by
  -- From left to right this runs the loop and collects the priced lines. From right to left the
  -- failures of pricing come before those of adding in `priceLines`; but where neither fails, the
  -- order in which they would have been met does not show.
  suffices h : ∀ (lines : List Line) (t₀ : Tally) (c : Option Cache), t₀.quantity < 2 ^ 32 →
      ((lines.foldlM (fun t line => do t.add (← priceLine v op shared line)) t₀ : Pricing Tally) c
          = (.ok t, c')
        ↔ ∃ priced, priceLines v op shared lines c = (.ok priced, c') ∧ t₀.Reaches priced t) from
    h lines {} c (by decide)
  intro lines
  induction lines with
  | nil =>
    intro t₀ c ht₀
    rw [List.foldlM_nil, Pricing.pure_eq_ok_iff, ← Tally.reaches_nil_iff ht₀]
    constructor
    · rintro ⟨ht, rfl⟩
      exact ⟨[], rfl, ht⟩
    · rintro ⟨priced, hpriced, ht⟩
      obtain ⟨rfl, rfl⟩ := Pricing.pure_eq_ok_iff.1 hpriced
      exact ⟨ht, rfl⟩
  | cons line rest ih =>
    intro t₀ c _
    rw [List.foldlM_cons, Pricing.bind_eq_ok_iff]
    unfold priceLines
    rw [List.mapM_cons]
    constructor
    · -- The loop has added this line and then the others.
      rintro ⟨t₁, c₂, hline, hrest⟩
      obtain ⟨priced, c₁, hpriced, hadd⟩ := Pricing.bind_eq_ok_iff.1 hline
      obtain ⟨⟨subtotal, hsum, hlt, rfl⟩, rfl⟩ := Tally.add_eq_ok_iff.1 hadd
      obtain ⟨others, hothers, hreaches⟩ := (ih _ _ hlt).1 hrest
      refine ⟨priced :: others, ?_, Tally.reaches_cons_iff.2 ⟨_, ⟨subtotal, hsum, hlt, rfl⟩,
        hreaches⟩⟩
      refine Pricing.bind_eq_ok_iff.2 ⟨priced, c₁, hpriced, ?_⟩
      exact Pricing.bind_eq_ok_iff.2 ⟨others, c', hothers, rfl⟩
    · -- All lines have prices, and adding the first one is how adding them begins.
      rintro ⟨all, hall, hreaches⟩
      obtain ⟨priced, c₁, hpriced, hall⟩ := Pricing.bind_eq_ok_iff.1 hall
      obtain ⟨others, c₂, hothers, hall⟩ := Pricing.bind_eq_ok_iff.1 hall
      obtain ⟨rfl, rfl⟩ := Pricing.pure_eq_ok_iff.1 hall
      obtain ⟨t₁, ⟨subtotal, hsum, hlt, rfl⟩, hreaches⟩ := Tally.reaches_cons_iff.1 hreaches
      refine ⟨_, c₁, Pricing.bind_eq_ok_iff.2 ⟨priced, c₁, hpriced, ?_⟩,
        (ih _ c₁ hlt).2 ⟨others, hothers, hreaches⟩⟩
      exact Tally.add_eq_ok_iff.2 ⟨⟨subtotal, hsum, hlt, rfl⟩, rfl⟩

/-- **What became of one line.** Its total is what the rules that are not volume discounts make of
its base price. -/
theorem priceLine_eq_ok_iff {v : View} {op : Operation} {shared : Request} {line : Line}
    {priced : PricedLine} {c c' : Option Cache} :
    priceLine v op shared line c = (.ok priced, c') ↔
      ∃ base, v.basePrice op (line.request shared) c = (.ok base, c')
        ∧ (let trace := v.applyRules base.amount op (line.request shared) (.except .volumeDiscount)
          ⟨line.cylinderType, line.quantity, base.unitPrice, trace.adjustedPrice,
            trace.appliedRuleIds⟩) = priced := by
  unfold priceLine
  rw [Pricing.bind_eq_ok_iff]
  constructor
  · rintro ⟨base, c₁, hbase, h⟩
    obtain ⟨hpriced, rfl⟩ := Pricing.pure_eq_ok_iff.1 h
    exact ⟨base, hbase, hpriced⟩
  · rintro ⟨base, hbase, rfl⟩
    exact ⟨base, c', hbase, rfl⟩

/-- **There is a price for each line**, in order. -/
theorem forall₂_priceLines {v : View} {op : Operation} {shared : Request} {lines : List Line}
    {priced : List PricedLine} {c c' : Option Cache}
    (h : priceLines v op shared lines c = (.ok priced, c')) :
    List.Forall₂ (fun line priced => ∃ c c', priceLine v op shared line c = (.ok priced, c'))
      lines priced := by
  induction lines generalizing priced c with
  | nil =>
    obtain ⟨rfl, -⟩ := Pricing.pure_eq_ok_iff.1 h
    exact .nil
  | cons line rest ih =>
    unfold priceLines at h
    rw [List.mapM_cons] at h
    obtain ⟨first, c₁, hfirst, h⟩ := Pricing.bind_eq_ok_iff.1 h
    obtain ⟨others, c₂, hothers, h⟩ := Pricing.bind_eq_ok_iff.1 h
    obtain ⟨rfl, rfl⟩ := Pricing.pure_eq_ok_iff.1 h
    exact .cons ⟨c, c₁, hfirst⟩ (ih hothers)

section PriceLines

variable {v : View} {op : Operation} {shared : Request} {lines : List Line}
  {priced : List PricedLine} {c c' : Option Cache}

/-- The priced lines name the lines: the kind of cylinder and how many of it. -/
theorem map_of_priceLines (h : priceLines v op shared lines c = (.ok priced, c')) :
    (priced.map fun line => (line.cylinderType, line.quantity))
      = lines.map fun line => (line.cylinderType, line.quantity) := by
  refine Eq.symm ?_
  rw [← List.forall₂_eq_eq_eq, List.forall₂_map_left_iff, List.forall₂_map_right_iff]
  refine (forall₂_priceLines h).imp fun line first hline => ?_
  obtain ⟨_, _, hline⟩ := hline
  obtain ⟨_, -, rfl⟩ := priceLine_eq_ok_iff.1 hline
  rfl

/-- So their quantities are those that were asked for. -/
theorem quantities_of_priceLines (h : priceLines v op shared lines c = (.ok priced, c')) :
    (priced.map (·.quantity.toNat)) = lines.map (·.quantity.toNat) := by
  have hmap := congrArg (List.map fun line => line.2.toNat) (map_of_priceLines h)
  rwa [List.map_map, List.map_map] at hmap

/-- What is said to have been carried out on a line are the rules that are not volume discounts.
From which price and for which request is not needed later, and is left open. -/
theorem exists_appliedRules_of_mem_priceLines
    (h : priceLines v op shared lines c = (.ok priced, c')) :
    ∀ line ∈ priced, ∃ price r,
      line.appliedRules = (v.applyRules price op r (.except .volumeDiscount)).appliedRuleIds := by
  have hall : List.Forall₂ (fun line (_ : Line) => (∃ price r, line.appliedRules
      = (v.applyRules price op r (.except .volumeDiscount)).appliedRuleIds) ∧ True)
      priced lines := by
    refine List.Forall₂.flip ((forall₂_priceLines h).imp fun line first hline => ?_)
    obtain ⟨_, _, hline⟩ := hline
    obtain ⟨base, -, rfl⟩ := priceLine_eq_ok_iff.1 hline
    exact ⟨⟨base.amount, _, rfl⟩, trivial⟩
  exact ((List.forall₂_and_left _ _).1 hall).1

end PriceLines

end Order

/-- **What the price of an order is**: its lines have prices and sums, and the volume discounts are
applied to the sum. The request that they see has the quantity of the whole order. -/
theorem View.order_eq_ok_iff {v : View} {op : Operation} {lines : List Order.Line}
    {shared : Request} {o : PricedOrder} {c c' : Option Cache} :
    v.order op lines shared c = (.ok o, c') ↔
      Order.validate lines = .ok ()
        ∧ Order.priceLines v op shared lines c = (.ok o.lines, c')
        ∧ Order.Tally.Reaches {} o.lines ⟨o.lines, o.subtotal, o.quantity.toNat⟩
        ∧ o.volumeTrace = v.applyRules o.subtotal op { shared with quantity := some o.quantity }
          (.only .volumeDiscount)
        ∧ o.total = o.volumeTrace.adjustedPrice ∧ o.subtotal.sub o.total = some o.discount := by
  cases hvalid : Order.validate lines with
  | error p =>
    rw [order_eq_throw hvalid]
    exact iff_of_false (fun h => by cases h) (fun h => by cases h.1)
  | ok =>
    rw [order_eq_validOrder hvalid, and_iff_right rfl]
    unfold validOrder
    rw [Pricing.bind_eq_ok_iff]
    constructor
    · rintro ⟨t, c₁, ht, h⟩
      obtain ⟨priced, hpriced, hreaches⟩ := Order.addLines_eq_ok_iff.1 ht
      obtain ⟨discount, c₂, hchecked, h⟩ := Pricing.bind_eq_ok_iff.1 h
      obtain ⟨hdiscount, rfl⟩ := Pricing.checkFault_eq_ok_iff.1 hchecked
      obtain ⟨rfl, rfl⟩ := Pricing.pure_eq_ok_iff.1 h
      have hlines : t.lines = priced := hreaches.lines
      -- The number of cylinders is not changed where it is made one of 32 bits.
      have hquantity : (UInt32.ofNat t.quantity).toNat = t.quantity :=
        UInt32.toNat_ofNat_of_lt' hreaches.quantity_lt
      refine ⟨hlines ▸ hpriced, ?_, rfl, rfl, hdiscount⟩
      dsimp only
      rw [hquantity, hlines]
      exact ⟨rfl, hreaches.subtotal, hreaches.quantity, hreaches.quantity_lt⟩
    · rintro ⟨hpriced, hreaches, htrace, htotal, hdiscount⟩
      refine ⟨_, c', Order.addLines_eq_ok_iff.2 ⟨o.lines, hpriced, hreaches⟩, ?_⟩
      refine Pricing.bind_eq_ok_iff.2 ⟨o.discount, c', Pricing.checkFault_eq_ok_iff.2 ⟨?_, rfl⟩, ?_⟩
      · dsimp only
        rw [UInt32.ofNat_toNat, ← htrace, ← htotal]
        exact hdiscount
      · dsimp only
        rw [UInt32.ofNat_toNat, ← htrace, ← htotal]
        rfl

/-! ## The rules in a trace

The next four lemmas hold of any price, request and filter. They are used once for the lines, with
all rules but the volume discounts, and once for the sum, with the volume discounts only. -/

namespace View

variable (v : View) (price : Decimal) (op : Operation) (r : Request) (filter : RuleFilter)

/-- **What is carried out is a stored rule that takes part.** -/
theorem exists_rule_of_mem_appliedRuleIds {id : Uuid}
    (h : id ∈ (v.applyRules price op r filter).appliedRuleIds) :
    ∃ rule ∈ v.store.rules.values, rule.id = id ∧ filter.admits rule.ruleType = true := by
  obtain ⟨applied, hsub, hids⟩ :=
    Trace.exists_sublist_evaluate op r (v.store.liveRules v.now) price filter
  unfold applyRules at h
  rw [hids] at h
  obtain ⟨rule, hrule, hid⟩ := List.mem_map.1 h
  obtain ⟨hlive, hadmitted⟩ := List.mem_filter.1
    ((Rule.inOrder_perm _).mem_iff.1 (hsub.subset hrule))
  exact ⟨rule, Store.mem_values_of_mem_liveRules hlive, hid, hadmitted⟩

/-- **No rule is carried out twice.** The trace goes through the rules once, and no two of them have
one identifier. -/
theorem nodup_appliedRuleIds (hkeyed : v.store.rules.Keyed Rule.id) :
    (v.applyRules price op r filter).appliedRuleIds.Nodup := by
  obtain ⟨applied, hsub, hids⟩ :=
    Trace.exists_sublist_evaluate op r (v.store.liveRules v.now) price filter
  unfold applyRules
  rw [hids]
  refine List.Nodup.sublist (hsub.map Rule.id) ?_
  -- Sorting leaves the identifiers distinct, and so does leaving rules out.
  have hlive : ((v.store.liveRules v.now).map Rule.id).Nodup :=
    (((Rule.inOrder_perm _).map Rule.id).nodup_iff).2
      (hkeyed.nodup_map_values.sublist (List.filter_sublist.map Rule.id))
  exact (((Rule.inOrder_perm _).map Rule.id).nodup_iff).2
    (hlive.sublist (List.filter_sublist.map Rule.id))

/-- **What does not take part is not carried out.** It is a matter of identifiers, so it has to be
known that no other rule has the same one. -/
theorem not_mem_appliedRuleIds (hkeyed : v.store.rules.Keyed Rule.id) {rule : Rule}
    (hrule : rule ∈ v.store.rules.values) (hadmits : filter.admits rule.ruleType = false) :
    rule.id ∉ (v.applyRules price op r filter).appliedRuleIds := by
  intro hid
  obtain ⟨other, hother, heq, hadmitted⟩ :=
    v.exists_rule_of_mem_appliedRuleIds price op r filter hid
  -- Stored rules with the same identifier are the same.
  rw [List.inj_on_of_nodup_map hkeyed.nodup_map_values hother hrule heq, hadmits] at hadmitted
  cases hadmitted

/-- **Where no type of rules takes part in both, no rule is carried out in both.** -/
theorem disjoint_appliedRuleIds (hkeyed : v.store.rules.Keyed Rule.id) {filter' : RuleFilter}
    (h : ∀ type, filter'.admits type = true → filter.admits type = false) (price' : Decimal)
    (r' : Request) :
    (v.applyRules price op r filter).appliedRuleIds.Disjoint
      (v.applyRules price' op r' filter').appliedRuleIds := by
  intro id hid hid'
  obtain ⟨rule, hrule, rfl, hadmitted⟩ :=
    v.exists_rule_of_mem_appliedRuleIds price' op r' filter' hid'
  exact v.not_mem_appliedRuleIds price op r filter hkeyed hrule (h _ hadmitted) hid

end View

/-! ## Volume discounts -/

/-- **Volume discounts act once, on the sum.** An order that is answered after any run of a new
engine has a price for each line, in order; its quantity is the exact sum of theirs, its subtotal
the sum of their totals from left to right, its total what the volume discounts make of the subtotal
with that quantity, and its discount the difference. No volume discount is carried out on a line and
nothing else on the subtotal; so no rule is carried out on both, and none twice on either.

The run is only there for the identifiers: whatever the calls before, two stored rules have two of
them. The cache, and whether its answers are up to date, plays no part. -/
theorem order_run_volume_once {config : EngineConfig} {e : Engine}
    (h : Engine.create config = .ok e) (calls : List Call) (op : Operation)
    (lines : List Order.Line) (shared : Request) (t : Instant) {o : PricedOrder}
    (ho : ((e.run calls).getOrderPrice op lines shared t).1 = .ok o) :
    (o.lines.map fun priced => (priced.cylinderType, priced.quantity))
        = (lines.map fun line => (line.cylinderType, line.quantity))
      ∧ o.quantity.toNat = (lines.map (·.quantity.toNat)).sum
      ∧ (o.lines.map (·.total)).foldlM Decimal.add .zero = some o.subtotal
      ∧ o.volumeTrace = ((e.run calls).view t).applyRules o.subtotal op
        { shared with quantity := some o.quantity } (.only .volumeDiscount)
      ∧ o.total = o.volumeTrace.adjustedPrice ∧ o.subtotal.sub o.total = some o.discount
      ∧ (∀ rule ∈ (e.run calls).store.rules.values, rule.ruleType = .volumeDiscount →
          ∀ priced ∈ o.lines, rule.id ∉ priced.appliedRules)
      ∧ (∀ id ∈ o.volumeTrace.appliedRuleIds, ∃ rule ∈ (e.run calls).store.rules.values,
          rule.id = id ∧ rule.ruleType = .volumeDiscount)
      ∧ (∀ priced ∈ o.lines, priced.appliedRules.Disjoint o.volumeTrace.appliedRuleIds)
      ∧ (∀ priced ∈ o.lines, priced.appliedRules.Nodup) ∧ o.volumeTrace.appliedRuleIds.Nodup := by
  have hkeyed := (Engine.wellFormed_run h calls).rules_keyed
  obtain ⟨-, hpriced, hreaches, htrace, htotal, hdiscount⟩ := View.order_eq_ok_iff.1
    (show ((e.run calls).view t).order op lines shared (e.run calls).cache = (.ok o, _) from
      Prod.ext ho rfl)
  have happlied := Order.exists_appliedRules_of_mem_priceLines hpriced
  -- What takes part on the sum does not take part on a line.
  have hexcept : ∀ type, (RuleFilter.only .volumeDiscount).admits type = true →
      (RuleFilter.except .volumeDiscount).admits type = false := by
    intro type hadmits
    rw [← beq_iff_eq.1 hadmits]
    rfl
  refine ⟨Order.map_of_priceLines hpriced, ?_, hreaches.subtotal, htrace, htotal, hdiscount, ?_,
    ?_, ?_, ?_, ?_⟩
  · rw [← Order.quantities_of_priceLines hpriced]
    exact hreaches.quantity.trans (Nat.zero_add _)
  · intro rule hrule htype priced hmem
    obtain ⟨price, r, hids⟩ := happlied priced hmem
    rw [hids]
    exact View.not_mem_appliedRuleIds _ _ _ _ _ hkeyed hrule (by rw [htype]; rfl)
  · intro id hid
    rw [htrace] at hid
    obtain ⟨rule, hrule, hid, hadmits⟩ := View.exists_rule_of_mem_appliedRuleIds _ _ _ _ _ hid
    exact ⟨rule, hrule, hid, (beq_iff_eq.1 hadmits).symm⟩
  · intro priced hmem
    obtain ⟨price, r, hids⟩ := happlied priced hmem
    rw [hids, htrace]
    exact View.disjoint_appliedRuleIds _ _ _ _ _ hkeyed hexcept _ _
  · intro priced hmem
    obtain ⟨price, r, hids⟩ := happlied priced hmem
    rw [hids]
    exact View.nodup_appliedRuleIds _ _ _ _ _ hkeyed
  · rw [htrace]
    exact View.nodup_appliedRuleIds _ _ _ _ _ hkeyed

/-- Two lines of thirty cylinders each, and ten percent off from twenty cylinders on: each line is
large enough, but the rule is carried out on the sum only. -/
theorem order_run_volume_once_two_lines : ∃ e o, e = Engine.initial.run
      [.setSetting "refill.base_price" (.number .hundred) { author := ⟨"ann", none⟩ } (.number 1),
      .createRule
        { name := "twenty"
          ruleType := .volumeDiscount
          conditions := [⟨.quantity, .gte, .number ⟨false, 20, 0, by decide, by decide⟩⟩]
          actions := [⟨.percentageDiscount, ⟨false, 10, 0, by decide, by decide⟩⟩] }
        ⟨"ann", none⟩ (.number 2)]
    ∧ (e.getOrderPrice .refill [⟨"a", 30, none⟩, ⟨"b", 30, none⟩] {} ⟨3⟩).1 = .ok o
    ∧ o.volumeTrace.appliedRuleIds.length = 1 ∧ (o.lines.map (·.appliedRules.length)) = [0, 0]
    ∧ o.quantity.toNat = 60
    ∧ ∀ priced ∈ o.lines, priced.appliedRules.Disjoint o.volumeTrace.appliedRuleIds := by
  have hrules : (match ((Engine.initial.run
      [.setSetting "refill.base_price" (.number .hundred) { author := ⟨"ann", none⟩ } (.number 1),
      .createRule
        { name := "twenty"
          ruleType := .volumeDiscount
          conditions := [⟨.quantity, .gte, .number ⟨false, 20, 0, by decide, by decide⟩⟩]
          actions := [⟨.percentageDiscount, ⟨false, 10, 0, by decide, by decide⟩⟩] }
        ⟨"ann", none⟩ (.number 2)]).getOrderPrice .refill
          [⟨"a", 30, none⟩, ⟨"b", 30, none⟩] {} ⟨3⟩).1 with
      | .ok o => (o.volumeTrace.appliedRuleIds.length, o.lines.map (·.appliedRules.length))
      | .error _ => (0, [])) = (1, [0, 0]) := by decide +kernel
  split at hrules
  · next o ho =>
    obtain ⟨hsum, hlines⟩ := Prod.mk.inj hrules
    obtain ⟨-, hquantity, -, -, -, -, -, -, hdisjoint, -⟩ :=
      order_run_volume_once Engine.create_initial _ .refill _ {} ⟨3⟩ ho
    exact ⟨_, o, rfl, ho, hsum, hlines, hquantity, hdisjoint⟩
  · simp at hrules

end Tariff
