import Mathlib.Algebra.BigOperators.Group.List.Basic
import Mathlib.Algebra.Order.BigOperators.Group.List
import Tariff.Proofs.Exactness
import Tariff.Proofs.LinePrices
import Tariff.Proofs.Scales

/-!
# The order of an order's lines

It should make no difference in which order the lines of an order are written. Each of
them is priced on its own, and sums do not depend on the order of what is summed. But
sums of decimals do: each addition may round. And they come with the scale that the lines
happen to have given them, which every volume discount looks at.

So three things are shown here. Where answers last, a line has one price, whatever was
priced before it (`Order.priceLines_eq_mapM`). Decimals that are not below zero are added
up exactly where the sum of them all fits the finest of their scales, since then every part
of the sum fits it as well (`Decimal.foldlM_add_exact`). And rules that start from the same
number end with the same number, whatever its scale (`View.same_applyRules`).

Where answers do not last, the order of the lines does matter: pricing one line may put the
answer out of the cache that another would have been served, and the store may say something
else by then (`total_moves_where_answers_go`).
-/

namespace Tariff

/-! ## Sums that do not round -/

namespace Decimal

/-- **The finest scale** among some decimals. No sum of them needs a finer one. -/
def finestScale (l : List Decimal) : Nat := (l.map fun d => (d.scale : Nat)).foldr max 0

theorem finestScale_cons (d : Decimal) (l : List Decimal) :
    finestScale (d :: l) = max (d.scale : Nat) (finestScale l) := rfl

theorem scale_le_finestScale {d : Decimal} {l : List Decimal} (h : d ∈ l) :
    (d.scale : Nat) ≤ finestScale l := by
  induction l with
  | nil => cases h
  | cons a rest ih =>
    rw [finestScale_cons]
    rcases List.mem_cons.1 h with rfl | h
    · exact Nat.le_max_left _ _
    · exact (ih h).trans (Nat.le_max_right _ _)

/-- It is the scale of one of them, so it is no finer than a decimal's may be. -/
theorem finestScale_le (l : List Decimal) : finestScale l ≤ 28 := by
  induction l with
  | nil => exact Nat.zero_le _
  | cons a rest ih => exact Nat.max_le.2 ⟨a.scale_le, ih⟩

/-- It does not depend on the order that they come in. -/
theorem finestScale_perm {l l' : List Decimal} (h : l.Perm l') :
    finestScale l = finestScale l' :=
  (h.map _).foldr_eq 0

/-- **One sum that fits a scale of both sides is exact**, and is of no finer scale. The sum is a
whole number of units of that scale, and `bound` units are what a coefficient cannot hold. -/
theorem exists_add_eq_of_lt {a b : Decimal} {s : Nat} (ha : 0 ≤ a.value) (hb : 0 ≤ b.value)
    (has : (a.scale : Nat) ≤ s) (hbs : (b.scale : Nat) ≤ s) (hs : s ≤ 28)
    (hlt : (a.value + b.value) * pow10 s < bound) :
    ∃ d, a.add b = some d ∧ d.value = a.value + b.value ∧ (d.scale : Nat) ≤ s := by
  obtain ⟨m, hm⟩ := exists_mul_pow10_eq ha has
  obtain ⟨n, hn⟩ := exists_mul_pow10_eq hb hbs
  have hsum : (a.value + b.value) * pow10 s = (m + n : Nat) := by
    rw [add_mul, hm, hn, Nat.cast_add]
  rw [hsum, ← lt_capacity_iff] at hlt
  obtain ⟨e, he⟩ := exists_value_eq hlt hs
  rw [← hsum, mul_div_cancel_right₀ _ (pow10_pos s).ne'] at he
  obtain ⟨d, hd, hvalue⟩ := exists_add_eq he.symm
  exact ⟨d, hd, hvalue.trans he, (add_scale_le hd).trans (Nat.max_le.2 ⟨has, hbs⟩)⟩

/-- **Decimals are added up exactly** where the sum of them all fits a scale of each. Since
none of them is below zero, no part of the sum is above the whole, so each step of the
induction fits too. -/
theorem foldlM_add_exact {l : List Decimal} {a : Decimal} {s : Nat} (ha : 0 ≤ a.value)
    (hl : ∀ d ∈ l, 0 ≤ d.value) (has : (a.scale : Nat) ≤ s)
    (hls : ∀ d ∈ l, (d.scale : Nat) ≤ s) (hs : s ≤ 28)
    (hlt : (a.value + (l.map value).sum) * pow10 s < bound) :
    ∃ d, l.foldlM add a = some d ∧ d.value = a.value + (l.map value).sum := by
  induction l generalizing a with
  | nil => exact ⟨a, rfl, by rw [List.map_nil, List.sum_nil, add_zero]⟩
  | cons b rest ih =>
    obtain ⟨hb, hrest⟩ := List.forall_mem_cons.1 hl
    obtain ⟨hbs, hrests⟩ := List.forall_mem_cons.1 hls
    rw [List.map_cons, List.sum_cons, ← add_assoc] at hlt ⊢
    -- What is still to come makes the sum no smaller, so this part of it fits.
    have hothers : 0 ≤ (rest.map value).sum :=
      List.sum_nonneg (List.forall_mem_map.2 hrest)
    have hpart : (a.value + b.value) * pow10 s < bound :=
      (mul_le_mul_of_nonneg_right (le_add_of_nonneg_right hothers) (pow10_pos s).le).trans_lt hlt
    obtain ⟨sum, hsum, hvalue, hscale⟩ := exists_add_eq_of_lt ha hb has hbs hs hpart
    rw [← hvalue] at hlt ⊢
    obtain ⟨d, hd, hexact⟩ := ih (hvalue ▸ add_nonneg ha hb) hrest hscale hrests hlt
    refine ⟨d, ?_, hexact⟩
    rw [List.foldlM_cons, hsum]
    exact hd

/-- **A sum that does not round does not depend on the order of what is summed.** Both sums are the
exact one. Their scales may differ, so they are the same number and need not be the same decimal. -/
theorem foldlM_add_perm {l l' : List Decimal} (h : l.Perm l') (hl : ∀ d ∈ l, 0 ≤ d.value)
    (hlt : (l.map value).sum * pow10 (finestScale l) < bound) :
    ∃ d d', l.foldlM add zero = some d ∧ l'.foldlM add zero = some d' ∧ d.SameNumber d' := by
  have hexact : ∀ {l : List Decimal}, (∀ d ∈ l, 0 ≤ d.value) →
      (l.map value).sum * pow10 (finestScale l) < bound →
      ∃ d, l.foldlM add zero = some d ∧ d.value = (l.map value).sum := by
    intro l hl hlt
    rw [← zero_add (l.map value).sum, ← value_zero] at hlt ⊢
    exact foldlM_add_exact value_zero.ge hl (Nat.zero_le _)
      (fun d hd => scale_le_finestScale hd) (finestScale_le l) hlt
  have hsum : (l.map value).sum = (l'.map value).sum := (h.map value).sum_eq
  obtain ⟨d, hd, hvalue⟩ := hexact hl hlt
  rw [finestScale_perm h, hsum] at hlt
  obtain ⟨d', hd', hvalue'⟩ := hexact (fun d hd => hl d (h.mem_iff.2 hd)) hlt
  exact ⟨d, d', hd, hd', sameNumber_iff.2 (hvalue.trans (hsum.trans hvalue'.symm))⟩

/-- A difference of the same numbers is the same number, and there is one as soon as there is
the other. -/
theorem sub_sameNumber {a a' b b' d : Decimal} (ha : a.SameNumber a') (hb : b.SameNumber b')
    (h : a.sub b = some d) : ∃ d', a'.sub b' = some d' ∧ d.SameNumber d' := by
  have hanswers := sub_answers a b
  rw [sameNumber_iff.1 ha, sameNumber_iff.1 hb, h] at hanswers
  have hrel := hanswers.rel (sub_answers a' b')
  cases hsub : a'.sub b' with
  | none =>
    rw [hsub] at hrel
    cases hrel
  | some d' =>
    rw [hsub] at hrel
    cases hrel with
    | some hvalue => exact ⟨d', rfl, sameNumber_iff.2 hvalue⟩

end Decimal

/-! ## Rules on the same number -/

/-- An operand is the same as itself, with the items of a list. -/
theorem Operand.Same.refl : ∀ o : Operand, o.Same o
  | .number _ => .number rfl
  | .text s => .text s
  | .list _ => .list (List.forall₂_same.2 fun o _ => refl o)

theorem Condition.Same.refl (c : Condition) : c.Same c := ⟨rfl, rfl, .refl _⟩

theorem Action.Same.refl (a : Action) : a.Same a := ⟨rfl, rfl⟩

theorem Rule.Same.refl (rule : Rule) : rule.Same rule where
  conditions := List.forall₂_same.2 fun c _ => .refl c
  actions := List.forall₂_same.2 fun a _ => .refl a
  others := rfl

theorem Request.Same.refl (r : Request) : r.Same r where
  cylinderSize := by
    cases r.cylinderSize with
    | none => exact .none
    | some d => exact .some rfl
  others := rfl

/-- **The rules in force make the same of the same number**, whatever its scale. This is needed
since the subtotal of an order comes with the finest scale among its lines so far, and another order
of the lines leads to it by another way. -/
theorem View.same_applyRules (v : View) {price price' : Decimal} (h : price.SameNumber price')
    (op : Operation) (r : Request) (filter : RuleFilter) :
    (v.applyRules price op r filter).Same (v.applyRules price' op r filter) := by
  have hstart : (Trace.start price).Same (Trace.start price') := ⟨h, h, .nil, .nil, rfl⟩
  unfold applyRules Trace.evaluate
  refine Trace.Same.clamp (List.rel_foldl (R := Rule.Same) (fun t t' ht a b hab => ?_) hstart
    (List.forall₂_same.2 fun rule _ => .refl rule))
  exact ht.extend op hab (.refl r)

/-! ## Lines on their own -/

namespace Order

variable {v : View} {op : Operation} {shared : Request} {lines lines' : List Line}
  {c : Option Cache}

/-- The price of a line is looked up as its base price is, with two look-ups at most. -/
theorem looksUp_priceLine (line : Line) : v.LooksUp 2 (priceLine v op shared line) :=
  (v.looksUp_basePrice op (line.request shared)).bind fun _ => .pure (n := 0) _

/-- **Each line is priced as it would be on its own** where answers last. On the right no line knows
of what was looked up for the others. -/
theorem priceLines_eq_mapM (h : v.Lasting (2 * lines.length) c) :
    (priceLines v op shared lines c).1 =
      lines.mapM fun line => (priceLine v op shared line c).1 := by
  rw [Nat.mul_comm] at h
  exact View.mapM_eq_of_sameAnswers (k := 0) looksUp_priceLine h h fun _ _ => rfl

/-- **A line with its price**, and with none where it has no price. It gives the price as a function
of the line, so that a list of priced lines can be written as a map of the list of lines. -/
def priced (v : View) (op : Operation) (shared : Request) (c : Option Cache) (line : Line) :
    PricedLine :=
  match (priceLine v op shared line c).1 with
  | .ok p => p
  | .error _ => ⟨line.cylinderType, line.quantity, .zero, .zero, []⟩

/-- **All lines are priced**, or there is one that has no price. In the first case the priced lines
are the lines with their prices, in their order. -/
theorem mapM_priceLine_eq_ok_iff {all : List PricedLine} :
    (lines.mapM fun line => (priceLine v op shared line c).1) = .ok all ↔
      (∀ line ∈ lines, (priceLine v op shared line c).1 = .ok (priced v op shared c line))
        ∧ lines.map (priced v op shared c) = all := by
  induction lines generalizing all with
  | nil => exact ⟨fun h => ⟨nofun, Except.ok.inj h⟩, fun h => congrArg Except.ok h.2⟩
  | cons line rest ih =>
    rw [List.mapM_cons, List.forall_mem_cons, List.map_cons]
    unfold priced
    cases hline : (priceLine v op shared line c).1 with
    | error x => exact iff_of_false nofun fun h => nomatch h.1.1
    | ok p =>
      cases hrest : rest.mapM fun line => (priceLine v op shared line c).1 with
      | error x =>
        refine iff_of_false nofun fun h => ?_
        rw [ih.2 ⟨h.1.2, rfl⟩] at hrest
        cases hrest
      | ok others =>
        obtain ⟨hall, rfl⟩ := ih.1 hrest
        exact ⟨fun h => ⟨⟨rfl, hall⟩, Except.ok.inj h⟩, fun h => congrArg Except.ok h.2⟩

/-- Lines in another order are refused where they are: each is checked by itself, and so is
their number. -/
theorem validate_perm (h : lines.Perm lines') (hvalid : validate lines = .ok ()) :
    validate lines' = .ok () := by
  unfold validate at hvalid
  split at hvalid
  · cases hvalid
  · next hempty =>
    split at hvalid
    · cases hvalid
    · next hnone =>
      refine validate_eq_ok ?_ fun line hline hzero => ?_
      · rintro rfl
        rw [h.eq_nil] at hempty
        exact hempty rfl
      · exact List.find?_eq_none.1 hnone line (h.mem_iff.2 hline) (decide_eq_true hzero)

end Order

/-- **Lines in another order make the same order.** What they cost one by one is `price`. An order
is answered in three steps. The lines are priced, each on its own (`priceLines_eq_mapM`). They are
added up, which does not round (`foldlM_add_perm`). The volume rules are applied to what they come
to (`same_applyRules`), where only the number matters. -/
theorem View.order_perm {v : View} {op : Operation} {shared : Request}
    {lines lines' : List Order.Line} (hperm : lines.Perm lines') {c c₁ : Option Cache}
    (hlast : v.Lasting (2 * lines.length) c) {o : PricedOrder}
    (ho : v.order op lines shared c = (.ok o, c₁))
    (hfits : ((o.lines.map (·.total)).map Decimal.value).sum
      * pow10 (Decimal.finestScale (o.lines.map (·.total))) < Decimal.bound) :
    ∃ (price : Order.Line → Order.PricedLine) (o' : PricedOrder) (c₂ : Option Cache),
      v.order op lines' shared c = (.ok o', c₂)
        ∧ o.lines = lines.map price ∧ o'.lines = lines'.map price
        ∧ o.quantity = o'.quantity ∧ o.subtotal.SameNumber o'.subtotal
        ∧ o.discount.SameNumber o'.discount ∧ o.total.SameNumber o'.total := by
  obtain ⟨hvalid, hpriced, hreaches, htrace, htotal, hdiscount⟩ := View.order_eq_ok_iff.1 ho
  have hnonneg := (v.ends_order op lines shared).of_eq_ok ho
  -- The lines have the prices that they have on their own, and so they have in the other order.
  obtain ⟨hall, hlines⟩ := Order.mapM_priceLine_eq_ok_iff.1
    ((Order.priceLines_eq_mapM hlast).symm.trans (congrArg Prod.fst hpriced))
  have hlines' : (Order.priceLines v op shared lines' c).1
      = .ok (lines'.map (Order.priced v op shared c)) := by
    rw [Order.priceLines_eq_mapM (hperm.length_eq ▸ hlast), Order.mapM_priceLine_eq_ok_iff]
    exact ⟨fun line hline => hall line (hperm.mem_iff.2 hline), rfl⟩
  have hpricedPerm : o.lines.Perm (lines'.map (Order.priced v op shared c)) :=
    hlines ▸ hperm.map _
  -- They add up to the same, in money and in cylinders.
  have htotals := hpricedPerm.map (·.total)
  have hlineNonneg : ∀ d ∈ o.lines.map (·.total), 0 ≤ d.value :=
    List.forall_mem_map.2 fun line hline => Decimal.zero_le_iff.1 (hnonneg.lines line hline)
  obtain ⟨subtotal, subtotal', hsum, hsum', hsubtotal⟩ :=
    Decimal.foldlM_add_perm htotals hlineNonneg hfits
  obtain rfl : subtotal = o.subtotal := Option.some.inj (hsum.symm.trans hreaches.subtotal)
  have hquantity := hreaches.quantity
  rw [(hpricedPerm.map (·.quantity.toNat)).sum_eq] at hquantity
  -- The volume discounts make the same of the same.
  have hsame := v.same_applyRules hsubtotal op
    { shared with quantity := some o.quantity } (.only .volumeDiscount)
  rw [← htrace] at hsame
  rw [htotal] at hdiscount ⊢
  obtain ⟨discount', hdiscount', hdiscountSame⟩ :=
    Decimal.sub_sameNumber hsubtotal hsame.adjustedPrice hdiscount
  refine ⟨Order.priced v op shared c, ⟨lines'.map (Order.priced v op shared c), o.quantity,
    subtotal', discount', _, _⟩, _, View.order_eq_ok_iff.2 ⟨Order.validate_perm hperm hvalid,
      Prod.ext hlines' rfl, ?_, rfl, rfl, hdiscount'⟩,
    hlines.symm, rfl, rfl, hsubtotal, hdiscountSame, hsame.adjustedPrice⟩
  exact ⟨rfl, hsum', hquantity, hreaches.quantity_lt⟩

/-- **The order of an order's lines does not matter** where the answers to its look-ups last, and
where the sum of what its lines cost fits the finest of their scales, so that no part of it rounds.
If an order is answered then, so is every order of the same lines. Each line costs the same in both,
there are as many cylinders, and what the lines come to, what is taken off that and what is left are
the same numbers. -/
theorem getOrderPrice_perm {e : Engine} {t : Instant} {op : Operation} {shared : Request}
    {lines lines' : List Order.Line} (hperm : lines.Perm lines')
    (hlast : (e.view t).Lasting (2 * lines.length) e.cache) {o : PricedOrder}
    (ho : (e.getOrderPrice op lines shared t).1 = .ok o)
    (hfits : ((o.lines.map (·.total)).map Decimal.value).sum
      * pow10 (Decimal.finestScale (o.lines.map (·.total))) < Decimal.bound) :
    ∃ (price : Order.Line → Order.PricedLine) (o' : PricedOrder),
      (e.getOrderPrice op lines' shared t).1 = .ok o'
        ∧ o.lines = lines.map price ∧ o'.lines = lines'.map price
        ∧ o.quantity = o'.quantity ∧ o.subtotal.SameNumber o'.subtotal
        ∧ o.discount.SameNumber o'.discount ∧ o.total.SameNumber o'.total := by
  have horder : (e.view t).order op lines shared e.cache = (.ok o, _) := Prod.ext ho rfl
  obtain ⟨price, o', c', horder', hsame⟩ := View.order_perm hperm hlast horder hfits
  exact ⟨price, o', congrArg Prod.fst horder', hsame⟩

/-- A kilogram costs three, and a volume discount takes off ten percent. Two cylinders of
12.5 kilograms and three of 1.25 cost 75.0 and 11.25, whichever come first, and the order
77.6250. The two lines have totals of different scale, so what is added to what differs
between the two orders. -/
theorem getOrderPrice_perm_two_sizes : ∃ e o o' lines lines', e = Engine.initial.run
      [.setSetting "refill.fee_per_kg" (.number (.ofUInt32 3)) { author := ⟨"ann", none⟩ }
        (.number 1),
      .createRule
        { name := "tenth"
          ruleType := .volumeDiscount
          actions := [⟨.percentageDiscount, .ofUInt32 10⟩] } ⟨"ann", none⟩ (.number 2)]
    ∧ lines = ([⟨"a", 2, some ⟨false, 125, 1, by decide, by decide⟩⟩,
        ⟨"b", 3, some ⟨false, 125, 2, by decide, by decide⟩⟩] : List Order.Line)
    ∧ lines' = lines.reverse ∧ lines.Perm lines'
    ∧ (e.view ⟨3⟩).Lasting (2 * lines.length) e.cache
    ∧ (e.getOrderPrice .refill lines {} ⟨3⟩).1 = .ok o
    ∧ ((o.lines.map (·.total)).map Decimal.value).sum
      * pow10 (Decimal.finestScale (o.lines.map (·.total))) < Decimal.bound
    ∧ (e.getOrderPrice .refill lines' {} ⟨3⟩).1 = .ok o'
    ∧ o.lines.map (·.total)
      = [⟨false, 750, 1, by decide, by decide⟩, ⟨false, 1125, 2, by decide, by decide⟩]
    ∧ o.total = ⟨false, 776250, 4, by decide, by decide⟩ ∧ o.total.SameNumber o'.total
    ∧ o.quantity = o'.quantity := by
  obtain ⟨e, he⟩ : ∃ e, e = Engine.initial.run
      [.setSetting "refill.fee_per_kg" (.number (.ofUInt32 3)) { author := ⟨"ann", none⟩ }
        (.number 1),
      .createRule
        { name := "tenth"
          ruleType := .volumeDiscount
          actions := [⟨.percentageDiscount, .ofUInt32 10⟩] } ⟨"ann", none⟩ (.number 2)] := ⟨_, rfl⟩
  obtain ⟨lines, hlines⟩ : ∃ lines, lines = ([⟨"a", 2, some ⟨false, 125, 1, by decide, by decide⟩⟩,
      ⟨"b", 3, some ⟨false, 125, 2, by decide, by decide⟩⟩] : List Order.Line) := ⟨_, rfl⟩
  have hanswer : (match (e.getOrderPrice .refill lines {} ⟨3⟩).1 with
      | .ok o => (o.lines.map (·.total), o.total)
      | .error _ => ([], .zero)) = ([⟨false, 750, 1, by decide, by decide⟩,
        ⟨false, 1125, 2, by decide, by decide⟩], ⟨false, 776250, 4, by decide, by decide⟩) := by
    subst he hlines
    decide +kernel
  have hlast : (e.view ⟨3⟩).Lasting (2 * lines.length) e.cache := by
    subst he hlines
    refine .inr fun c hc => ?_
    cases hc
    decide
  split at hanswer
  · next o ho =>
    obtain ⟨htotals, htotal⟩ := Prod.mk.inj hanswer
    have hfits : ((o.lines.map (·.total)).map Decimal.value).sum
        * pow10 (Decimal.finestScale (o.lines.map (·.total))) < Decimal.bound := by
      rw [htotals]
      norm_num [Decimal.value, Decimal.signed, Decimal.finestScale, pow10, Decimal.bound_eq]
    have hperm := lines.reverse_perm.symm
    obtain ⟨price, o', ho', -, -, hquantity, -, -, hsame⟩ :=
      getOrderPrice_perm hperm hlast ho hfits
    exact ⟨e, o, o', lines, _, he, hlines, rfl, hperm, hlast, ho, hfits, ho', htotals, htotal,
      hsame, hquantity⟩
  · cases hanswer

/-! ## Where answers do not last -/

/-- Two whole numbers of 32 bits are added up exactly. So no rounding explains why the two orders
below do not agree. -/
theorem Decimal.sum_ofUInt32_lt_bound (m n : UInt32) :
    ([ofUInt32 m, ofUInt32 n].map value).sum * pow10 (finestScale [ofUInt32 m, ofUInt32 n])
      < bound := by
  have hvalue : ∀ n : UInt32, (ofUInt32 n).value = n.toNat := by
    intro n
    unfold value signed ofUInt32
    simp [pow10_zero]
  have hsmall : ((m.toNat + n.toNat : Nat) : ℚ) < bound := by
    have hm := m.toNat_lt
    have hn := n.toNat_lt
    rw [← lt_capacity_iff]
    unfold capacity
    omega
  rw [show finestScale [ofUInt32 m, ofUInt32 n] = 0 from rfl, Nat.cast_zero, pow10_zero, mul_one]
  simp only [List.map_cons, List.map_nil, List.sum_cons, List.sum_nil, add_zero, hvalue]
  exact_mod_cast hsmall

/-- **Where answers go, the order of the lines matters.** A refill is a hundred until instant 4, and
two hundred from then on. Before, a cylinder of one kind is priced, and what else has been asked
fills the cache. At instant 4 that kind still costs a hundred if it is the first line of an order,
and the other kind costs two hundred. If the other kind comes first, its answer puts the old one out
of the cache, and both cost two hundred. So one order of the lines comes to 300 and the other one to
400, and nothing is rounded. -/
theorem total_moves_where_answers_go : ∃ e o o', Engine.create {} = .ok Engine.initial
    ∧ e = Engine.initial.run ([
        .setSetting "refill.base_price" (.number .hundred)
          { author := ⟨"ann", none⟩, expiryDate := some ⟨4⟩ } (.number 1),
        .setSetting "refill.base_price" (.number (.ofUInt32 200))
          { author := ⟨"ann", none⟩, scope := { operationType := some .refill }
            effectiveDate := some ⟨4⟩ } (.number 2),
        .getPrice .refill { cylinderType := some "a" } ⟨3⟩]
      ++ (Request.ofTiers 9999).map fun r => .getSetting "refill.base_price" r ⟨3⟩)
    ∧ ([⟨"a", 1, none⟩, ⟨"b", 1, none⟩] : List Order.Line).Perm [⟨"b", 1, none⟩, ⟨"a", 1, none⟩]
    ∧ (e.getOrderPrice .refill [⟨"a", 1, none⟩, ⟨"b", 1, none⟩] {} ⟨4⟩).1 = .ok o
    ∧ (e.getOrderPrice .refill [⟨"b", 1, none⟩, ⟨"a", 1, none⟩] {} ⟨4⟩).1 = .ok o'
    ∧ ((o.lines.map (·.total)).map Decimal.value).sum
      * pow10 (Decimal.finestScale (o.lines.map (·.total))) < Decimal.bound
    ∧ ((o'.lines.map (·.total)).map Decimal.value).sum
      * pow10 (Decimal.finestScale (o'.lines.map (·.total))) < Decimal.bound
    ∧ ¬ o.total.SameNumber o'.total
    ∧ ¬ (o.lines.map (·.total)).Perm (o'.lines.map (·.total)) := by
  obtain ⟨e, c, he, hc, hrules, hold⟩ := Engine.exists_displaces
  rw [Call.untilFull, Call.untilPriced] at he
  have hread := hold.read
  rw [← hold.kept] at hread
  -- With the line of the old answer first, that answer is served, and the other line is read anew.
  have horder : (e.getOrderPrice .refill [⟨"a", 1, none⟩, ⟨"b", 1, none⟩] {} ⟨4⟩).1
      = .ok ⟨[⟨"a", 1, .hundred, .hundred, []⟩, ⟨"b", 1, .ofUInt32 200, .ofUInt32 200, []⟩],
        2, .ofUInt32 300, .zero, .ofUInt32 300, .start (.ofUInt32 300)⟩ := by
    unfold Engine.getOrderPrice
    rw [Engine.read_fst, hc]
    exact View.order_two_eq_ok hrules hold.served hread (by decide) (by decide) (by decide)
      (by decide)
  -- With the other line first, its answer puts the old one out, and both lines are read anew.
  have horder' : (e.getOrderPrice .refill [⟨"b", 1, none⟩, ⟨"a", 1, none⟩] {} ⟨4⟩).1
      = .ok ⟨[⟨"b", 1, .ofUInt32 200, .ofUInt32 200, []⟩,
          ⟨"a", 1, .ofUInt32 200, .ofUInt32 200, []⟩],
        2, .ofUInt32 400, .zero, .ofUInt32 400, .start (.ofUInt32 400)⟩ := by
    unfold Engine.getOrderPrice
    rw [Engine.read_fst, hc]
    exact View.order_two_eq_ok hrules hold.read hold.readAfter (by decide) (by decide) (by decide)
      (by decide)
  exact ⟨e, _, _, rfl, he, .swap _ _ _, horder, horder', Decimal.sum_ofUInt32_lt_bound 100 200,
    Decimal.sum_ofUInt32_lt_bound 200 200, by decide, by decide⟩

end Tariff
