import Tariff.Proofs.Lasting
import Tariff.Proofs.Orders

/-!
# An old answer that is put out

The cache serves an answer until its time is over, whatever has begun or expired since then. A
look-up that it has no answer to needs an entry, and where there is no room the oldest one goes. So
there may be a full cache whose oldest answer is out of date: it is served as long as nothing else
is asked, and as soon as something else is asked it is gone, and the store is read instead
(`View.Displaces`).

With such a cache a price is one thing if it is asked for at once, and another thing after
another price. The computations are the same in both cases; only what they find has changed. This
is why prices are compared below where answers last (`View.Lasting`), and here is an engine that
shows that they have to last (`Engine.exists_displaces`). It has been asked once for the
price of a refill, and for so much besides that its cache is full. Then another price for refills
begins to apply.
-/

namespace Tariff

/-! ## A full cache

These lemmas are about a cache alone, whatever its entries say. -/

namespace Cache

variable {c : Cache} {t : Instant}

/-- **The first entry is the oldest** if it was put in no later than the others. Among entries of
one instant the first is taken. -/
theorem oldest?_cons_of_le {entry : Entry} {rest : List Entry}
    (h : ∀ e ∈ rest, entry.insertedAt ≤ e.insertedAt) :
    oldest? (entry :: rest) = some entry := by
  rw [oldest?]
  split
  · rfl
  · next o ho =>
    have hle := h o (oldest?_eq_some ho).1
    rw [Instant.le_iff] at hle
    rw [if_neg (by rw [Instant.lt_iff]; omega)]

/-- **A cache that is full behind its first entry.** There is no room, everything may still be
served, and no entry is older than the first; so this one is the next to go. The others are for
requests that name a customer tier, and so for none that leaves the tier open. -/
structure FullBehind (c : Cache) (entry : Entry) (t : Instant) : Prop where
  isFull : c.IsFull t
  first : ∃ rest, c.entries = entry :: rest ∧ ∀ e ∈ rest,
    entry.insertedAt ≤ e.insertedAt ∧ e.scope.customerTier.isSome = true

namespace FullBehind

variable {entry : Entry} (h : c.FullBehind entry t)
include h

/-- The first entry is served, as it is the first that is for its own key and dimensions. -/
theorem find?_eq : c.find? entry.key entry.scope t = some entry.value := by
  obtain ⟨rest, hentries, -⟩ := h.first
  have hfor : entry.isFor entry.key entry.scope = true := Entry.isFor_iff.2 ⟨rfl, rfl⟩
  unfold find? entry?
  rw [hentries, List.find?_cons, hfor]
  dsimp only
  rw [if_pos (h.isFull.2 entry (hentries ▸ List.mem_cons_self))]

/-- No other one is for dimensions that leave the tier open, so that a request without a tier for
which the first entry is not finds nothing. -/
theorem entry?_eq_none {scope : Scope} (htier : scope.customerTier = none)
    (hne : scope ≠ entry.scope) : c.entry? entry.key scope = none := by
  obtain ⟨rest, hentries, hrest⟩ := h.first
  refine List.find?_eq_none.2 fun e he hfor => ?_
  have hscope := (Entry.isFor_iff.1 hfor).2
  rw [hentries] at he
  rcases List.mem_cons.1 he with rfl | he
  · exact hne hscope.symm
  · have hsome := (hrest e he).2
    rw [hscope, htier] at hsome
    cases hsome

/-- **The first entry goes** where room is made: nothing has expired, and it is the oldest. -/
theorem entry?_makeRoom : entry? (c.makeRoom t) entry.key entry.scope = none := by
  obtain ⟨rest, hentries, hrest⟩ := h.first
  rw [makeRoom_of_isFull h.isFull]
  unfold evictOldest
  rw [hentries, oldest?_cons_of_le fun e he => (hrest e he).1]
  refine List.find?_eq_none.2 fun e he hfor => ?_
  have hnot := (List.mem_filter.1 he).2
  rw [hfor] at hnot
  cases hnot

end FullBehind

end Cache

namespace View

variable {v : View} {c : Cache} {key : String} {r r' : Request} {old new : Decimal}

/-- **One look-up puts out the answer of another.** For the request `r` the cache serves a number
that the store does not say any more. A look-up for `r'` reads the store, which says `new` for
both; and after it the store is read for `r` as well. -/
structure Displaces (v : View) (c : Cache) (key : String) (r r' : Request) (old new : Decimal) :
    Prop where
  served : (v.resolve key r (some c)).1.bind Value.decimal? = some old
  kept : (v.resolve key r (some c)).2 = some c
  read : (v.resolve key r' (some c)).1.bind Value.decimal? = some new
  readAfter : (v.resolve key r (v.resolve key r' (some c)).2).1.bind Value.decimal? = some new

/-- **A cache that is full behind an old answer loses it** to a look-up that it has no answer
to. For `r` the first entry is served, and nothing changes. For `r'` there is no entry, so that
the store is read, and its answer needs room; the first entry goes, and then the store is read
for `r` too. -/
theorem displaces_of_fullBehind {entry : Cache.Entry} (h : c.FullBehind entry v.now)
    (hr : entry.scope = r.dimensions) (htier : r'.customerTier = none)
    (hne : r'.dimensions ≠ r.dimensions) (hold : entry.value.bind Value.decimal? = some old)
    (hnew : (v.value? entry.key r).bind Value.decimal? = some new)
    (hnew' : (v.value? entry.key r').bind Value.decimal? = some new) :
    v.Displaces c entry.key r r' old new := by
  -- For `r` there is a fresh entry, and none for `r'`; to make room for that one, the first one
  -- goes.
  have hhit : c.find? entry.key r.dimensions v.now = some entry.value := hr ▸ h.find?_eq
  have hnone : c.entry? entry.key r'.dimensions = none :=
    h.entry?_eq_none htier (hr ▸ hne)
  have hmiss : c.find? entry.key r'.dimensions v.now = none := by
    unfold Cache.find?
    rw [hnone]
  have hgone : (c.makeRoom v.now).find? entry.key r.dimensions v.now = none := by
    unfold Cache.find?
    rw [← hr, h.entry?_makeRoom]
  refine ⟨?_, ?_, ?_, ?_⟩
  · rw [resolve_fst, hhit]
    exact hold
  · rw [resolve_snd, hhit]
    rfl
  · rw [resolve_fst, hmiss]
    exact hnew'
  · -- What was put in for `r'` is not for `r`, and the entry that was has gone.
    have hother : ¬(entry.key = entry.key ∧ r.dimensions = r'.dimensions) := fun hsame =>
      hne hsame.2.symm
    rw [resolve_snd, hmiss, hnone]
    simp only [Option.isSome_none, Bool.false_eq_true, if_false]
    rw [resolve_fst, Cache.find?_put, if_neg hother, hgone]
    exact hnew

end View

/-! ## Filling a cache

The cache of a new engine has room for many entries, so it is not filled by hand. A run that asks
for one key again and again, each time for another tier, fills it; and what it leaves is known from
the lemma about such runs, without carrying it out. -/

/-- **Reads of one key for requests that nobody has made** fill the cache with an entry each, in
their order, as long as there is room. The store stays the same, so that each read finds what it
would have found at the beginning. -/
theorem Engine.run_getSetting_new {e : Engine} {c : Cache} (hc : e.cache = some c) (key : String)
    (t : Instant) {requests : List Request} (hnodup : (requests.map Request.dimensions).Nodup)
    (hnew : ∀ r ∈ requests, c.entry? key r.dimensions = none)
    (hroom : c.size + requests.length ≤ c.capacity) :
    e.run (requests.map fun r => .getSetting key r t) = { e with
      cache := some { c with
        entries := c.entries
          ++ requests.map fun r => ⟨key, r.dimensions, (e.view t).value? key r, t⟩ } } := by
  -- Each read leaves an engine of the same kind, with one entry more and less room.
  induction requests generalizing e c with
  | nil =>
    simp only [List.map_nil, List.append_nil]
    rw [← hc]
    rfl
  | cons r rest ih =>
    obtain ⟨hr, hrest⟩ := List.forall_mem_cons.1 hnew
    obtain ⟨hfirst, hothers⟩ := List.nodup_cons.1 hnodup
    rw [List.length_cons] at hroom
    have hmiss : c.find? key r.dimensions (e.view t).now = none := by
      unfold Cache.find?
      rw [hr]
    -- Nothing is put out, since no entry is for this request.
    have hput : c.put ⟨key, r.dimensions, (e.view t).value? key r, t⟩ = { c with
        entries := c.entries ++ [⟨key, r.dimensions, (e.view t).value? key r, t⟩] } := by
      unfold Cache.put
      rw [List.filter_eq_self.2 fun entry hentry => ?_]
      rw [Bool.not_eq_true', Bool.eq_false_iff]
      exact List.find?_eq_none.1 hr entry hentry
    have hstep : e.perform (.getSetting key r t) = { e with cache := some { c with
        entries := c.entries ++ [⟨key, r.dimensions, (e.view t).value? key r, t⟩] } } := by
      show { e with cache := ((e.view t).resolve key r e.cache).2 } = _
      rw [hc, View.resolve_snd_of_room (by omega), hmiss, ← hput]
      rfl
    rw [List.map_cons, run, List.foldl_cons, hstep]
    refine (ih rfl hothers (fun r' hr' => ?_) ?_).trans ?_
    · rw [← hput, Cache.entry?_put, if_neg, hrest r' hr']
      rintro ⟨-, hdimensions⟩
      have hdimensions : r'.dimensions = r.dimensions := hdimensions
      exact hfirst (hdimensions ▸ List.mem_map_of_mem hr')
    · rw [Cache.size, List.length_append, List.length_singleton]
      unfold Cache.size at hroom
      dsimp only
      omega
    · rw [List.append_assoc]
      rfl

/-- Requests of so many customer tiers. A tier may be any text, so there are as many of them as a
cache has room for. -/
def Request.ofTiers (n : Nat) : List Request :=
  (List.range n).map fun i => { customerTier := some (String.ofList (List.replicate i 'x')) }

/-- They have different dimensions, as the texts have different lengths. -/
theorem Request.nodup_dimensions_ofTiers (n : Nat) :
    ((Request.ofTiers n).map Request.dimensions).Nodup := by
  unfold ofTiers
  rw [List.map_map]
  refine List.nodup_range.map fun i j hij => ?_
  have htiers : some (String.ofList (List.replicate i 'x'))
      = some (String.ofList (List.replicate j 'x')) := congrArg Scope.customerTier hij
  have hlists := String.ofList_injective (Option.some.inj htiers)
  rwa [List.replicate_inj, and_iff_left (.inr rfl)] at hlists

/-- **A cache with one entry is filled** by reads of one key at the same instant, for requests of
other tiers; and it is full behind this entry as long as the entry may be served. -/
theorem Engine.run_ofTiers {e : Engine} {c : Cache} {entry : Cache.Entry} (hc : e.cache = some c)
    (hentries : c.entries = [entry]) (hentry : entry.scope.customerTier = none) (key : String)
    {n : Nat} (hn : n + 1 = c.capacity) {t : Instant} (hfresh : c.isFresh t entry = true) :
    ∃ c', e.run ((Request.ofTiers n).map fun r => .getSetting key r entry.insertedAt)
        = { e with cache := some c' } ∧ c'.FullBehind entry t := by
  have hlength : (Request.ofTiers n).length = n := by
    unfold Request.ofTiers
    rw [List.length_map, List.length_range]
  have hsize : c.size = 1 := congrArg List.length hentries
  -- All these requests name a tier, and the one entry that there is has none.
  have hnew : ∀ r ∈ Request.ofTiers n, c.entry? key r.dimensions = none := by
    refine List.forall_mem_map.2 fun i _ => List.find?_eq_none.2 fun x hx hfor => ?_
    rw [hentries, List.mem_singleton] at hx
    subst hx
    rw [(Cache.Entry.isFor_iff.1 hfor).2] at hentry
    cases hentry
  have hrun := e.run_getSetting_new hc key entry.insertedAt (Request.nodup_dimensions_ofTiers n)
    hnew (by rw [hlength, hsize]; omega)
  have hothers : ∀ x ∈ (Request.ofTiers n).map fun r =>
      (⟨key, r.dimensions, (e.view entry.insertedAt).value? key r, entry.insertedAt⟩ :
        Cache.Entry), x.insertedAt = entry.insertedAt ∧ x.scope.customerTier.isSome = true :=
    List.forall_mem_map.2 (List.forall_mem_map.2 fun _ _ => ⟨rfl, rfl⟩)
  refine ⟨_, hrun, ⟨?_, ?_⟩, _, by dsimp only; rw [hentries]; rfl, fun x hx => ?_⟩
  · unfold Cache.size
    dsimp only
    rw [hentries, List.length_append, List.length_map, hlength, ← hn, List.length_singleton,
      Nat.add_comm]
  · -- All were put in when the first one was.
    intro x hx
    have hinserted : x.insertedAt = entry.insertedAt := by
      rw [hentries] at hx
      rcases List.mem_append.1 hx with hx | hx
      · rw [List.mem_singleton.1 hx]
      · exact (hothers x hx).1
    unfold Cache.isFresh at hfresh ⊢
    rwa [hinserted]
  · obtain ⟨hinserted, htier⟩ := hothers x hx
    exact ⟨by rw [hinserted, Instant.le_iff], htier⟩

/-! ## Prices of single cylinders

To keep the example small it has no rules, and lines of one cylinder. A price is then nothing but
what was looked up. -/

/-- **A line costs what is looked up** for one cylinder, times its quantity, with what the rules
make of that. All that is used of the look-up is that it answers with a number. -/
theorem Order.priceLine_of_resolve {v : View} {op : Operation} {shared : Request} {line : Line}
    {c : Option Cache} {unit amount : Decimal}
    (hunit : (v.resolve op.basePriceKey ((line.request shared).withOperation op) c).1.bind
      Value.decimal? = some unit)
    (hquantity : line.quantity ≠ 0) (hamount : unit.mul (.ofUInt32 line.quantity) = some amount) :
    priceLine v op shared line c
      = (.ok (let trace := v.applyRules amount op (line.request shared) (.except .volumeDiscount)
          ⟨line.cylinderType, line.quantity, unit, trace.adjustedPrice, trace.appliedRuleIds⟩),
        (v.resolve op.basePriceKey ((line.request shared).withOperation op) c).2) := by
  -- The unit price is set, so the fee per kilogram is not looked up.
  refine priceLine_eq_ok_iff.2 ⟨⟨op.basePriceKey, unit, line.quantity, amount⟩, ?_, rfl⟩
  obtain ⟨value, hvalue, hdecimal⟩ := Option.bind_eq_some_iff.1 hunit
  have hprice : v.price? op.basePriceKey ((line.request shared).withOperation op) c
      = (.ok (some unit), (v.resolve op.basePriceKey
        ((line.request shared).withOperation op) c).2) := by
    unfold View.price?
    refine Pricing.bind_eq_ok_iff.2 ⟨some value, _, Prod.ext (congrArg Except.ok hvalue) rfl, ?_⟩
    dsimp only
    rw [hdecimal]
    rfl
  unfold View.basePrice
  dsimp only
  rw [show (line.request shared).quantity.getD 1 = line.quantity from rfl, if_neg hquantity]
  have hunitPrice : v.unitPrice op ((line.request shared).withOperation op) c
      = (.ok (op.basePriceKey, unit),
        (v.resolve op.basePriceKey ((line.request shared).withOperation op) c).2) :=
    Pricing.bind_eq_ok_iff.2 ⟨some unit, _, hprice, rfl⟩
  refine Pricing.bind_eq_ok_iff.2 ⟨(op.basePriceKey, unit), _, hunitPrice, ?_⟩
  dsimp only
  rw [hamount]
  rfl

/-- A line and the others are priced one after the other. -/
theorem Order.priceLines_cons_eq_ok {v : View} {op : Operation} {shared : Request} {line : Line}
    {rest : List Line} {p : PricedLine} {others : List PricedLine} {c c₁ c₂ : Option Cache}
    (hline : priceLine v op shared line c = (.ok p, c₁))
    (hrest : priceLines v op shared rest c₁ = (.ok others, c₂)) :
    priceLines v op shared (line :: rest) c = (.ok (p :: others), c₂) := by
  unfold priceLines at hrest ⊢
  rw [List.mapM_cons, Pricing.bind_eq_of_eq_ok hline, Pricing.bind_eq_of_eq_ok hrest]
  rfl

/-- Without rules a price that is not below zero stays as it is. -/
theorem View.applyRules_of_no_rules {v : View} (hv : v.store.rules.values = []) {price : Decimal}
    (hprice : price.isNegative = false) (op : Operation) (r : Request) (filter : RuleFilter) :
    v.applyRules price op r filter = .start price := by
  unfold applyRules Store.liveRules Trace.evaluate Rule.inOrder Trace.clamp
  rw [hv, List.filter_nil, List.mergeSort_nil, List.filter_nil, List.mergeSort_nil,
    List.foldl_nil, show (Trace.start price).adjustedPrice = price from rfl, hprice]
  rfl

/-- The request of a line of one cylinder of a kind, for an operation. -/
def Operation.requestOfOne (op : Operation) (kind : String) : Request :=
  ((⟨kind, 1, none⟩ : Order.Line).request {}).withOperation op

/-- **One cylinder of a kind costs what is looked up** for it, where there are no rules. -/
theorem Order.priceLine_of_one {v : View} (hv : v.store.rules.values = []) {op : Operation}
    {kind : String} {c : Option Cache} {price : Decimal}
    (hlookUp : (v.resolve op.basePriceKey (op.requestOfOne kind) c).1.bind Value.decimal?
      = some price)
    (hone : price.mul (.ofUInt32 1) = some price) (hnonneg : price.isNegative = false) :
    priceLine v op {} ⟨kind, 1, none⟩ c
      = (.ok ⟨kind, 1, price, price, []⟩,
        (v.resolve op.basePriceKey (op.requestOfOne kind) c).2) := by
  refine (priceLine_of_resolve hlookUp (show (1 : UInt32) ≠ 0 by decide) hone).trans ?_
  rw [View.applyRules_of_no_rules hv hnonneg]
  rfl

/-- **An order of one cylinder of each of two kinds** comes to what is looked up for the two, one
after the other, where there are no rules. The second look-up finds the cache as the first has left
it, which is all that makes the order of the lines matter. -/
theorem View.order_two_eq_ok {v : View} (hv : v.store.rules.values = []) {op : Operation}
    {kind kind' : String} {c : Option Cache} {price price' sum discount : Decimal}
    (hfirst : (v.resolve op.basePriceKey (op.requestOfOne kind) c).1.bind Value.decimal?
      = some price)
    (hsecond : (v.resolve op.basePriceKey (op.requestOfOne kind')
      (v.resolve op.basePriceKey (op.requestOfOne kind) c).2).1.bind Value.decimal? = some price')
    (hone : price.mul (.ofUInt32 1) = some price ∧ price'.mul (.ofUInt32 1) = some price')
    (hnonneg : price.isNegative = false ∧ price'.isNegative = false ∧ sum.isNegative = false)
    (hsum : [price, price'].foldlM Decimal.add .zero = some sum)
    (hdiscount : sum.sub sum = some discount) :
    (v.order op [⟨kind, 1, none⟩, ⟨kind', 1, none⟩] {} c).1
      = .ok ⟨[⟨kind, 1, price, price, []⟩, ⟨kind', 1, price', price', []⟩], 2, sum, discount, sum,
        .start sum⟩ := by
  have hline := Order.priceLine_of_one hv hfirst hone.1 hnonneg.1
  have hline' := Order.priceLine_of_one hv hsecond hone.2 hnonneg.2.1
  have hnone : ∀ c, Order.priceLines v op {} [] c = (.ok [], c) := fun _ => rfl
  have hpriced := Order.priceLines_cons_eq_ok hline (Order.priceLines_cons_eq_ok hline' (hnone _))
  have hreaches : Order.Tally.Reaches {}
      [⟨kind, 1, price, price, []⟩, ⟨kind', 1, price', price', []⟩]
      ⟨[⟨kind, 1, price, price, []⟩, ⟨kind', 1, price', price', []⟩], sum, 2⟩ :=
    ⟨rfl, hsum, rfl, show 2 < 2 ^ 32 by decide⟩
  refine congrArg Prod.fst (View.order_eq_ok_iff.2 ⟨rfl, hpriced, hreaches, ?_, rfl, hdiscount⟩)
  exact (applyRules_of_no_rules hv hnonneg.2.2 _ _ _).symm

/-! ## An engine with an old answer -/

/-- **A refill changes its price**: it is a hundred until instant 4, and two hundred from then on.
Before, a cylinder of kind `a` is priced once. -/
def Call.untilPriced : List Call := [
  .setSetting "refill.base_price" (.number .hundred)
    { author := ⟨"ann", none⟩, expiryDate := some ⟨4⟩ } (.number 1),
  .setSetting "refill.base_price" (.number (.ofUInt32 200))
    { author := ⟨"ann", none⟩, scope := { operationType := some .refill }
      effectiveDate := some ⟨4⟩ } (.number 2),
  .getPrice .refill { cylinderType := some "a" } ⟨3⟩]

/-- And then so much else is asked that the cache is full. -/
def Call.untilFull : List Call :=
  Call.untilPriced ++ (Request.ofTiers 9999).map fun r => .getSetting "refill.base_price" r ⟨3⟩

namespace Engine

/-- The cache has kept the price of kind `a`, and nothing else. -/
theorem exists_cache_untilPriced : ∃ c entry, (initial.run Call.untilPriced).cache = some c
    ∧ c.entries = [entry] ∧ c.capacity = 10000 ∧ c.isFresh ⟨4⟩ entry = true
    ∧ entry.key = "refill.base_price" ∧ entry.scope = (Operation.refill.requestOfOne "a").dimensions
    ∧ entry.insertedAt = ⟨3⟩ ∧ entry.value.bind Value.decimal? = some .hundred := by
  have hcache : (initial.run Call.untilPriced).cache.map (fun c =>
      (c.capacity, c.entries.all fun entry => c.isFresh ⟨4⟩ entry)) = some (10000, true) := by
    decide +kernel
  have hkept : (initial.run Call.untilPriced).cache.map (fun c => c.entries.map fun entry =>
      (entry.key, entry.scope, entry.insertedAt, entry.value.bind Value.decimal?))
      = some [("refill.base_price", (Operation.refill.requestOfOne "a").dimensions, ⟨3⟩,
        some .hundred)] := by
    decide +kernel
  obtain ⟨c, hc, hfields⟩ := Option.map_eq_some_iff.1 hcache
  obtain ⟨hcapacity, hfresh⟩ := Prod.mk.inj hfields
  rw [hc, Option.map_some, Option.some.injEq, List.map_eq_singleton_iff] at hkept
  obtain ⟨entry, hentries, hfields⟩ := hkept
  simp only [Prod.mk.injEq] at hfields
  rw [hentries, List.all_cons, List.all_nil, Bool.and_true] at hfresh
  exact ⟨c, entry, hc, hentries, hcapacity, hfresh, hfields⟩

/-- From instant 4 on the store says two hundred for each kind: the setting for a hundred has
expired by then, and the other one has begun. -/
theorem value?_untilPriced : ∀ kind ∈ ["a", "b"],
    (((initial.run Call.untilPriced).view ⟨4⟩).value? "refill.base_price"
      (Operation.refill.requestOfOne kind)).bind Value.decimal? = some (.ofUInt32 200) := by
  decide +kernel

/-- **The engine that was asked all this has an old answer**, which any other look-up puts out: at
instant 4 its cache says a hundred for kind `a`, and that goes for the answer for kind `b`. There
are no rules. -/
theorem exists_displaces : ∃ e c, e = initial.run Call.untilFull ∧ e.cache = some c
    ∧ e.store.rules.values = []
    ∧ (e.view ⟨4⟩).Displaces c Operation.refill.basePriceKey (Operation.refill.requestOfOne "a")
      (Operation.refill.requestOfOne "b") .hundred (.ofUInt32 200) := by
  obtain ⟨c₀, entry, hc₀, hentries, hcapacity, hfresh, hkey, hscope, hinserted, hvalue⟩ :=
    exists_cache_untilPriced
  have htier : entry.scope.customerTier = none := hscope ▸ rfl
  obtain ⟨c, hrun, hfull⟩ := (initial.run Call.untilPriced).run_ofTiers hc₀ hentries htier
    "refill.base_price" (n := 9999) (by rw [hcapacity]) hfresh
  rw [hinserted] at hrun
  -- The cache is all that the look-ups have changed.
  have hengine : initial.run Call.untilFull
      = { initial.run Call.untilPriced with cache := some c } := by
    rw [← hrun]
    exact List.foldl_append
  have hrules : (initial.run Call.untilPriced).store.rules.values.isEmpty = true := by
    decide +kernel
  have hne : (Operation.refill.requestOfOne "b").dimensions
      ≠ (Operation.refill.requestOfOne "a").dimensions := by decide
  have hdisplaces : ((initial.run Call.untilPriced).view ⟨4⟩).Displaces c entry.key
      (Operation.refill.requestOfOne "a") (Operation.refill.requestOfOne "b") .hundred
      (.ofUInt32 200) :=
    View.displaces_of_fullBehind hfull hscope rfl hne hvalue
      (hkey ▸ value?_untilPriced "a" (by decide)) (hkey ▸ value?_untilPriced "b" (by decide))
  rw [hkey] at hdisplaces
  exact ⟨_, c, hengine.symm, rfl, List.isEmpty_iff.1 hrules, hdisplaces⟩

end Engine

end Tariff
