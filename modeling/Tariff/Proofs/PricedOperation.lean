import Mathlib.Data.List.Forall2
import Tariff.Proofs.Run

/-!
# The priced operation alone decides

A price is asked for an operation, and the request may name an operation as well. The two need
not agree: a caller fills the request in once and asks for the prices of several operations with
it, or leaves the operation out. It is the priced operation that counts, and what the request
names is **not seen at all**. Otherwise two callers who ask for the same thing would pay
differently, and worse, what the one was told would be kept in the cache and told to the other.

The operation of a request is read in three places: by scopes, by conditions, and by the cache,
which keeps answers by dimensions. All of them get `Request.withOperation`, and of requests that
differ in nothing but the operation they name (`Request.SameButOperation`) this is one and the
same request (`SameButOperation.withOperation_eq`). What is read of the request as it came is
something else: the outlet, the quantity and the size of the cylinder. In an order the request is
made into those of the lines and that of the sum, and these again differ in the operation only.

So the answers are equal, failures included, and the cache is left the same. Hence it does not
matter either what earlier requests named (`Engine.run_eq_of_alike`).
-/

namespace Tariff

/-! ## Requests that differ in the operation they name -/

/-- **Requests that are the same but for the operation they name**, if they name one. -/
structure Request.SameButOperation (r r' : Request) : Prop where
  outletId : r.outletId = r'.outletId
  cylinderType : r.cylinderType = r'.cylinderType
  customerTier : r.customerTier = r'.customerTier
  quantity : r.quantity = r'.quantity
  cylinderSize : r.cylinderSize = r'.cylinderSize

namespace Request.SameButOperation

variable {r r' : Request}

/-- **For one operation they are one request.** -/
theorem withOperation_eq (h : r.SameButOperation r') (op : Operation) :
    r.withOperation op = r'.withOperation op := by
  unfold withOperation
  simp only [h.outletId, h.cylinderType, h.customerTier, h.quantity, h.cylinderSize]

/-- They stay so if both get one quantity, as for the sum of an order. -/
theorem withQuantity (h : r.SameButOperation r') (n : Option UInt32) :
    SameButOperation { r with quantity := n } { r' with quantity := n } :=
  { h with quantity := rfl }

/-- They stay so when they are made into the requests of a line. -/
theorem request (h : r.SameButOperation r') (line : Order.Line) :
    (line.request r).SameButOperation (line.request r') where
  outletId := h.outletId
  cylinderType := rfl
  customerTier := h.customerTier
  quantity := rfl
  cylinderSize := congrArg line.cylinderSize.or h.cylinderSize

end Request.SameButOperation

/-! ## What is worked out for them -/

section

variable {r r' : Request} (h : r.SameButOperation r') (op : Operation)
include h

/-- **A rule applies to both or to neither**: its conditions see the operation that is priced, and
its limit on outlets sees the outlet. -/
theorem Rule.appliesTo_of_sameButOperation (rule : Rule) :
    rule.appliesTo op r = rule.appliesTo op r' := by
  unfold appliesTo
  rw [h.outletId, h.withOperation_eq]

/-- So a trace goes on the same way, rule by rule. -/
theorem Trace.extend_of_sameButOperation : Trace.extend op r = Trace.extend op r' := by
  funext t rule
  unfold Trace.extend Trace.outcome
  rw [rule.appliesTo_of_sameButOperation h]

namespace View

variable (v : View)

theorem applyRules_of_sameButOperation (price : Decimal) (filter : RuleFilter) :
    v.applyRules price op r filter = v.applyRules price op r' filter := by
  unfold applyRules Trace.evaluate
  rw [Trace.extend_of_sameButOperation h]

/-- **They have one base price**, looked up for the operation that is priced. -/
theorem basePrice_of_sameButOperation : v.basePrice op r = v.basePrice op r' := by
  unfold basePrice
  rw [h.quantity, h.withOperation_eq]

/-- They have one price: one base price, and what the rules make of it. -/
theorem price_of_sameButOperation : v.price op r = v.price op r' := by
  unfold price
  rw [v.basePrice_of_sameButOperation h]
  simp only [v.applyRules_of_sameButOperation h]

/-- They have one quote. The tax is looked up for the same request as the price. -/
theorem quote_of_sameButOperation (usual : TaxMode) : v.quote usual op r = v.quote usual op r' := by
  unfold quote
  rw [v.basePrice_of_sameButOperation h, h.withOperation_eq]
  simp only [v.applyRules_of_sameButOperation h]

/-- They have one price for a line, since the requests that are made for it differ in no more
than they do. -/
theorem priceLine_of_sameButOperation :
    Order.priceLine v op r = Order.priceLine v op r' := by
  funext line
  unfold Order.priceLine
  dsimp only
  rw [v.basePrice_of_sameButOperation (h.request line)]
  simp only [v.applyRules_of_sameButOperation (h.request line)]

/-- **They have one price for an order**, by its lines and by its sum. -/
theorem order_of_sameButOperation (lines : List Order.Line) :
    v.order op lines r = v.order op lines r' := by
  unfold order Order.addLines
  rw [v.priceLine_of_sameButOperation h]
  simp only [v.applyRules_of_sameButOperation (h.withQuantity _)]

end View

namespace Engine

variable (e : Engine) (t : Instant)

/-- The engine answers as its view does, and keeps the cache that this leaves. -/
theorem getPrice_of_sameButOperation : e.getPrice op r t = e.getPrice op r' t := by
  unfold getPrice
  rw [(e.view t).price_of_sameButOperation h]

theorem getQuote_of_sameButOperation : e.getQuote op r t = e.getQuote op r' t := by
  unfold getQuote
  rw [(e.view t).quote_of_sameButOperation h]

theorem getOrderPrice_of_sameButOperation (lines : List Order.Line) :
    e.getOrderPrice op lines r t = e.getOrderPrice op lines r' t := by
  unfold getOrderPrice
  rw [(e.view t).order_of_sameButOperation h]

end Engine

end

/-! ## Runs -/

/-- **Calls that are the same but for what requests for prices name**: the operation that is priced
is the same, and so is all the rest. Other calls are alike only if they are equal. In particular the
request of a look-up of a setting is left as it is, since there the operation in it counts. -/
inductive Call.Alike : Call → Call → Prop
  | refl (c : Call) : Alike c c
  | getPrice {r r' : Request} (h : r.SameButOperation r') (op : Operation) (t : Instant) :
    Alike (.getPrice op r t) (.getPrice op r' t)
  | getQuote {r r' : Request} (h : r.SameButOperation r') (op : Operation) (t : Instant) :
    Alike (.getQuote op r t) (.getQuote op r' t)
  | getOrderPrice {r r' : Request} (h : r.SameButOperation r') (op : Operation)
    (lines : List Order.Line) (t : Instant) :
    Alike (.getOrderPrice op lines r t) (.getOrderPrice op lines r' t)

namespace Engine

/-- **Calls that are alike are answered alike**, and leave the same engine, with the same cache. -/
theorem answer_eq_of_alike {c c' : Call} (h : c.Alike c') (e : Engine) :
    e.answer c = e.answer c' := by
  have hanswer : ∀ {α : Type} {x y : Except Failure α × Engine} (answer : α → Answer), x = y →
      (x.1.map answer, x.2) = (y.1.map answer, y.2) := fun _ hxy => hxy ▸ rfl
  cases h with
  | refl => rfl
  | getPrice h op t => exact hanswer .price (e.getPrice_of_sameButOperation h op t)
  | getQuote h op t => exact hanswer .quote (e.getQuote_of_sameButOperation h op t)
  | getOrderPrice h op lines t =>
    exact hanswer .order (e.getOrderPrice_of_sameButOperation h op t lines)

/-- **Runs whose calls are alike leave the same engine.** -/
theorem run_eq_of_alike {calls calls' : List Call} (h : List.Forall₂ Call.Alike calls calls')
    (e : Engine) : e.run calls = e.run calls' := by
  induction h generalizing e with
  | nil => rfl
  | cons hc _ ih =>
    show (e.perform _).run _ = (e.perform _).run _
    unfold perform
    rw [answer_eq_of_alike hc, ih]

end Engine

/-- **The priced operation alone decides.** After any run, and with whatever the cache holds or
without one, requests that differ in nothing but the operation they name, if they name one, have
the same price, the same quote and the same price of an order, or fail alike; and the engine is
left the same. It does not matter either what the requests of the run named. -/
theorem prices_run_of_sameButOperation (e : Engine) {calls calls' : List Call}
    (hcalls : List.Forall₂ Call.Alike calls calls') {r r' : Request} (hr : r.SameButOperation r')
    (op : Operation) (lines : List Order.Line) (t : Instant) :
    (e.run calls).getPrice op r t = (e.run calls').getPrice op r' t
      ∧ (e.run calls).getQuote op r t = (e.run calls').getQuote op r' t
      ∧ (e.run calls).getOrderPrice op lines r t
        = (e.run calls').getOrderPrice op lines r' t := by
  rw [Engine.run_eq_of_alike hcalls]
  exact ⟨Engine.getPrice_of_sameButOperation hr op _ t,
    Engine.getQuote_of_sameButOperation hr op _ t,
    Engine.getOrderPrice_of_sameButOperation hr op _ t lines⟩

/-- There is a price for swaps and no other, and a rule adds one to swaps. Who asks for the price of
a swap with a request for a refill is told 46, as is who names no operation, and it makes no
difference that the request before was for a lease. -/
theorem prices_run_of_sameButOperation_swap : ∃ changes asked asked' r r',
    changes = [.setSetting "swap.base_price" (.number (.ofUInt32 45))
        { scope := { operationType := some .swap }, author := ⟨"ann", none⟩ } (.number 1),
      .createRule
        { name := "swaps"
          ruleType := .surcharge
          conditions := [⟨.operationType, .eq, .text "swap"⟩]
          actions := [⟨.add, .one⟩] }
        ⟨"ann", none⟩ (.number 2)]
    ∧ asked = .getPrice .swap { operationType := some .lease } ⟨3⟩
    ∧ asked' = .getPrice .swap {} ⟨3⟩
    ∧ r = { operationType := some .refill } ∧ r' = {} ∧ r.SameButOperation r'
    ∧ List.Forall₂ Call.Alike (changes ++ [asked]) (changes ++ [asked'])
    ∧ (Engine.initial.run (changes ++ [asked])).getPrice .swap r ⟨4⟩
      = (Engine.initial.run (changes ++ [asked'])).getPrice .swap r' ⟨4⟩
    ∧ ((Engine.initial.run (changes ++ [asked'])).getPrice .swap r' ⟨4⟩).1.toOption.map
      Decimal.toText = some "46" := by
  have hcalls : ∀ changes : List Call, List.Forall₂ Call.Alike
      (changes ++ [.getPrice .swap { operationType := some .lease } ⟨3⟩])
      (changes ++ [.getPrice .swap {} ⟨3⟩]) := fun changes => by
    refine List.rel_append (List.forall₂_same.2 fun c _ => .refl c) (.cons ?_ .nil)
    refine .getPrice ?_ .swap ⟨3⟩
    exact ⟨rfl, rfl, rfl, rfl, rfl⟩
  have hr : Request.SameButOperation { operationType := some .refill } {} :=
    ⟨rfl, rfl, rfl, rfl, rfl⟩
  exact ⟨_, _, _, _, _, rfl, rfl, rfl, rfl, rfl, hr, hcalls _,
    (prices_run_of_sameButOperation Engine.initial (hcalls _) hr .swap [] ⟨4⟩).1,
    by decide +kernel⟩

end Tariff
