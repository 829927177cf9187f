import Mathlib.Logic.Relation
import Tariff.Order

/-!
# Prices only look values up

The computation of a price, a quote or an order uses the cache. All that it does
to it is to look values up, one after another and all in one view. So such a
computation is put together from look-ups, and from results and failures that do not
concern the cache (`View.LooksUp`). How many look-ups there are at most is counted.

What is to be proved of every computation of this kind is proved by induction on how
it is put together. In particular, what every look-up keeps of a cache, every price
keeps, wherever its computation may fail (`LooksUp.onlyResolves`).
-/

namespace Tariff

/-- A computation is followed by another one, unless it fails. The cache goes through both; a
failure does not take back what has been done to it. -/
theorem Pricing.bind_apply {α β : Type} (m : Pricing α) (k : α → Pricing β) (c : Option Cache) :
    (m >>= k) c = ExceptT.bindCont k (m c).1 (m c).2 := rfl

/-- One look-up in a view takes a cache to another. The view says what the store holds and what time
it is, and both are fixed while one price is computed. -/
def View.Fills (v : View) (c c' : Option Cache) : Prop := ∃ key r, c' = (v.resolve key r c).2

/-- **A computation touches the cache only by looking values up.** So whatever each look-up
preserves, the computation preserves. -/
def View.OnlyResolves {α : Type} (v : View) (m : Pricing α) : Prop :=
  ∀ c, Relation.ReflTransGen v.Fills c (m c).2

/-- **A computation put together from look-ups** in a view, so many at most, and from results and
failures. `OnlyResolves` says what becomes of the cache and leaves open how the result depends on
it. Here it is also known that the result depends on the cache through the answers alone, which is
what `Lasting` makes use of. The number is a bound: `mono` makes room for branches that look up less
often than others. -/
inductive View.LooksUp (v : View) : {α : Type} → Nat → Pricing α → Prop
  | pure {α : Type} {n : Nat} (a : α) : v.LooksUp n (pure a)
  | throw {α : Type} {n : Nat} (f : Failure) : v.LooksUp n (throw f : Pricing α)
  | resolve (key : String) (r : Request) : v.LooksUp 1 (liftM (v.resolve key r))
  | bind {α β : Type} {n k : Nat} {m : Pricing α} {g : α → Pricing β} (hm : v.LooksUp n m)
    (hg : ∀ a, v.LooksUp k (g a)) : v.LooksUp (n + k) (m >>= g)
  | mono {α : Type} {n k : Nat} {m : Pricing α} (hm : v.LooksUp n m) (hle : n ≤ k) :
    v.LooksUp k m

namespace View.LooksUp

variable {v : View} {α β : Type} {n : Nat}

/-- A check looks nothing up. It has a result or it fails. -/
theorem check (e : Error) (a : Option α) : v.LooksUp n (Pricing.check e a) := by
  cases a with
  | none => exact throw _
  | some a => exact pure a

/-- Nor does one that stops the computation for good. -/
theorem checkFault (fault : Fault) (a : Option α) : v.LooksUp n (Pricing.checkFault fault a) := by
  cases a with
  | none => exact throw _
  | some a => exact pure a

/-- What comes after a failure is never carried out, so any bound on it will do. -/
theorem fail_bind (e : Error) {m : Pricing β} (hm : v.LooksUp n m) :
    v.LooksUp n ((Pricing.fail e : Pricing α) >>= fun _ => m) :=
  ((throw (n := 0) (.error e)).bind (fun _ => hm)).mono (Nat.le_of_eq (Nat.zero_add n))

/-- What is carried out unless it is refused only looks up if it does so where it is not. -/
theorem refuse {c : Prop} [Decidable c] (e : Error) {m : Pricing β} (hm : v.LooksUp n m) :
    v.LooksUp n (if c then (Pricing.fail e : Pricing α) >>= fun _ => m else m) := by
  split
  · exact fail_bind e hm
  · exact hm

/-- **One look-up computation for each item of a list** takes the bound once per item. -/
theorem foldlM {f : β → α → Pricing β} (hf : ∀ b a, v.LooksUp n (f b a)) (l : List α) (b : β) :
    v.LooksUp (l.length * n) (l.foldlM f b) := by
  induction l generalizing b with
  | nil => exact pure b
  | cons a rest ih =>
    refine ((hf b a).bind ih).mono (Nat.le_of_eq ?_)
    rw [List.length_cons, Nat.succ_mul, Nat.add_comm]

/-- The same where what is computed for the items is collected. -/
theorem mapM {f : α → Pricing β} (hf : ∀ a, v.LooksUp n (f a)) (l : List α) :
    v.LooksUp (l.length * n) (l.mapM f : Pricing (List β)) := by
  induction l with
  | nil => exact pure _
  | cons a rest ih =>
    rw [List.mapM_cons]
    refine ((hf a).bind fun _ => ih.bind (k := 0) fun _ => .pure _).mono (Nat.le_of_eq ?_)
    rw [List.length_cons, Nat.succ_mul, Nat.add_comm, Nat.add_zero]

/-- **What is put together from look-ups touches the cache only by them.** What follows a failure
is not carried out, so a failing computation has made the look-ups that came before the failure,
and no others. -/
theorem onlyResolves {m : Pricing α} (hm : v.LooksUp n m) : v.OnlyResolves m := by
  induction hm with
  | pure a => exact fun _ => .refl
  | throw f => exact fun _ => .refl
  | resolve key r => exact fun _ => .single ⟨key, r, rfl⟩
  | @bind α β n k m g _ _ hm hg =>
    intro c
    refine (hm c).trans ?_
    rw [Pricing.bind_apply]
    cases (m c).1 with
    | error f => exact .refl
    | ok a => exact hg a (m c).2
  | mono _ _ hm => exact hm

end View.LooksUp

namespace View

variable (v : View) (op : Operation) (r : Request)

/-- A price is one look-up, followed by a check that it is a number and is not negative. -/
theorem looksUp_price? (key : String) : v.LooksUp 1 (v.price? key r) := by
  refine (LooksUp.resolve key r).bind (k := 0) (fun found => ?_)
  cases found with
  | none => exact .pure none
  | some value => exact (LooksUp.check _ _).bind (k := 0) (fun price => .pure (some price))

/-- Where no price per size is asked for, nothing is looked up. -/
theorem looksUp_pricePerSize? : v.LooksUp 1 (v.pricePerSize? op r) := by
  unfold pricePerSize?
  cases r.cylinderSize with
  | none => exact .pure none
  | some size =>
    refine (v.looksUp_price? r op.feePerKgKey).bind (k := 0) (fun fee => ?_)
    cases fee with
    | none => exact .pure none
    | some fee => exact (LooksUp.check _ _).bind (k := 0) (fun price => .pure _)

/-- Where the price per unit is set there is one look-up, and else another one for the fee. -/
theorem looksUp_unitPrice : v.LooksUp 2 (v.unitPrice op r) := by
  refine (v.looksUp_price? r op.basePriceKey).bind (k := 1) (fun found => ?_)
  cases found with
  | some price => exact .pure _
  | none =>
    refine (v.looksUp_pricePerSize? op r).bind (k := 0) (fun perSize => ?_)
    cases perSize with
    | some found => exact .pure found
    | none => exact .throw _

/-- The base price adds to the price per unit only what it computes from the request. -/
theorem looksUp_basePrice : v.LooksUp 2 (v.basePrice op r) := by
  unfold basePrice
  refine LooksUp.refuse _ ?_
  refine (v.looksUp_unitPrice op _).bind (k := 0) (fun _ => ?_)
  exact (LooksUp.check _ _).bind (k := 0) (fun _ => .pure _)

/-- The rules look nothing up: they are in the store, and not in the cache. -/
theorem looksUp_price : v.LooksUp 2 (v.price op r) :=
  (v.looksUp_basePrice op r).bind (k := 0) (fun _ => .pure _)

/-- The tax rate is one look-up. -/
theorem looksUp_taxRate : v.LooksUp 1 (v.taxRate r) := by
  refine (LooksUp.resolve taxRateKey r).bind (k := 0) (fun found => ?_)
  cases found with
  | none => exact .pure _
  | some value => exact .check _ _

/-- So is the mode of taxation. -/
theorem looksUp_taxMode (usual : TaxMode) : v.LooksUp 1 (v.taxMode usual r) := by
  refine (LooksUp.resolve taxModeKey r).bind (k := 0) (fun found => ?_)
  cases found with
  | none => exact .pure _
  | some value =>
    refine (LooksUp.check _ _).bind (k := 0) (fun text => ?_)
    split
    · exact .pure _
    · exact .throw _

/-- A quote looks up what a price does, then the tax rate and the mode of taxation. -/
theorem looksUp_quote (usual : TaxMode) : v.LooksUp 4 (v.quote usual op r) := by
  refine (v.looksUp_basePrice op r).bind (k := 2) (fun base => ?_)
  refine (v.looksUp_taxRate _).bind (k := 1) (fun rate => ?_)
  refine (v.looksUp_taxMode _ usual).bind (k := 0) (fun mode => ?_)
  split
  · exact .throw _
  · exact .pure _

/-- Each line is looked up as a price is. -/
theorem looksUp_addLines (lines : List Order.Line) :
    v.LooksUp (lines.length * 2) (Order.addLines v op r lines) := by
  refine LooksUp.foldlM (fun (tally : Order.Tally) line => ?_) lines {}
  refine ((v.looksUp_basePrice op _).bind (k := 0) (fun _ => .pure _)).bind (k := 0)
    (fun priced => ?_)
  refine (LooksUp.checkFault _ _).bind (k := 0) (fun subtotal => ?_)
  exact LooksUp.refuse _ (.pure _)

/-- An order looks up what its lines do. The volume discount on what they come to looks
nothing up. -/
theorem looksUp_order (lines : List Order.Line) :
    v.LooksUp (lines.length * 2) (v.order op lines r) := by
  have hprice : v.LooksUp (lines.length * 2) (do
      let tally ← Order.addLines v op r lines
      let quantity := UInt32.ofNat tally.quantity
      let trace := v.applyRules tally.subtotal op { r with quantity := some quantity }
        (.only .volumeDiscount)
      let discount ← Pricing.checkFault .subtraction (tally.subtotal.sub trace.adjustedPrice)
      return (⟨tally.lines, quantity, tally.subtotal, discount, trace.adjustedPrice, trace⟩ :
        PricedOrder)) :=
    (v.looksUp_addLines op r lines).bind (k := 0) (fun _ =>
      (LooksUp.checkFault _ _).bind (k := 0) (fun _ => .pure _))
  unfold order
  dsimp only
  split
  · exact LooksUp.fail_bind _ hprice
  · exact hprice

end View

end Tariff
