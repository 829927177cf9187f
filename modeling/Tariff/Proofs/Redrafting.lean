import Mathlib.Data.List.Basic
import Tariff.Proofs.StoredRules
import Tariff.Proofs.Uniqueness

/-!
# Writing a rule as it is

A stored rule can be read back as a draft and written anew from it. Nothing that anybody
wrote of the rule is then different; the version goes up, and who wrote it last and when
are replaced. No price sees this. Of a rule an evaluation looks at the identifier, at the
age, and at what is in the draft: the name and the type go into the trace, the
conditions, the actions and the limits decide what is done, the window whether the rule is
in force, and the priority when it has its turn. Rules that agree in these are on the
**same terms** (`Rule.SameTerms`).

Where every stored rule is replaced by one on the same terms, the rules in force are
replaced one by one and in order, and they make of each price the very trace that they
made before, words included (`View.applyRules_map`).

Pricing looks at a store in two ways only: it looks values up, and it applies the rules in
force. So two views that agree in both give the same prices, quotes and orders
(`View.Alike`), and they use the cache in the same way.
-/

namespace Tariff

/-! ## Rules on the same terms

Two rules may differ in their versions and in the records of their writing, which pricing does not
read. -/

/-- **Rules on the same terms**: an evaluation makes no difference between them. They may differ in
their versions, and in who wrote them when. -/
structure Rule.SameTerms (a b : Rule) : Prop where
  id : a.id = b.id
  createdAt : a.createdAt = b.createdAt
  toDraft : a.toDraft = b.toDraft

namespace Rule.SameTerms

variable {a b c d : Rule}

theorem refl (a : Rule) : a.SameTerms a := ⟨rfl, rfl, rfl⟩

/-- **They differ in the records of their writing only.** Everything else in a rule is in its draft,
or is its identifier or its age. -/
theorem eq_with (h : a.SameTerms b) : b = { a with
    version := b.version, createdBy := b.createdBy, updatedBy := b.updatedBy
    updatedAt := b.updatedAt } := by
  obtain ⟨hid, hage, hdraft⟩ := h
  cases a
  cases b
  simp only [Rule.toDraft, Draft.mk.injEq] at hid hage hdraft ⊢
  simp only [hid, hage, hdraft]

/-- They are in force at the same times. -/
theorem isLiveAt_eq (h : a.SameTerms b) (t : Instant) : a.isLiveAt t = b.isLiveAt t := by
  rw [h.eq_with]
  rfl

theorem ruleType_eq (h : a.SameTerms b) : a.ruleType = b.ruleType := by
  rw [h.eq_with]

/-- They have their turn at the same place. -/
theorem order_eq (h : a.SameTerms b) (h' : c.SameTerms d) : a.order c = b.order d := by
  rw [h.eq_with, h'.eq_with]
  rfl

/-- **They do the same to a trace.** What they add to it, a step or a failure, names a rule by its
identifier and its name only. -/
theorem extend_eq (h : a.SameTerms b) (op : Operation) (r : Request) (t : Trace) :
    Trace.extend op r t a = Trace.extend op r t b := by
  rw [h.eq_with]
  rfl

end Rule.SameTerms

/-! ## Rules replaced in their places

A rule that is written again stays in its place. So the rules afterwards are those before with a
function applied to each, and what pricing selects and sorts is that as well. -/

section Replaced

variable {f : Rule → Rule} {rules : List Rule}

namespace Rule

/-- Sorting rules that are replaced one by one replaces the sorted rules one by one, as their keys
are the same. -/
theorem inOrder_map (hf : ∀ rule ∈ rules, (f rule).SameTerms rule) :
    inOrder (rules.map f) = (inOrder rules).map f := by
  unfold inOrder
  rw [List.map_mergeSort fun a ha b hb => ?_]
  rw [(hf a ha).order_eq (hf b hb)]

end Rule

/-- **Rules on the same terms make the same trace.** By induction over the rules in their order,
with one and the same trace before each of them. -/
theorem Trace.evaluate_map (hf : ∀ rule ∈ rules, (f rule).SameTerms rule) (price : Decimal)
    (op : Operation) (r : Request) (filter : RuleFilter) :
    evaluate (rules.map f) price op r filter = evaluate rules price op r filter := by
  have hadmitted : (rules.map f).filter (fun rule => filter.admits rule.ruleType)
      = (rules.filter fun rule => filter.admits rule.ruleType).map f := by
    rw [List.filter_map, List.filter_congr fun rule hrule => ?_]
    rw [Function.comp_apply, (hf rule hrule).ruleType_eq]
  have hf' : ∀ rule ∈ rules.filter fun rule => filter.admits rule.ruleType,
      (f rule).SameTerms rule := fun rule hrule => hf rule (List.mem_of_mem_filter hrule)
  unfold evaluate
  rw [hadmitted, Rule.inOrder_map hf', List.foldl_map,
    List.foldl_ext _ _ _ fun t rule hrule => ?_]
  exact (hf' rule ((Rule.inOrder_perm _).mem_iff.1 hrule)).extend_eq op r t

variable {s s' : Store} (hf : ∀ rule ∈ s.rules.values, (f rule).SameTerms rule)
  (hs : s'.rules.values = s.rules.values.map f)
include hf hs

namespace Store

/-- The rules in force are replaced in their places. -/
theorem liveRules_map (t : Instant) : s'.liveRules t = (s.liveRules t).map f := by
  have hlive : s'.rules.values.filter (fun rule => rule.isLiveAt t)
      = (s.rules.values.filter fun rule => rule.isLiveAt t).map f := by
    rw [hs, List.filter_map, List.filter_congr fun rule hrule => ?_]
    rw [Function.comp_apply, (hf rule hrule).isLiveAt_eq]
  unfold liveRules
  rw [hlive, Rule.inOrder_map fun rule hrule => hf rule (List.mem_of_mem_filter hrule)]

/-- **The rules stay in their order**, which is the one in which they are listed. -/
theorem map_id_rulesInOrder : s'.rulesInOrder.map Rule.id = s.rulesInOrder.map Rule.id := by
  unfold rulesInOrder
  rw [hs, Rule.inOrder_map hf, List.map_map]
  refine List.map_congr_left fun rule hrule => ?_
  exact (hf rule ((Rule.inOrder_perm _).mem_iff.1 hrule)).id

end Store

/-- **The rules in force make of a price what they made before.** -/
theorem View.applyRules_map {v v' : View} (hv : v.store = s) (hv' : v'.store = s')
    (hnow : v'.now = v.now) (price : Decimal) (op : Operation) (r : Request)
    (filter : RuleFilter) : v'.applyRules price op r filter = v.applyRules price op r filter := by
  subst hv hv'
  unfold applyRules
  rw [hnow, Store.liveRules_map hf hs]
  refine Trace.evaluate_map (fun rule hrule => hf rule ?_) price op r filter
  exact Store.mem_values_of_mem_liveRules hrule

end Replaced

/-! ## What pricing sees of a store

From here on it is no longer said which rules were replaced. Two stores look alike to pricing, and
whatever pricing does with them is the same. -/

/-- **Views that are alike to pricing**: keys have the same values in them, and the rules in force
make the same of each price. This is all that pricing sees of a store, so nothing more need be shown
to know that prices stay. The instant is asked for since answers are cached with it. -/
structure View.Alike (v v' : View) : Prop where
  now : v.now = v'.now
  value? : ∀ key r, v.value? key r = v'.value? key r
  applyRules : ∀ price op r filter,
    v.applyRules price op r filter = v'.applyRules price op r filter

namespace View.Alike

variable {v v' : View} (h : v.Alike v') (op : Operation) (r : Request)
include h

/-- A look-up answers the same, and leaves the cache the same. -/
theorem resolve_eq (key : String) (r : Request) : v.resolve key r = v'.resolve key r := by
  unfold resolve refresh
  rw [h.now, h.value?]

/-- So base prices are the same computation, and not only the same result: they take each cache to
the same cache. -/
theorem basePrice_eq : v.basePrice op r = v'.basePrice op r := by
  unfold basePrice unitPrice pricePerSize? price?
  simp only [h.resolve_eq]

/-- So are prices, since rules add nothing that would look at the store in another way. -/
theorem price_eq : v.price op r = v'.price op r := by
  unfold price
  simp only [h.basePrice_eq, h.applyRules]

theorem quote_eq (usual : TaxMode) : v.quote usual op r = v'.quote usual op r := by
  unfold quote taxRate taxMode
  simp only [h.basePrice_eq, h.applyRules, h.resolve_eq]

theorem order_eq (lines : List Order.Line) : v.order op lines r = v'.order op lines r := by
  unfold order Order.addLines Order.priceLine
  simp only [h.basePrice_eq, h.applyRules]

end View.Alike

namespace Engine

/-- **Engines that are alike to pricing**: at every instant they are views alike, with the same
cache and the same usual mode of tax. -/
structure PricesAlike (e e' : Engine) : Prop where
  view : ∀ t, (e.view t).Alike (e'.view t)
  cache : e.cache = e'.cache
  defaultTaxMode : e.config.defaultTaxMode = e'.config.defaultTaxMode

namespace PricesAlike

variable {e e' : Engine} (h : e.PricesAlike e') (op : Operation) (r : Request) (t : Instant)
include h

/-- They answer alike, failures included, and are left with the same cache. -/
theorem getPrice_eq : (e.getPrice op r t).1 = (e'.getPrice op r t).1
    ∧ (e.getPrice op r t).2.cache = (e'.getPrice op r t).2.cache := by
  unfold getPrice read
  rw [(h.view t).price_eq, h.cache]
  exact ⟨rfl, rfl⟩

theorem getQuote_eq : (e.getQuote op r t).1 = (e'.getQuote op r t).1
    ∧ (e.getQuote op r t).2.cache = (e'.getQuote op r t).2.cache := by
  unfold getQuote read
  rw [(h.view t).quote_eq, h.cache, h.defaultTaxMode]
  exact ⟨rfl, rfl⟩

theorem getOrderPrice_eq (lines : List Order.Line) :
    (e.getOrderPrice op lines r t).1 = (e'.getOrderPrice op lines r t).1
      ∧ (e.getOrderPrice op lines r t).2.cache = (e'.getOrderPrice op lines r t).2.cache := by
  unfold getOrderPrice read
  rw [(h.view t).order_eq, h.cache]
  exact ⟨rfl, rfl⟩

end PricesAlike

end Engine

/-! ## A rule written from its own draft

What remains is that a rule which is written from its own draft is on the same terms. -/

/-- What is written from a rule's own draft is on its terms. -/
theorem Rule.sameTerms_revise (rule : Rule) (actor : String) (t : Instant) :
    (rule.revise rule.toDraft actor t).SameTerms rule := ⟨rfl, rfl, rfl⟩

/-- **Where a rule is written in place of one on the same terms**, prices stay, and rules stay in
their order. The store replaces the row where it is, which is a map over all rows. The cache keeps
what it has, since rules are not in it. -/
theorem Engine.pricesAlike_withRule {e : Engine} {old new : Rule}
    (he : e.store.rules.Keyed Rule.id) (h : new.SameTerms old)
    (hold : e.store.rule? new.id = some old) (author : Author) (o : Occasion) :
    (e.withRule (some old) new author o).PricesAlike e
      ∧ (e.withRule (some old) new author o).store.rulesInOrder.map Rule.id
        = e.store.rulesInOrder.map Rule.id := by
  have hvalues : (e.withRule (some old) new author o).store.rules.values
      = e.store.rules.values.map fun x => if x.id = new.id then new else x :=
    he.values_insert_of_find? hold
  have hterms : ∀ x ∈ e.store.rules.values, (if x.id = new.id then new else x).SameTerms x := by
    intro x hx
    split
    · next hid =>
      have hx' : e.store.rule? x.id = some x := (he.mem_values_iff x).1 hx
      rw [hid, hold] at hx'
      exact Option.some.inj hx' ▸ h
    · exact .refl x
  refine ⟨⟨fun t => ⟨rfl, fun key r => rfl, ?_⟩, rfl, rfl⟩, ?_⟩
  · exact View.applyRules_map hterms hvalues rfl rfl rfl
  · exact Store.map_id_rulesInOrder hterms hvalues

/-- **Writing a rule from its own draft changes no price.** After any run of a new engine, a stored
rule can be written from its own draft by anybody who has a name, on any occasion on which the log
accepts records. Only its version and the record of its last writing change. All prices, quotes and
orders are then what they were before, at the same instant, as answers and as failures, and leave
the cache the same; and the rules are listed in the same order. -/
theorem updateRule_toDraft_run {config : EngineConfig} {e : Engine}
    (h : Engine.create config = .ok e) (calls : List Call) {rule : Rule}
    (hrule : rule ∈ (e.run calls).store.rules.values) {author : Author}
    (hauthor : Text.isBlank author.actor = false) {o : Occasion} (ho : o.refusal = none) :
    ∃ again e', (e.run calls).updateRule rule.id rule.toDraft author o = .ok (again, e')
      ∧ again = { rule with
          version := rule.version + 1, updatedBy := author.actor, updatedAt := o.now }
      ∧ (∀ id, e'.store.rule? id
        = if id = rule.id then some again else (e.run calls).store.rule? id)
      ∧ (∀ op r t, (e'.getPrice op r t).1 = ((e.run calls).getPrice op r t).1
        ∧ (e'.getPrice op r t).2.cache = ((e.run calls).getPrice op r t).2.cache)
      ∧ (∀ op r t, (e'.getQuote op r t).1 = ((e.run calls).getQuote op r t).1
        ∧ (e'.getQuote op r t).2.cache = ((e.run calls).getQuote op r t).2.cache)
      ∧ (∀ op lines r t,
        (e'.getOrderPrice op lines r t).1 = ((e.run calls).getOrderPrice op lines r t).1
        ∧ (e'.getOrderPrice op lines r t).2.cache
          = ((e.run calls).getOrderPrice op lines r t).2.cache)
      ∧ e'.store.rulesInOrder.map Rule.id = (e.run calls).store.rulesInOrder.map Rule.id := by
  have hkeyed := (Engine.wellFormed_run h calls).rules_keyed
  have hvalid : rule.toDraft.validate = .ok () := Engine.rulesValid_run h calls rule hrule
  have hfound : (e.run calls).store.rule? rule.id = some rule :=
    (hkeyed.mem_values_iff rule).1 hrule
  obtain ⟨halike, horder⟩ := Engine.pricesAlike_withRule hkeyed
    (rule.sameTerms_revise author.actor o.now) hfound author o
  exact ⟨_, _, Engine.updateRule_eq_ok_iff.2 ⟨hvalid, rule, hfound, hauthor, ho, rfl, rfl⟩, rfl,
    fun id => Table.find?_insert _ _ _ _, halike.getPrice_eq, halike.getQuote_eq,
    fun op lines r t => halike.getOrderPrice_eq op r t lines, horder⟩

/-- A rule that takes half off is written from its own draft by somebody else. It is at version 2
then, and a refill for a hundred still costs fifty. -/
theorem updateRule_toDraft_run_half : Engine.create {} = .ok Engine.initial
    ∧ ∃ e rule again e', e = Engine.initial.run
        [.setSetting "refill.base_price" (.number .hundred) { author := ⟨"ann", none⟩ } (.number 1),
        .createRule
          { name := "half"
            ruleType := .promotion
            actions := [⟨.percentageDiscount, .ofUInt32 50⟩] }
          ⟨"ann", none⟩ (.number 2)]
      ∧ rule ∈ e.store.rules.values ∧ Text.isBlank "bob" = false
      ∧ e.updateRule rule.id rule.toDraft ⟨"bob", none⟩ (.number 3) = .ok (again, e')
      ∧ again.version = 2 ∧ again.updatedBy = "bob" ∧ rule.updatedBy = "ann"
      ∧ (e.getPrice .refill {} ⟨4⟩).1.toOption.map Decimal.toText = some "50.00"
      ∧ (e'.getPrice .refill {} ⟨4⟩).1 = (e.getPrice .refill {} ⟨4⟩).1
      ∧ e'.store.rulesInOrder.map Rule.id = e.store.rulesInOrder.map Rule.id := by
  have hauthor : Text.isBlank (⟨"bob", none⟩ : Author).actor = false := by decide
  obtain ⟨again, e', hagain, hnew, -, hprices, -, -, horder⟩ := updateRule_toDraft_run
    Engine.create_initial
    [.setSetting "refill.base_price" (.number .hundred) { author := ⟨"ann", none⟩ } (.number 1),
    .createRule
      { name := "half"
        ruleType := .promotion
        actions := [⟨.percentageDiscount, .ofUInt32 50⟩] }
      ⟨"ann", none⟩ (.number 2)] (.head _) hauthor (o := .number 3) rfl
  refine ⟨rfl, _, _, again, e', rfl, .head _, hauthor, hagain, ?_, ?_, rfl, by decide +kernel,
    (hprices .refill {} ⟨4⟩).1, horder⟩
  · rw [hnew]
    rfl
  · rw [hnew]

end Tariff
