import Tariff.Proofs.Lasting
import Tariff.Proofs.Redrafting
import Tariff.Proofs.Seeded

/-!
# The same file seeded once more

A file is seeded, and seeded again. The second time every setting and every rule that it writes is
there, and nothing is created. Settings are left on the same terms. Rules need not be: a draft is
written to the first rule of its name, and in the order of the file, so that in the end this rule
has what is in the last draft of the name. Where the first seed has made two rules of two drafts of
one name, the first of these rules may have been made of the first draft; and then it is made into
a second copy of the last one.

So nothing that anybody wrote of the rules is different after the second seed if, and only if,
for each name in the file the first rule of that name has what is in the last draft already
(`Store.Settled`). Which rule of a name is the first is a matter of priorities, and where
these are equal, of the order in which the table of rules happens to be enumerated. The
second seed reads it in an order of its own, and what is said here of two seeds is said for every
such order. A store is settled in all of them where every rule of the highest priority of its
name has what is in the last draft (`Store.forall_reordering_settled_iff`).

This is so where no two rules have one name of the file. Otherwise prices may move, as the
example at the end shows: a discount that has a rule of its own after the first seed is lost in
the second. There the two rules have different priorities, so that no order of the rows saves it.
-/

namespace Tariff

namespace Seed

variable {existing : List Rule} {drafts : List Draft} {rule : Rule}

/-- Drafts keep the names of the rules that they are written to, since it is by its name that a
rule is found. -/
theorem name_draftAfter (existing : List Rule) (drafts : List Draft) (rule : Rule) :
    (draftAfter existing drafts rule).name = rule.name := by
  unfold draftAfter
  split
  · cases hlast : lastNamed drafts rule.name with
    | none => rfl
    | some draft => exact (mem_of_lastNamed hlast).2
  · rfl

/-- A rule that is not the first of a name in the file keeps what it has. If it is, it has what is
in the last draft of that name in the end. -/
theorem draftAfter_eq_or (existing : List Rule) (drafts : List Draft) (rule : Rule) :
    draftAfter existing drafts rule = rule.toDraft
      ∨ lastNamed drafts rule.name = some (draftAfter existing drafts rule) := by
  unfold draftAfter
  split
  · cases hlast : lastNamed drafts rule.name with
    | none => exact .inl rfl
    | some draft => exact .inr rfl
  · exact .inl rfl

end Seed

/-- **Settled as to some drafts**: of each name, the first rule in the list of all rules has what
is in the last draft. Where two rules of a name share the highest priority, this is said of the one
that the rows of the store put first; another order of the rows may be settled where this one is
not. -/
def Store.Settled (s : Store) (drafts : List Draft) : Prop :=
  ∀ draft ∈ drafts, (Seed.replaced? s.allRules draft.name).map Rule.toDraft
    = Seed.lastNamed drafts draft.name

namespace Store.Settled

variable {s : Store} {drafts : List Draft}

/-- Where a store is settled, no rule is made into another. The first rule of a name has what is in
the last draft already, and no other rule is written to. -/
theorem draftAfter_eq (h : s.Settled drafts) (rule : Rule)
    (hs : s.rules.Keyed Rule.id) (hrule : rule ∈ s.rules.values) :
    Seed.draftAfter s.allRules drafts rule = rule.toDraft := by
  unfold Seed.draftAfter
  split
  · next hfirst =>
    obtain ⟨first, hreplaced, hid⟩ := Option.map_eq_some_iff.1 hfirst
    have hstored := Store.mem_allRules_iff.1 (Seed.mem_of_replaced? hreplaced).1
    have hsame : first = rule := List.inj_on_of_nodup_map hs.nodup_map_values hstored hrule hid
    subst hsame
    cases hlast : Seed.lastNamed drafts first.name with
    | none => rfl
    | some draft =>
      obtain ⟨hmem, hname⟩ := Seed.mem_of_lastNamed hlast
      have hsettled := h draft hmem
      rw [hname, hreplaced, hlast] at hsettled
      exact (Option.some.inj hsettled).symm
  · rfl

end Store.Settled

/-! ## The first rule of a name -/

section First

variable {s : Store} {rule other : Rule}

/-- Of two rules of one name the one of higher priority comes first. -/
theorem Store.isLE_nameOrder_iff (hname : rule.name = other.name) :
    (Store.nameOrder rule other).isLE = true ↔ other.priority.toInt ≤ rule.priority.toInt := by
  unfold nameOrder
  rw [hname, Std.compare_self, Ordering.then_eq, Std.isLE_compare]

/-- **The first rule of a name is one of the highest priority**, in whatever order the rules
stand. -/
theorem Store.priority_le_of_replaced? {name : String}
    (h : Seed.replaced? s.allRules name = some rule) (hother : other ∈ s.rules.values)
    (hname : other.name = name) : other.priority.toInt ≤ rule.priority.toInt := by
  obtain ⟨hmem, hsame⟩ := Seed.mem_of_replaced? h
  obtain ⟨-, before, after, hsplit, hbefore⟩ := List.find?_eq_some_iff_append.1 h
  have hsorted := s.pairwise_allRules
  have hstored := Store.mem_allRules_iff.2 hother
  rw [hsplit] at hsorted hstored
  rcases List.mem_append.1 hstored with hmem | hmem
  · -- What comes before the first rule of the name has another name.
    have hnot := hbefore other hmem
    rw [hname, decide_eq_true rfl] at hnot
    cases hnot
  · rcases List.mem_cons.1 hmem with rfl | hmem
    · exact le_rfl
    · have hle := (List.pairwise_cons.1 (List.pairwise_append.1 hsorted).2.1).1 other hmem
      exact (Store.isLE_nameOrder_iff (hsame.trans hname.symm)).1 hle

/-- **Each rule of the highest priority of its name is the first** in some order of the rows: it is
put behind the rules that have to come before it, and none of these has its name. So wherever the
order of the rows is open, the choice among these rules is open as well. -/
theorem Store.exists_reordering_replaced? (hrule : rule ∈ s.rules.values)
    (hhighest : ∀ other ∈ s.rules.values, other.name = rule.name →
      other.priority.toInt ≤ rule.priority.toInt) :
    ∃ s', s.Reordering s' ∧ Seed.replaced? s'.allRules rule.name = some rule := by
  classical
  have hothers : (s.allRules.erase rule).Pairwise fun a b => (nameOrder a b).isLE = true :=
    s.pairwise_allRules.sublist List.erase_sublist
  obtain ⟨before, after, hsplit, hsorted, hbefore⟩ := exists_place_of_pairwise hothers rule
  have hperm : (before ++ rule :: after).Perm s.rules.values := by
    have hall := List.perm_cons_erase (mem_allRules_iff.2 hrule)
    rw [hsplit] at hall
    exact List.perm_middle.trans (hall.symm.trans s.allRules_perm)
  obtain ⟨s', hs', hlist⟩ := exists_reordering_iff.2 ⟨hperm, hsorted⟩
  have hnone : before.find? (fun a => a.name = rule.name) = none := by
    refine List.find?_eq_none.2 fun a ha hname => ?_
    have hname : a.name = rule.name := of_decide_eq_true hname
    have hstored := hperm.mem_iff.1 (List.mem_append_left _ ha)
    have hle := (isLE_nameOrder_iff hname.symm).2 (hhighest a hstored hname)
    rw [hbefore a ha] at hle
    cases hle
  refine ⟨s', hs', ?_⟩
  unfold Seed.replaced?
  rw [hlist, List.find?_append, hnone, Option.none_or]
  exact List.find?_cons_of_pos (decide_eq_true rfl)

/-- **A store is settled in every order of its rows** if each name of the drafts is borne by a rule,
and all rules of the highest priority of this name have what is in its last draft. Each such rule is
the first in some order, so this is not only enough; and no rule of a lower priority ever is, so
nothing is asked of these. -/
theorem Store.forall_reordering_settled_iff {drafts : List Draft} :
    (∀ s', s.Reordering s' → s'.Settled drafts)
      ↔ ∀ draft ∈ drafts, (∃ rule ∈ s.rules.values, rule.name = draft.name)
        ∧ ∀ rule ∈ s.rules.values, rule.name = draft.name →
          (∀ other ∈ s.rules.values, other.name = draft.name →
            other.priority.toInt ≤ rule.priority.toInt) →
          Seed.lastNamed drafts draft.name = some rule.toDraft := by
  constructor
  · intro hall draft hdraft
    obtain ⟨last, hlast⟩ := Seed.exists_lastNamed_of_mem hdraft
    constructor
    · have hsettled := hall s (.refl s) draft hdraft
      rw [hlast] at hsettled
      obtain ⟨rule, hrule, -⟩ := Option.map_eq_some_iff.1 hsettled
      obtain ⟨hmem, hname⟩ := Seed.mem_of_replaced? hrule
      exact ⟨rule, mem_allRules_iff.1 hmem, hname⟩
    · intro rule hrule hname hhighest
      obtain ⟨s', hs', hfirst⟩ := exists_reordering_replaced? hrule (hname ▸ hhighest)
      have hsettled := hall s' hs' draft hdraft
      rw [← hname, hfirst] at hsettled
      rw [← hname]
      exact hsettled.symm
  · intro h s' hs' draft hdraft
    obtain ⟨⟨rule, hrule, hname⟩, hlast⟩ := h draft hdraft
    have hstored : ∀ rule, rule ∈ s'.rules.values ↔ rule ∈ s.rules.values := fun _ =>
      hs'.rules_values.mem_iff.symm
    have hsome : (Seed.replaced? s'.allRules draft.name).isSome = true :=
      List.find?_isSome.2 ⟨rule, mem_allRules_iff.2 ((hstored rule).2 hrule),
        decide_eq_true hname⟩
    obtain ⟨first, hfirst⟩ := Option.isSome_iff_exists.1 hsome
    obtain ⟨hmem, hname'⟩ := Seed.mem_of_replaced? hfirst
    have hhighest := hlast first ((hstored first).1 (mem_allRules_iff.1 hmem)) hname'
      fun other hother hsame => priority_le_of_replaced? hfirst ((hstored other).2 hother) hsame
    rw [hfirst, hhighest]
    rfl

end First

/-- **Counting tells predicates apart** of which one implies the other, but not conversely. It is
used with the rules that have what is in a last draft: a seed makes more of them and never fewer. -/
theorem countP_lt_countP {α : Type} {l : List α} {p q : α → Bool}
    (h : ∀ a ∈ l, p a = true → q a = true) {a : α} (ha : a ∈ l) (hp : p a = false)
    (hq : q a = true) : l.countP p < l.countP q := by
  obtain ⟨before, after, rfl⟩ := List.append_of_mem ha
  have hbefore := List.countP_mono_left fun b hb => h b (List.mem_append_left _ hb)
  have hafter := List.countP_mono_left fun b hb =>
    h b (List.mem_append_right _ (List.mem_cons_of_mem _ hb))
  rw [List.countP_append, List.countP_append, List.countP_cons, List.countP_cons, hp, hq]
  simp only [Bool.false_eq_true, if_false, if_true]
  omega

/-- Two members of a list with one image are the same, if this image is there once. -/
theorem eq_of_count_map_le_one {α β : Type} [DecidableEq β] {l : List α} {f : α → β} {b : β}
    (h : (l.map f).count b ≤ 1) {x y : α} (hx : x ∈ l) (hy : y ∈ l) (hfx : f x = b)
    (hfy : f y = b) : x = y := by
  obtain ⟨before, after, rfl⟩ := List.append_of_mem hx
  rw [List.map_append, List.map_cons, hfx, List.count_append, List.count_cons_self] at h
  have hbefore : b ∉ before.map f := List.count_eq_zero.1 (by omega)
  have hafter : b ∉ after.map f := List.count_eq_zero.1 (by omega)
  rcases List.mem_append.1 hy with hy | hy
  · exact absurd (hfy ▸ List.mem_map_of_mem hy) hbefore
  · rcases List.mem_cons.1 hy with rfl | hy
    · rfl
    · exact absurd (hfy ▸ List.mem_map_of_mem hy) hafter

/-- **A store that is not settled is seen to change**: what is in its rules is not the same, in
whatever order it is taken. It is not enough that some rule changes, as others might change in turn
and make up for it. But every rule that is written to comes to have what is in the last draft of its
name, and of these there are then more than before. -/
theorem Store.settled_of_perm {s : Store} {drafts : List Draft}
    (hall : ∀ draft ∈ drafts, (Seed.replaced? s.allRules draft.name).isSome = true)
    (h : (s.rules.values.map (Seed.draftAfter s.allRules drafts)).Perm
      (s.rules.values.map Rule.toDraft)) : s.Settled drafts := by
  classical
  intro draft hdraft
  obtain ⟨first, hfirst⟩ := Option.isSome_iff_exists.1 (hall draft hdraft)
  obtain ⟨last, hlast⟩ := Seed.exists_lastNamed_of_mem hdraft
  obtain ⟨hmem, hname⟩ := Seed.mem_of_replaced? hfirst
  have hafter : Seed.draftAfter s.allRules drafts first = last := by
    unfold Seed.draftAfter
    rw [hname, hfirst, hlast, Option.map_some, if_pos rfl, Option.getD_some]
  rw [hfirst, hlast, Option.map_some]
  by_contra hne
  -- The last draft is in one rule more than before.
  have hcount := h.countP_eq fun d => decide (d = last)
  rw [List.countP_map, List.countP_map] at hcount
  refine Nat.ne_of_gt (countP_lt_countP (fun rule hrule hbefore => ?_)
    (Store.mem_allRules_iff.1 hmem) ?_ ?_) hcount
  · have hbefore : rule.toDraft = last := of_decide_eq_true hbefore
    refine decide_eq_true ?_
    obtain heq | heq := Seed.draftAfter_eq_or s.allRules drafts rule
    · exact heq.trans hbefore
    · have hsame : rule.name = draft.name :=
        (congrArg Draft.name hbefore).trans (Seed.mem_of_lastNamed hlast).2
      rw [hsame, hlast] at heq
      exact (Option.some.inj heq).symm
  · exact decide_eq_false fun heq => hne (congrArg some heq)
  · exact decide_eq_true hafter

namespace Engine

variable {e e' e₁ e₂ : Engine} {drafts : List Draft} {kept created : List Rule}

/-! ## Settings and rules on the same terms -/

/-- **Settings seeded once more** are on the same terms, each in its place, in whatever order they
stand when this begins. There is one active setting with a key and a scope, so for settings there is
no choice as there is for rules. -/
theorem SettingsSeeded.exists_sameTerms {entries : List Seed.SettingEntry}
    (h : e.SettingsSeeded entries e₁) (h' : e'.SettingsSeeded entries e₂)
    (hsettings : e₁.store.settings.rows.Perm e'.store.settings.rows) (he₁ : e₁.store.WellFormed)
    (he₂ : e₂.store.WellFormed) :
    ∃ f : Setting → Setting, (∀ s ∈ e'.store.settings.values, (f s).SameTerms s)
      ∧ e₂.store.settings.values = e'.store.settings.values.map f := by
  have hids := h.map_id_again h' he₁ hsettings
  refine ⟨_, fun s hs => ?_, he₂.settings_keyed.values_eq_map hids⟩
  obtain ⟨s', hs', hsame⟩ :=
    h.exists_again h' hsettings he₁ he₂ ((hsettings.map Prod.snd).mem_iff.2 hs)
  have hfound : e₂.store.settings.find? s.id = some s' := hs'
  rw [hfound, Option.getD_some]
  obtain rfl | ⟨entries, old, hturns, hturns'⟩ := hsame
  · exact .refl s'
  · exact hturns.sameTerms hturns'

/-- What is in the rules that were there. -/
theorem RulesSeeded.map_toDraft_kept {existing : List Rule}
    (h : e.RulesSeeded existing drafts e' kept created) :
    kept.map Rule.toDraft = e.store.rules.values.map (Seed.draftAfter existing drafts) := by
  rw [← List.forall₂_eq_eq_eq, List.forall₂_map_left_iff, List.forall₂_map_right_iff]
  exact (h.revised.imp fun _ _ hnow => hnow.2.2).flip

/-- **Rules of a settled store** are on the same terms after its drafts are seeded, each in its
place. No rule is created, since each draft finds one to replace. -/
theorem RulesSeeded.exists_sameTerms
    (h : e.RulesSeeded e.store.allRules drafts e' kept created)
    (hall : ∀ draft ∈ drafts, (Seed.replaced? e.store.allRules draft.name).isSome = true)
    (hsettled : e.store.Settled drafts) (he : e.store.WellFormed) (he' : e'.store.WellFormed) :
    ∃ f : Rule → Rule, (∀ rule ∈ e.store.rules.values, (f rule).SameTerms rule)
      ∧ e'.store.rules.values = e.store.rules.values.map f := by
  have hids : e'.store.rules.values.map Rule.id = e.store.rules.values.map Rule.id := by
    rw [(h.of_replaced hall).1, h.map_id_kept]
  refine ⟨_, fun rule hrule => ?_, he'.rules_keyed.values_eq_map hids⟩
  obtain ⟨now, hnow, hid, hage, hdraft⟩ := h.exists_revised he'.rules_keyed hrule
  have hfound : e'.store.rules.find? rule.id = some now := hnow
  rw [hfound, Option.getD_some]
  exact ⟨hid, hage, hdraft.trans (hsettled.draftAfter_eq rule he.rules_keyed hrule)⟩

/-! ## Prices from an empty cache -/

/-- **Engines alike to pricing give the same prices** where their caches are cleared, as a seed
leaves them. -/
theorem getPrice_clearCache_eq {t : Instant} (h : (e.view t).Alike (e'.view t)) (op : Operation)
    (r : Request) : (e.clearCache.getPrice op r t).1 = (e'.clearCache.getPrice op r t).1 := by
  have hcold : ∀ b : Engine, (e'.view t).UpToDate b.clearCache.cache := by
    intro b c hc entry hentry
    obtain ⟨c₀, -, rfl⟩ := Option.map_eq_some_iff.1 hc
    cases hentry
  have hsame : (e'.view t).SameAnswers e.clearCache.cache e'.clearCache.cache := fun key r =>
    ((hcold e).resolve_eq key r).trans ((hcold e').resolve_eq key r).symm
  unfold getPrice read
  rw [show e.clearCache.view t = e.view t from rfl, h.price_eq]
  exact ((View.looksUp_price _ op r).eq_of_sameAnswers (k := 0) (.inl (hcold e)) (.inl (hcold e'))
    hsame).1

/-! ## Names that are borne once -/

/-- **The names of the rules** after a seed are those before it, and those of the drafts that were
created. -/
theorem RulesSeeded.map_name {existing : List Rule}
    (h : e.RulesSeeded existing drafts e' kept created) :
    e'.store.rules.values.map Rule.name = e.store.rules.values.map Rule.name
      ++ (drafts.filter fun draft => (Seed.replaced? existing draft.name).isNone).map
        Draft.name := by
  have hkept : kept.map Rule.name = e.store.rules.values.map Rule.name := by
    have hnames := congrArg (List.map Draft.name) h.map_toDraft_kept
    rw [List.map_map, List.map_map] at hnames
    exact hnames.trans (List.map_congr_left fun rule _ => Seed.name_draftAfter existing drafts rule)
  have hcreated : created.map Rule.name = (created.map Rule.toDraft).map Draft.name := by
    rw [List.map_map]
    rfl
  rw [h.values, List.map_append, hkept, hcreated, h.drafted]

/-- **A name in the file is borne by a rule that was there, or else by one that is created**; so by
one rule only, where it is there once among the names of the rules and of the drafts. -/
theorem RulesSeeded.count_name_le_one
    (h : e.RulesSeeded e.store.allRules drafts e' kept created)
    (hdrafts : (drafts.map Draft.name).Nodup)
    (hstored : ∀ draft ∈ drafts, (e.store.rules.values.map Rule.name).count draft.name ≤ 1)
    {draft : Draft} (hdraft : draft ∈ drafts) :
    (e'.store.rules.values.map Rule.name).count draft.name ≤ 1 := by
  rw [h.map_name, List.count_append]
  cases hrule : Seed.replaced? e.store.allRules draft.name with
  | some rule =>
    have hnew : ((drafts.filter fun d => (Seed.replaced? e.store.allRules d.name).isNone).map
        Draft.name).count draft.name = 0 := by
      refine List.count_eq_zero.2 fun hmem => ?_
      obtain ⟨d, hd, hname⟩ := List.mem_map.1 hmem
      have hnone := (List.mem_filter.1 hd).2
      rw [hname, hrule] at hnone
      cases hnone
    rw [hnew]
    exact hstored draft hdraft
  | none =>
    have hold : (e.store.rules.values.map Rule.name).count draft.name = 0 := by
      refine List.count_eq_zero.2 fun hmem => ?_
      obtain ⟨rule, hrule', hname⟩ := List.mem_map.1 hmem
      exact List.find?_eq_none.1 hrule rule (Store.mem_allRules_iff.2 hrule') (decide_eq_true hname)
    rw [hold, Nat.zero_add]
    exact List.nodup_iff_count_le_one.1 (hdrafts.sublist (List.filter_sublist.map Draft.name)) _

/-- **Where no two drafts have one name**, and no two rules had one of their names, the store is
settled after the seed, in whatever order its rules stand: there is then one rule of each name in
the file, and so no choice of a first one. It has what is in the only draft of its name. -/
theorem RulesSeeded.settled (h : e.RulesSeeded e.store.allRules drafts e' kept created)
    (he' : e'.store.rules.Keyed Rule.id) (hdrafts : (drafts.map Draft.name).Nodup)
    (hstored : ∀ draft ∈ drafts, (e.store.rules.values.map Rule.name).count draft.name ≤ 1)
    {s : Store} (hs : e'.store.rules.rows.Perm s.rules.rows) : s.Settled drafts := by
  intro draft hdraft
  have hexisting : ∀ rule ∈ e.store.allRules, rule ∈ e.store.rules.values :=
    fun _ => Store.mem_allRules_iff.1
  obtain ⟨last, hlast⟩ := Seed.exists_lastNamed_of_mem hdraft
  obtain ⟨rule, hrule, rfl⟩ := h.exists_of_lastNamed he' hexisting hlast
  obtain ⟨first, hfirst⟩ := Option.isSome_iff_exists.1
    (h.isSome_replaced? he' hexisting hs hdraft)
  obtain ⟨hmem, hname⟩ := Seed.mem_of_replaced? hfirst
  have hstored' := (hs.map Prod.snd).mem_iff.2 (Store.mem_allRules_iff.1 hmem)
  have hsame : first = rule := eq_of_count_map_le_one
    (h.count_name_le_one hdrafts hstored hdraft) hstored' hrule hname
    (Seed.mem_of_lastNamed hlast).2
  rw [hfirst, hlast, hsame, Option.map_some]

/-! ## Two seeds of one file

The first seed takes `e` to `c`. Before the second one the rows may be in another order, so that it
starts from `d` and not from `c`. All that is used of `d` is that it has the same rows. -/

namespace Stages

variable {settings : Seed.Settings} {rules : Seed.Rules} {occasion occasion' : Nat → Occasion}
  {report report' : SeedReport} {a b c d a' b' c' : Engine}
  (h : e.Stages occasion settings rules report a b c) (hd : c.store.Reordering d.store)
  (h' : d.Stages occasion' settings rules report' a' b' c')
  (hfresh : e.Fresh occasion 0 (Call.entryCount settings rules))
include h hd h' hfresh

/-- **What is in the rules after the second seed**, which has found them in the order of `d`. No
rule is created any more, since the first seed has left one of each name. -/
theorem map_toDraft_again : c'.store.rules.values.map Rule.toDraft
    = d.store.rules.values.map (Seed.draftAfter d.store.allRules rules.rules) := by
  obtain ⟨kept, created, hseeded⟩ := h.exists_rulesSeeded_again hfresh hd h'
  rw [(hseeded.of_replaced (h.isSome_replaced?_again hfresh hd h')).1, hseeded.map_toDraft_kept,
    Store.allRules, h.rules_eq_again hfresh hd h']
  rfl

/-- **From a settled store the second seed changes nothing that pricing sees.** Settings and rules
are each replaced by one on the same terms, so values are looked up and rules applied as before. -/
theorem alike_again (hsettled : d.store.Settled rules.rules) (t : Instant) :
    (c'.view t).Alike (d.view t) := by
  obtain ⟨kept, created, hseeded⟩ := h.exists_rulesSeeded_again hfresh hd h'
  have hrules := h.rules_eq_again hfresh hd h'
  have hall : b'.store.allRules = d.store.allRules := by
    unfold Store.allRules
    rw [hrules]
  have hconfig : c'.config = d.config :=
    (h'.third.config_eq (step_of_seedRule _)).trans
      ((h'.second.config_eq step_of_seedSetting).trans
        (h'.first.config_eq step_of_seedCategory))
  obtain ⟨f, hf, hsettings⟩ := (h.settingsSeeded (.inr hfresh)).exists_sameTerms
    (h.settingsSeeded_again hfresh hd h') (h.settings_rows_again hd h') h.wellFormed₂
    h'.wellFormed₂
  rw [← h'.third.eq_of_seedRule.1, h'.first.eq_of_seedCategory.1] at hsettings
  rw [h'.first.eq_of_seedCategory.1] at hf
  have hsettled' : b'.store.Settled rules.rules := fun draft hdraft => by
    rw [hall]
    exact hsettled draft hdraft
  obtain ⟨g, hg, hvalues⟩ := hseeded.exists_sameTerms (h.isSome_replaced?_again hfresh hd h')
    hsettled' h'.wellFormed₂ h'.wellFormed₃
  rw [hrules] at hg hvalues
  refine ⟨rfl, fun key r => ?_, View.applyRules_map hg hvalues rfl rfl rfl⟩
  show (⟨c'.store, c'.config.weights, t⟩ : View).value? key r = _
  rw [hconfig]
  exact View.value?_map (v := d.view t) hf hsettings key r

end Stages

end Engine

/-- **The same file seeded twice.** A new engine has come to `e₀` by calls, and then two seeds of
one file succeed, one right after the other, the first of which is given no identifier twice. The
rows may have been enumerated in any order before each call; in particular the second seed finds
them in an order of its own, that of `s`, and this decides which rule of a name it writes to.

It makes of the content of each rule what the drafts of its name make of it (`Seed.draftAfter`).
What is in the rules is the same as before, in whatever order it is taken, if and only if the first
rule of each name in the file has what is in the last draft of that name; and then every price is
what it was, at the same instant, as an answer and as a failure. This is so for every `s` wherever
no two drafts of the file have one name, nor had two rules one of these names before. -/
theorem seed_again_run {config : EngineConfig} {e e₀ : Engine} (h : Engine.create config = .ok e)
    {ids : List Uuid} (hreach : e.Reaches ids e₀) {settings : Seed.Settings} {rules : Seed.Rules}
    {occasion occasion' : Nat → Occasion}
    (hids : (ids ++ (Call.seed settings rules occasion).rowIds).Nodup)
    {report report' : SeedReport} {e₁ e₂ : Engine}
    (hfirst : e₀.seed settings rules occasion = (.ok report, e₁)) {s : Store}
    (horder : e₁.store.Reordering s)
    (hagain : { e₁ with store := s }.seed settings rules occasion' = (.ok report', e₂)) :
    e₂.store.rules.values.map Rule.toDraft
        = s.rules.values.map (Seed.draftAfter s.allRules rules.rules)
      ∧ ((e₂.store.rules.values.map Rule.toDraft).Perm (e₁.store.rules.values.map Rule.toDraft)
        ↔ s.Settled rules.rules)
      ∧ (s.Settled rules.rules →
        ∀ op r t, (e₂.getPrice op r t).1 = (e₁.getPrice op r t).1)
      ∧ ((rules.rules.map Draft.name).Nodup →
        (∀ draft ∈ rules.rules,
          (e₀.store.rules.values.map Rule.name).count draft.name ≤ 1) →
        s.Settled rules.rules) := by
  have hwell := hreach.wellFormed (Engine.unused_of_create h).1
  have hfresh := hreach.fresh h hids
  obtain ⟨a, b, c, hcategories, hsettings, hrules, rfl⟩ := Engine.seed_eq_ok_iff.1 hfirst
  obtain ⟨a', b', c', hcategories', hsettings', hrules', rfl⟩ := Engine.seed_eq_ok_iff.1 hagain
  have hstages : e₀.Stages occasion settings rules report a b c :=
    ⟨hwell, hcategories, hsettings, hrules⟩
  have hd : c.store.Reordering { c.clearCache with store := s }.store := horder
  have hstages' : Engine.Stages { c.clearCache with store := s } occasion' settings rules report'
      a' b' c' :=
    ⟨hd.wellFormed hstages.wellFormed₃, hcategories', hsettings', hrules'⟩
  have hdrafts := hstages.map_toDraft_again hd hstages' hfresh
  have hcontents := hd.rules_values.map Rule.toDraft
  refine ⟨hdrafts, ⟨fun hperm => ?_, fun hsettled => ?_⟩, fun hsettled op r t => ?_,
    fun hnames hstored => ?_⟩
  · exact Store.settled_of_perm (hstages.isSome_replaced? hfresh hd.rules)
      (hdrafts ▸ hperm.trans hcontents)
  · refine .trans (.of_eq (hdrafts.trans (List.map_congr_left fun rule hrule => ?_)))
      hcontents.symm
    exact hsettled.draftAfter_eq rule hstages'.wellFormed.rules_keyed hrule
  · -- The second seed changes nothing that pricing sees, and nor does the order of the rows.
    have hagain := Engine.getPrice_clearCache_eq (hstages.alike_again hd hstages' hfresh hsettled t)
      op r
    have hreordered : (Engine.view { c.clearCache with store := s } t).Alike (c.view t) :=
      Store.Reordering.alike (v := c.view t) hstages.wellFormed₃ hd
    exact hagain.trans (Engine.getPrice_clearCache_eq hreordered op r)
  · obtain ⟨kept, created, hseeded⟩ := hstages.exists_rulesSeeded (.inr hfresh)
    refine hseeded.settled hstages.wellFormed₃.rules_keyed hnames ?_ hd.rules
    rw [(hstages.settingsSeeded (.inr hfresh)).rules, hcategories.eq_of_seedCategory.2]
    exact hstored

/-- A file with a draft that takes half off. -/
def Seed.halfOff : Seed.Rules where
  rules := [
    { name := "less"
      ruleType := .promotion
      actions := [⟨.percentageDiscount, .ofUInt32 50⟩] }]

/-- The file is seeded twice, and a refill for a hundred costs fifty each time. There is one draft,
so this is the case of names that do not repeat. -/
theorem seed_again_run_halfOff : Engine.create {} = .ok Engine.initial
    ∧ ∃ e e₁ e₂, e = Engine.initial.run
        [.setSetting "refill.base_price" (.number .hundred) { author := ⟨"ann", none⟩ } (.number 1)]
      ∧ e.seed {} Seed.halfOff (fun i => .number (i + 2)) = (.ok ⟨0, 0, 1⟩, e₁)
      ∧ e₁.seed {} Seed.halfOff (fun i => .number (i + 3)) = (.ok ⟨0, 0, 1⟩, e₂)
      ∧ (e₁.getPrice .refill {} ⟨5⟩).1.toOption.map Decimal.toText = some "50.00"
      ∧ (e₂.getPrice .refill {} ⟨5⟩).1 = (e₁.getPrice .refill {} ⟨5⟩).1 := by
  obtain ⟨calls, hcalls⟩ : ∃ calls : List Call, calls = [.setSetting "refill.base_price"
      (.number .hundred) { author := ⟨"ann", none⟩ } (.number 1)] := ⟨_, rfl⟩
  obtain ⟨e₁, he₁⟩ : ∃ e₁, e₁ = ((Engine.initial.run calls).seed {} Seed.halfOff
      fun i => .number (i + 2)).2 := ⟨_, rfl⟩
  have hids : (calls.flatMap Call.rowIds
      ++ (Call.seed {} Seed.halfOff fun i => .number (i + 2)).rowIds).Nodup := by
    subst hcalls
    decide
  have hstored : ∀ draft ∈ Seed.halfOff.rules,
      ((Engine.initial.run calls).store.rules.values.map Rule.name).count draft.name ≤ 1 := by
    subst hcalls
    decide +kernel
  have hfirst : ((Engine.initial.run calls).seed {} Seed.halfOff
      fun i => .number (i + 2)).1.toOption = some ⟨0, 0, 1⟩ := by
    subst hcalls
    decide +kernel
  have hagain : (e₁.seed {} Seed.halfOff fun i => .number (i + 3)).1.toOption
      = some ⟨0, 0, 1⟩ := by
    subst he₁ hcalls
    decide +kernel
  have hprice : (e₁.getPrice .refill {} ⟨5⟩).1.toOption.map Decimal.toText = some "50.00" := by
    subst he₁ hcalls
    decide +kernel
  have hfirst := Engine.seed_eq_of_toOption hfirst
  have hagain := Engine.seed_eq_of_toOption hagain
  rw [← he₁] at hfirst
  obtain ⟨-, -, hprices, hsettled⟩ :=
    seed_again_run Engine.create_initial (Engine.initial.reaches_run calls) hids hfirst
      (.refl e₁.store) hagain
  exact ⟨rfl, _, e₁, _, congrArg Engine.initial.run hcalls, hfirst, hagain, hprice,
    hprices (hsettled (by decide) hstored) .refill {} ⟨5⟩⟩

/-! ## Where names repeat -/

/-- A seed of rules alone, when the list of the rules that it may replace is known. -/
theorem Engine.seed_eq_of_allRules {e : Engine} {existing : List Rule}
    (h : e.store.allRules = existing) (rules : Seed.Rules) (occasion : Nat → Occasion) :
    e.seed {} rules occasion
      = let s := (Seeding.mk e {} 0 none).goThrough occasion
          (fun report => { report with rules := report.rules + 1 }) (seedRule existing) rules.rules
        match s.error with
        | some error => (.error error, s.engine)
        | none => (.ok s.report, s.engine.clearCache) := by
  subst h
  rfl

/-- A file with two drafts of one name. The first takes half off. The second one does nothing, and
comes after it by its priority. -/
def Seed.sameNamed : Seed.Rules where
  rules := [
    { name := "less"
      ruleType := .promotion
      actions := [⟨.percentageDiscount, .ofUInt32 50⟩]
      priority := 5 },
    { name := "less"
      ruleType := .promotion
      actions := [⟨.percentageDiscount, .ofUInt32 50⟩]
      active := false }]

/-- **Where names repeat in a file, a second seed may move prices.** The file is seeded twice. The
first time each draft has a rule of its own, and a refill for a hundred costs fifty. The second time
both drafts are written to the first of these rules. The store has the second draft twice then and
the first one no more, and a refill costs a hundred. The two rules differ in priority, so this is
what happens in whatever order the rows are enumerated. -/
theorem price_moves_where_names_repeat : Engine.create {} = .ok Engine.initial
    ∧ ∃ e e₁ e₂, e = Engine.initial.run
        [.setSetting "refill.base_price" (.number .hundred) { author := ⟨"ann", none⟩ } (.number 1)]
      ∧ e.seed {} Seed.sameNamed (fun i => .number (i + 2)) = (.ok ⟨0, 0, 2⟩, e₁)
      ∧ e₁.seed {} Seed.sameNamed (fun i => .number (i + 4)) = (.ok ⟨0, 0, 2⟩, e₂)
      ∧ e₁.store.rules.values.map (fun rule => (rule.priority, rule.active))
        = [(5, true), (0, false)]
      ∧ e₂.store.rules.values.map (fun rule => (rule.priority, rule.active))
        = [(0, false), (0, false)]
      ∧ ¬ (e₂.store.rules.values.map Rule.toDraft).Perm (e₁.store.rules.values.map Rule.toDraft)
      ∧ (e₁.getPrice .refill {} ⟨6⟩).1.toOption.map Decimal.toText = some "50.00"
      ∧ (e₂.getPrice .refill {} ⟨6⟩).1.toOption.map Decimal.toText = some "100" := by
  obtain ⟨e, he⟩ : ∃ e, e = Engine.initial.run
    [.setSetting "refill.base_price" (.number .hundred) { author := ⟨"ann", none⟩ } (.number 1)] :=
    ⟨_, rfl⟩
  obtain ⟨e₁, he₁⟩ : ∃ e₁, e₁ = (e.seed {} Seed.sameNamed fun i => .number (i + 2)).2 := ⟨_, rfl⟩
  obtain ⟨e₂, he₂⟩ : ∃ e₂, e₂ = (e₁.seed {} Seed.sameNamed fun i => .number (i + 4)).2 := ⟨_, rfl⟩
  have hfirst : (e.seed {} Seed.sameNamed fun i => .number (i + 2)).1.toOption
      = some ⟨0, 0, 2⟩ := by
    subst he
    decide +kernel
  have hrules : e₁.store.rules.values.map (fun rule => (rule.priority, rule.active))
      = [(5, true), (0, false)] := by
    subst he₁ he
    decide +kernel
  have hprice : (e₁.getPrice .refill {} ⟨6⟩).1.toOption.map Decimal.toText = some "50.00" := by
    subst he₁ he
    decide +kernel
  -- The rules of the first seed are in their order by priority.
  have hall : e₁.store.allRules = e₁.store.rules.values := by
    refine List.mergeSort_of_pairwise ?_
    subst he₁ he
    decide +kernel
  have hseed := Engine.seed_eq_of_allRules hall Seed.sameNamed fun i => .number (i + 4)
  have hagain : (e₁.seed {} Seed.sameNamed fun i => .number (i + 4)).1.toOption
      = some ⟨0, 0, 2⟩ := by
    rw [hseed]
    subst he₁ he
    decide +kernel
  have hrules' : e₂.store.rules.values.map (fun rule => (rule.priority, rule.active))
      = [(0, false), (0, false)] := by
    rw [he₂, hseed]
    subst he₁ he
    decide +kernel
  have hprice' : (e₂.getPrice .refill {} ⟨6⟩).1.toOption.map Decimal.toText = some "100" := by
    rw [he₂, hseed]
    subst he₁ he
    decide +kernel
  refine ⟨rfl, e, e₁, e₂, he, he₁ ▸ Engine.seed_eq_of_toOption hfirst,
    he₂ ▸ Engine.seed_eq_of_toOption hagain, hrules, hrules', fun hperm => ?_, hprice, hprice'⟩
  have hpriorities := hperm.map fun draft => (draft.priority, draft.active)
  rw [List.map_map, List.map_map] at hpriorities
  have hbefore : ((5, true) : Int32 × Bool) ∈ e₂.store.rules.values.map fun rule =>
      (rule.priority, rule.active) :=
    hpriorities.mem_iff.2 (hrules ▸ List.mem_cons_self)
  rw [hrules'] at hbefore
  exact absurd hbefore (by decide)

end Tariff
