import Tariff.Proofs.Sorting
import Tariff.Proofs.Uniqueness

/-!
# Which setting applies

The setting that applies is found by adding weights, sorting, and looking up the
identifier that came out first. What is meant is simpler and does not speak of
weights: of the settings in the running, the one that comes first in a
lexicographic order applies. Of two settings the one that constrains the operation
comes first; if both do or neither does, the one that constrains the tier, then
the cylinder type, then the outlet; then the one of higher priority, the older one,
the one with the smaller identifier.

The two agree where each weight exceeds the sum of those below it, which is what
makes weights valid (`compare_total`). The order of candidates is then that of
their settings (`order_ofSetting`), so that one may as well sort the settings
(`explain_eq_map_ranked`), and the first candidate is the first setting, since no
two settings have the same identifier (`setting?_eq_head?_ranked`).

The lexicographic order leaves no tie between settings with distinct identifiers.
So a sorted list is determined by what is in it, and the order in which the store
holds its rows does not matter.

For a request whose dimensions are exactly the scope of a setting, that setting
applies while it is in effect (`setting?_eq_some_of_exact`): a scope that covers the
request too leaves a dimension open that this one constrains.
-/

namespace Tariff

/-! ## The lexicographic order -/

/-- **The order of scopes**, the most specific one first: the dimensions count one after the other,
and a scope that constrains one comes before a scope that does not. Two scopes that constrain the
same dimensions are tied, whatever they constrain them to. -/
def Scope.specificity (a b : Scope) : Ordering :=
  (compare b.operationType.isSome a.operationType.isSome).then
    ((compare b.customerTier.isSome a.customerTier.isSome).then
      ((compare b.cylinderType.isSome a.cylinderType.isSome).then
        (compare b.outletId.isSome a.outletId.isSome)))

/-- **The order of settings**, the one that applies first: by specificity, then the higher priority,
then the older one, then the smaller identifier. There are no weights in it. It is what the weights
are meant to bring about. -/
def Setting.precedence (a b : Setting) : Ordering :=
  (a.scope.specificity b.scope).then
    ((compare b.priority.toInt a.priority.toInt).then
      ((compare a.createdAt b.createdAt).then (compare a.id b.id)))

/-- It is put together from comparisons of truth values by `Ordering.then`, and so it
is an order. -/
instance Scope.transCmp_specificity : Std.TransCmp Scope.specificity := by
  unfold Scope.specificity
  infer_instance

/-- Settings compared by their scopes. -/
instance Setting.transCmp_specificity :
    Std.TransCmp (fun a b : Setting => a.scope.specificity b.scope) where
  eq_swap {a b} := @Std.OrientedCmp.eq_swap _ Scope.specificity _ a.scope b.scope
  isLE_trans {a b c} := @Std.TransCmp.isLE_trans _ Scope.specificity _ a.scope b.scope c.scope

/-- And by all that counts, which makes sorting by it well defined. -/
instance Setting.transCmp_precedence : Std.TransCmp Setting.precedence := by
  unfold Setting.precedence
  infer_instance

namespace Setting

/-- Settings with distinct identifiers are never tied. -/
theorem id_eq_of_precedence_eq {a b : Setting} (h : a.precedence b = .eq) : a.id = b.id := by
  unfold precedence at h
  simp only [Ordering.then_eq_eq] at h
  exact Uuid.eq_of_compare_eq h.2.2.2

/-- Settings in their order of precedence. This list is what is proved about. The code sorts
candidates, which hold a sum of weights in the place of the scope. -/
def ranked (settings : List Setting) : List Setting :=
  settings.mergeSort fun a b => (a.precedence b).isLE

theorem ranked_perm (settings : List Setting) : (ranked settings).Perm settings :=
  List.mergeSort_perm _ _

/-- **Of two settings in order the first one takes precedence**, if their identifiers are
distinct. -/
theorem pairwise_ranked {settings : List Setting} (h : (settings.map Setting.id).Nodup) :
    (ranked settings).Pairwise fun a b => a.precedence b = .lt :=
  pairwise_lt_mergeSort (fun _ _ => id_eq_of_precedence_eq) h

/-- **The order of precedence does not depend on the order before.** Sorting is stable, but as
nothing is tied it makes no use of that. -/
theorem ranked_eq_of_perm {settings settings' : List Setting} (h : settings.Perm settings')
    (hids : (settings.map Setting.id).Nodup) : ranked settings' = ranked settings :=
  mergeSort_eq_of_perm (fun _ _ => id_eq_of_precedence_eq) h hids

end Setting

/-! ## Weights -/

namespace Weights

/-- **A weight that exceeds the rest on both sides decides first.** `m` and `n` are what the
dimensions below come to. If one side has the weight and the other one does not, what is below
cannot make up for it. -/
theorem compare_weigh_add {weight : UInt32} {m n : Nat} (hm : m < weight.toNat)
    (hn : n < weight.toNat) (x y : Bool) :
    compare (weigh weight x + m) (weigh weight y + n) = (compare x y).then (compare m n) := by
  unfold weigh
  cases x <;> cases y
  · rw [if_neg Bool.false_ne_true, Nat.zero_add, Nat.zero_add]
    rfl
  · rw [if_neg Bool.false_ne_true, if_pos rfl, Nat.zero_add]
    exact Nat.compare_eq_lt.2 (by omega)
  · rw [if_neg Bool.false_ne_true, if_pos rfl, Nat.zero_add]
    exact Nat.compare_eq_gt.2 (by omega)
  · rw [if_pos rfl]
    show compare (weight.toNat + m) (weight.toNat + n) = compare m n
    simp only [Nat.compare_eq_ite_lt, Nat.add_lt_add_iff_left]

/-- A dimension adds its weight or nothing. -/
theorem weigh_le (weight : UInt32) (x : Bool) : weigh weight x ≤ weight.toNat := by
  unfold weigh
  split
  · exact Nat.le_refl _
  · exact Nat.zero_le _

/-- **Valid weights compare scopes by specificity.** Weights are valid if each exceeds the sum of
those below it. The dimensions are gone through from the heaviest to the lightest, with
`compare_weigh_add` each time. -/
theorem compare_total {w : Weights} (h : w.isValid = true) (a b : Scope) :
    compare (w.total b) (w.total a) = a.specificity b := by
  simp only [isValid, Bool.and_eq_true, decide_eq_true_eq] at h
  obtain ⟨⟨⟨houtlet, hcylinder⟩, htier⟩, hoperation⟩ := h
  -- The weight of each dimension stands before the sum of those below it.
  have htotal : ∀ s : Scope, w.total s = weigh w.operationType s.operationType.isSome
      + (weigh w.customerTier s.customerTier.isSome + (weigh w.cylinderType s.cylinderType.isSome
        + (weigh w.outletId s.outletId.isSome + 0))) := fun s => by
    unfold total
    omega
  have hcylinder' : ∀ s : Scope, weigh w.outletId s.outletId.isSome + 0
      < w.cylinderType.toNat := fun s => by
    have := weigh_le w.outletId s.outletId.isSome
    omega
  have htier' : ∀ s : Scope, weigh w.cylinderType s.cylinderType.isSome
      + (weigh w.outletId s.outletId.isSome + 0) < w.customerTier.toNat := fun s => by
    have := weigh_le w.outletId s.outletId.isSome
    have := weigh_le w.cylinderType s.cylinderType.isSome
    omega
  have hoperation' : ∀ s : Scope, weigh w.customerTier s.customerTier.isSome
      + (weigh w.cylinderType s.cylinderType.isSome + (weigh w.outletId s.outletId.isSome + 0))
      < w.operationType.toNat := fun s => by
    have := weigh_le w.outletId s.outletId.isSome
    have := weigh_le w.cylinderType s.cylinderType.isSome
    have := weigh_le w.customerTier s.customerTier.isSome
    omega
  rw [htotal, htotal, compare_weigh_add (hoperation' b) (hoperation' a),
    compare_weigh_add (htier' b) (htier' a), compare_weigh_add (hcylinder' b) (hcylinder' a),
    compare_weigh_add houtlet houtlet]
  unfold Scope.specificity
  rw [show compare 0 0 = Ordering.eq from rfl, Ordering.then_eq]

end Weights

/-! ## Candidates -/

namespace Candidate

/-- A setting as a candidate, if it covers the request. -/
def ofSetting (w : Weights) (s : Setting) : Candidate :=
  ⟨s.id, w.total s.scope, s.priority, s.createdAt⟩

/-- **With valid weights candidates are in order where their settings are.** All other parts of the
two orders are the same. -/
theorem order_ofSetting {w : Weights} (h : w.isValid = true) (a b : Setting) :
    order (ofSetting w a) (ofSetting w b) = a.precedence b := by
  unfold order Setting.precedence
  rw [show compare (ofSetting w b).score (ofSetting w a).score = a.scope.specificity b.scope from
    Weights.compare_total h _ _]
  rfl

/-- The candidates are the settings that cover the request. -/
theorem filterMap_of? (w : Weights) (r : Request) (settings : List Setting) :
    settings.filterMap (of? w r)
      = (settings.filter fun s => s.scope.covers r).map (ofSetting w) := by
  rw [← List.filterMap_eq_map, List.filterMap_filter]
  refine List.filterMap_congr (fun s _ => ?_)
  unfold of? Weights.score?
  split <;> rfl

/-- **Candidates are ranked as their settings are.** So ranking and leaving out what does not cover
the request may be done in either order, and on settings. -/
theorem rank_eq_map_ranked {w : Weights} (h : w.isValid = true) (r : Request)
    (settings : List Setting) :
    rank w r settings
      = (Setting.ranked (settings.filter fun s => s.scope.covers r)).map (ofSetting w) := by
  unfold rank Setting.ranked
  rw [filterMap_of?]
  symm
  refine List.map_mergeSort (fun a _ b _ => ?_)
  rw [order_ofSetting h]

/-- **The first candidate is looked up as the first setting.** The code keeps the identifier that
came out first and goes back to the settings with it. As no two have the same one, it finds the
setting that the candidate was made of. -/
theorem best?_eq_head?_ranked {w : Weights} (h : w.isValid = true) (r : Request)
    {settings : List Setting} (hids : (settings.map Setting.id).Nodup) :
    best? w r settings
      = (Setting.ranked (settings.filter fun s => s.scope.covers r)).head? := by
  unfold best?
  rw [rank_eq_map_ranked h]
  cases hranked : Setting.ranked (settings.filter fun s => s.scope.covers r) with
  | nil => rfl
  | cons best rest =>
    have hmem : best ∈ settings := by
      have hbest := (Setting.ranked_perm (settings.filter fun s => s.scope.covers r)).mem_iff
        (a := best)
      rw [hranked] at hbest
      exact (List.mem_filter.1 (hbest.1 (List.mem_cons_self))).1
    show settings.find? (fun s => s.id = best.id) = some best
    cases hfind : settings.find? fun s => s.id = best.id with
    | none => simpa using List.find?_eq_none.1 hfind best hmem
    | some found =>
      have hid : found.id = best.id := by simpa using List.find?_some hfind
      rw [List.inj_on_of_nodup_map hids (List.mem_of_find?_eq_some hfind) hmem hid]

end Candidate

/-! ## Resolution -/

/-- **Whether a setting is in the running** for a request under a key at an instant. -/
def Setting.isRunningFor (s : Setting) (key : String) (r : Request) (t : Instant) : Bool :=
  s.key = key && s.isEffectiveAt t && s.scope.covers r

/-- The three conditions are checked one after the other. -/
theorem Setting.isRunningFor_iff {s : Setting} {key : String} {r : Request} {t : Instant} :
    s.isRunningFor key r t = true
      ↔ s.key = key ∧ s.isEffectiveAt t = true ∧ s.scope.covers r = true := by
  unfold isRunningFor
  simp [and_assoc]

namespace View

variable {v : View}

/-- The stored settings in the running for a request under a key, in the order of the rows. -/
def running (v : View) (key : String) (r : Request) : List Setting :=
  v.store.settings.values.filter fun s => s.isRunningFor key r v.now

/-- They have distinct identifiers, since the store is keyed by them. -/
theorem nodup_map_running (hs : v.store.WellFormed) (key : String) (r : Request) :
    ((v.running key r).map Setting.id).Nodup :=
  hs.settings_keyed.nodup_map_values.sublist ((List.filter_sublist).map _)

/-- The candidates under a key that cover the request are the settings in the running. The store
lists them in an order of its own, so they are so up to order only. -/
theorem filter_candidates_perm (v : View) (key : String) (r : Request) :
    ((v.candidates key).filter fun s => s.scope.covers r).Perm (v.running key r) := by
  unfold candidates running Store.effectiveSettings
  refine ((List.mergeSort_perm _ _).filter _).trans ?_
  rw [List.filter_filter]
  refine List.Perm.of_eq (List.filter_congr (fun s _ => ?_))
  unfold Setting.isRunningFor
  simp [Bool.and_comm]

theorem nodup_map_candidates (hs : v.store.WellFormed) (key : String) :
    ((v.candidates key).map Setting.id).Nodup := by
  unfold candidates Store.effectiveSettings
  refine (((List.mergeSort_perm _ _).map _).nodup_iff).2 ?_
  exact hs.settings_keyed.nodup_map_values.sublist ((List.filter_sublist).map _)

/-- Ranked, the two lists are one. -/
theorem ranked_filter_candidates (hs : v.store.WellFormed) (key : String) (r : Request) :
    Setting.ranked ((v.candidates key).filter fun s => s.scope.covers r)
      = Setting.ranked (v.running key r) :=
  Setting.ranked_eq_of_perm (v.filter_candidates_perm key r).symm (nodup_map_running hs key r)

/-- **What is explained are the settings in the running**, in their order of precedence. -/
theorem explain_eq_map_ranked (hs : v.store.WellFormed) (hw : v.weights.isValid = true)
    (key : String) (r : Request) :
    v.explain key r
      = (Setting.ranked (v.running key r)).map (Candidate.ofSetting v.weights) := by
  unfold explain
  rw [Candidate.rank_eq_map_ranked hw, ranked_filter_candidates hs]

/-- **The setting that applies is the first in the order of precedence.** -/
theorem setting?_eq_head?_ranked (hs : v.store.WellFormed) (hw : v.weights.isValid = true)
    (key : String) (r : Request) :
    v.setting? key r = (Setting.ranked (v.running key r)).head? := by
  unfold setting?
  rw [Candidate.best?_eq_head?_ranked hw r (nodup_map_candidates hs key),
    ranked_filter_candidates hs]

/-- **No setting applies only if none is in the running.** -/
theorem setting?_eq_none_iff (hs : v.store.WellFormed) (hw : v.weights.isValid = true)
    (key : String) (r : Request) :
    v.setting? key r = none
      ↔ ∀ s ∈ v.store.settings.values, s.isRunningFor key r v.now = false := by
  have hperm := Setting.ranked_perm (v.running key r)
  have hnil : Setting.ranked (v.running key r) = [] ↔ v.running key r = [] := by
    constructor
    · intro hranked
      rw [hranked] at hperm
      exact hperm.nil_eq.symm
    · intro hrunning
      rw [hrunning] at hperm ⊢
      exact hperm.eq_nil
  rw [setting?_eq_head?_ranked hs hw, List.head?_eq_none_iff, hnil]
  unfold running
  simp

/-- **The setting that applies takes precedence over every other in the running.** -/
theorem of_setting?_eq_some (hs : v.store.WellFormed) (hw : v.weights.isValid = true)
    {key : String} {r : Request} {s : Setting} (h : v.setting? key r = some s) :
    s ∈ v.store.settings.values ∧ s.isRunningFor key r v.now = true
      ∧ ∀ s' ∈ v.store.settings.values, s'.isRunningFor key r v.now = true → s' ≠ s →
        s.precedence s' = .lt := by
  rw [setting?_eq_head?_ranked hs hw] at h
  have hmem : ∀ s', s' ∈ Setting.ranked (v.running key r)
      ↔ s' ∈ v.store.settings.values ∧ s'.isRunningFor key r v.now = true := fun s' => by
    rw [(Setting.ranked_perm _).mem_iff]
    exact List.mem_filter
  have hpairwise := Setting.pairwise_ranked (nodup_map_running hs key r)
  cases hranked : Setting.ranked (v.running key r) with
  | nil => rw [hranked] at h; cases h
  | cons best rest =>
    rw [hranked] at h hmem hpairwise
    cases h
    obtain ⟨hstored, hrunning⟩ := (hmem s).1 (List.mem_cons_self)
    refine ⟨hstored, hrunning, fun s' hstored' hrunning' hne => ?_⟩
    rcases List.mem_cons.1 ((hmem s').2 ⟨hstored', hrunning'⟩) with rfl | hrest
    · exact absurd rfl hne
    · exact List.rel_of_pairwise_cons hpairwise hrest

/-- **The order in which the store has its rows does not matter**, neither for what applies nor for
what is explained. -/
theorem eq_of_reordering (hs : v.store.WellFormed) (hw : v.weights.isValid = true) {s : Store}
    (h : v.store.Reordering s) (key : String) (r : Request) :
    { v with store := s }.setting? key r = v.setting? key r
      ∧ { v with store := s }.explain key r = v.explain key r := by
  have hs' : { v with store := s }.store.WellFormed := h.wellFormed hs
  have hw' : { v with store := s }.weights.isValid = true := hw
  have hranked : Setting.ranked ({ v with store := s }.running key r)
      = Setting.ranked (v.running key r) :=
    Setting.ranked_eq_of_perm ((h.settings.map _).filter _) (nodup_map_running hs key r)
  constructor
  · rw [setting?_eq_head?_ranked hs' hw', setting?_eq_head?_ranked hs hw, hranked]
  · rw [explain_eq_map_ranked hs' hw', explain_eq_map_ranked hs hw, hranked]

end View

/-! ## Exact scopes -/

/-- A scope covers the requests whose dimensions it is. -/
theorem Scope.covers_of_dimensions_eq {s : Scope} {r : Request} (h : r.dimensions = s) :
    s.covers r = true := by
  subst h
  simp [covers, Request.dimensions]

/-- Where a constraint admits what is requested, it is the same or it is open. If it is open and
something is requested, then what is requested is the more specific of the two. -/
theorem Scope.eq_or_compare_isSome_eq_gt {α : Type} [DecidableEq α] {a b : Option α}
    (h : admits a b = true) : a = b ∨ compare b.isSome a.isSome = .gt := by
  cases a with
  | none =>
    cases b with
    | none => exact .inl rfl
    | some b => exact .inr rfl
  | some a => exact .inl (by simpa [admits, eq_comm] using h)

/-- **Of the scopes that cover a request its dimensions are the most specific one.** The first
dimension in which such a scope differs from them is open in it, and decides. -/
theorem Scope.eq_or_specificity_eq_gt {s : Scope} {r : Request} (h : s.covers r = true) :
    s = r.dimensions ∨ s.specificity r.dimensions = .gt := by
  obtain ⟨outlet, cylinder, tier, operation⟩ := s
  simp only [covers, Bool.and_eq_true] at h
  obtain ⟨⟨⟨houtlet, hcylinder⟩, htier⟩, hoperation⟩ := h
  -- The dimensions count one after the other, and the first that differs decides.
  unfold specificity Request.dimensions
  rcases eq_or_compare_isSome_eq_gt hoperation with rfl | hgt
  · rcases eq_or_compare_isSome_eq_gt htier with rfl | hgt
    · rcases eq_or_compare_isSome_eq_gt hcylinder with rfl | hgt
      · rcases eq_or_compare_isSome_eq_gt houtlet with rfl | hgt
        · exact .inl rfl
        · exact .inr (by simp [hgt])
      · exact .inr (by simp [hgt])
    · exact .inr (by simp [hgt])
  · exact .inr (by simp [hgt])

/-- What is in effect is active. -/
theorem Setting.active_of_isEffectiveAt {s : Setting} {t : Instant}
    (h : s.isEffectiveAt t = true) : s.active = true := by
  unfold isEffectiveAt at h
  simp only [Bool.and_eq_true] at h
  exact h.1.1

/-- **A setting in effect applies to the requests whose dimensions are its scope.** It is in the
running, so some setting applies. If that were another one, its scope would be as specific. Then it
would be the same scope, and there is only one active setting with a key and a scope. -/
theorem View.setting?_eq_some_of_exact {v : View} (hs : v.store.WellFormed)
    (hw : v.weights.isValid = true) {x : Setting} (hx : x ∈ v.store.settings.values)
    (heffective : x.isEffectiveAt v.now = true) {r : Request} (hr : r.dimensions = x.scope) :
    v.setting? x.key r = some x := by
  have hrunning : x.isRunningFor x.key r v.now = true :=
    Setting.isRunningFor_iff.2 ⟨rfl, heffective, Scope.covers_of_dimensions_eq hr⟩
  cases hfound : v.setting? x.key r with
  | none =>
    rw [(setting?_eq_none_iff hs hw _ _).1 hfound x hx] at hrunning
    cases hrunning
  | some y =>
    obtain ⟨hy, hyrunning, hbeats⟩ := of_setting?_eq_some hs hw hfound
    by_contra hne
    have hlt := hbeats x hx hrunning (fun h => hne (h ▸ rfl))
    obtain ⟨hykey, hyeffective, hycovers⟩ := Setting.isRunningFor_iff.1 hyrunning
    rcases Scope.eq_or_specificity_eq_gt hycovers with hscope | hgt
    · have hyx := hs.active_unique y hy x hx (Setting.active_of_isEffectiveAt hyeffective)
        (Setting.active_of_isEffectiveAt heffective) hykey (hscope.trans hr)
      exact hne (hyx ▸ rfl)
    · unfold Setting.precedence at hlt
      rw [← hr, hgt] at hlt
      cases hlt

/-! ## Every run -/

/-- **Of the settings in the running, the first in the lexicographic order applies**, and all
of them are explained in that order. So it is after every run of an engine whose weights
were accepted, whatever the weights are and whatever order the store has its rows in. -/
theorem setting?_run_first {config : EngineConfig} {e : Engine}
    (h : Engine.create config = .ok e) (calls : List Call) (key : String) (r : Request)
    (t : Instant) :
    (((e.run calls).view t).setting? key r = none
        ↔ ∀ s ∈ (e.run calls).store.settings.values, s.isRunningFor key r t = false)
      ∧ (∀ s, ((e.run calls).view t).setting? key r = some s →
        s ∈ (e.run calls).store.settings.values ∧ s.isRunningFor key r t = true
          ∧ ∀ s' ∈ (e.run calls).store.settings.values, s'.isRunningFor key r t = true →
            s' ≠ s → s.precedence s' = .lt)
      ∧ (∃ ranked : List Setting,
        ((e.run calls).view t).explain key r
            = ranked.map (Candidate.ofSetting config.weights)
          ∧ ranked.Perm ((e.run calls).store.settings.values.filter fun s =>
            s.isRunningFor key r t)
          ∧ (ranked.Pairwise fun a b => a.precedence b = .lt)
          ∧ ((e.run calls).view t).setting? key r = ranked.head?)
      ∧ ∀ s, (e.run calls).store.Reordering s →
        { (e.run calls).view t with store := s }.setting? key r
            = ((e.run calls).view t).setting? key r
          ∧ { (e.run calls).view t with store := s }.explain key r
            = ((e.run calls).view t).explain key r := by
  have hs : ((e.run calls).view t).store.WellFormed := Engine.wellFormed_run h calls
  have hconfig : (e.run calls).config = config := by
    rw [Engine.run_config, (Engine.create_eq_ok_iff.1 h).2]
  have hw : ((e.run calls).view t).weights.isValid = true := Engine.isValid_weights_run h calls
  refine ⟨View.setting?_eq_none_iff hs hw key r, fun s => View.of_setting?_eq_some hs hw, ?_, ?_⟩
  · refine ⟨Setting.ranked (((e.run calls).view t).running key r), ?_, Setting.ranked_perm _,
      Setting.pairwise_ranked (View.nodup_map_running hs key r),
      View.setting?_eq_head?_ranked hs hw key r⟩
    rw [View.explain_eq_map_ranked hs hw]
    show _ = List.map (Candidate.ofSetting config.weights) _
    rw [← hconfig]
    rfl
  · intro s hperm
    exact View.eq_of_reordering hs hw hperm key r

/-- A setting for an outlet applies there before one of higher priority for all outlets. Priority
counts only where the scopes are equally specific. -/
theorem setting?_run_first_outlet :
    Engine.create {} = .ok Engine.initial
      ∧ ∃ e, e = Engine.initial.run
          [.setSetting "a" (.boolean true) { priority := 5, author := ⟨"ann", none⟩ } (.number 1),
          .setSetting "a" (.boolean false)
            { scope := { outletId := some 7 }, author := ⟨"ann", none⟩ } (.number 2)]
        ∧ ∃ s, (e.view ⟨3⟩).setting? "a" { outletId := some 7 } = some s ∧ s.priority = 0
          ∧ ∀ s' ∈ e.store.settings.values, s'.isRunningFor "a" { outletId := some 7 } ⟨3⟩ = true →
            s' ≠ s → s.precedence s' = .lt := by
  refine ⟨rfl, _, rfl, ?_⟩
  generalize he : Engine.initial.run _ = e
  obtain ⟨hnone, hfirst, -, -⟩ := setting?_run_first Engine.create_initial
    [.setSetting "a" (.boolean true) { priority := 5, author := ⟨"ann", none⟩ } (.number 1),
      .setSetting "a" (.boolean false)
        { scope := { outletId := some 7 }, author := ⟨"ann", none⟩ } (.number 2)]
    "a" { outletId := some 7 } ⟨3⟩
  rw [he] at hnone hfirst
  have hone : ∃ s ∈ e.store.settings.values,
      s.isRunningFor "a" { outletId := some 7 } ⟨3⟩ = true := by
    subst he
    decide
  have hother : ∀ s ∈ e.store.settings.values, s.priority ≠ 0 → ∃ s' ∈ e.store.settings.values,
      s'.isRunningFor "a" { outletId := some 7 } ⟨3⟩ = true ∧ s'.priority = 0
        ∧ s.precedence s' ≠ .lt := by
    subst he
    decide
  cases hs : (e.view ⟨3⟩).setting? "a" { outletId := some 7 } with
  | none =>
    obtain ⟨s, hmem, hrunning⟩ := hone
    rw [hnone.1 hs s hmem] at hrunning
    cases hrunning
  | some s =>
    obtain ⟨hmem, -, hbeats⟩ := hfirst s hs
    refine ⟨s, rfl, ?_, hbeats⟩
    by_contra hpriority
    obtain ⟨s', hmem', hrunning', hzero, hnot⟩ := hother s hmem hpriority
    exact hnot (hbeats s' hmem' hrunning' (fun h => hpriority (h ▸ hzero)))

end Tariff
