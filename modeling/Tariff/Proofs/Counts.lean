import Mathlib.Algebra.BigOperators.Group.List.Lemmas
import Mathlib.Data.Finset.Card
import Tariff.Proofs.Coherence
import Tariff.Proofs.Enumeration
import Tariff.Proofs.Integrity

/-!
# Statistics add up

Statistics are counted in passing, each number on its own. What each of them counts is one
question, and `Statistics.AddsUp` answers it number by number: so many of the accepted settings
are active, so many effective, and so many stand under each level and under each category. That
the numbers fit together is another, and is of two kinds.

Counts by name are a division of the whole: every setting that is counted is counted under one
level and under one category, so both times the counts add up to the number of settings. This
needs no more than that each name is there once and has its own count
(`Statistics.IsCountOf.sum`), and it is true of whatever is stored.

That the active settings are the effective, the scheduled and the expired ones among them is not.
A setting whose window ended before it began would be both scheduled and expired in between, and
be counted twice. **One setting stands in one of the three states** if its window has an instant
in it (`Setting.count_standing`), which is a matter of what may be stored
(`Engine.settingsInOrder_run`). Likewise the audit log has a record for each setting and rule that
was changed because each call adds so many; over a run they are added up (`Engine.changesIn`).
-/

namespace Tariff

/-! ## Counts by name

The same counting is used for scope levels and for categories. Nothing in this section knows what is
counted. -/

namespace Statistics

/-- **A count of some texts**: every text that occurs is there once, with how often it occurs, and
nothing else is. This fixes the count but for its order, so that nothing need be said of the
sorting by which it is made. -/
structure IsCountOf (counts : List (String × Nat)) (texts : List String) : Prop where
  names_nodup : (counts.map Prod.fst).Nodup
  mem_iff : ∀ name n, (name, n) ∈ counts ↔ 0 < n ∧ texts.count name = n

/-- The texts may be counted in any order. -/
theorem IsCountOf.of_perm {counts : List (String × Nat)} {texts texts' : List String}
    (h : IsCountOf counts texts) (hperm : texts.Perm texts') : IsCountOf counts texts' where
  names_nodup := h.names_nodup
  mem_iff := fun name n => by rw [h.mem_iff, hperm.count_eq]

/-- **The counts add up to the whole**, since the names are the texts without repetition, and every
text is counted under its own name. -/
theorem IsCountOf.sum {counts : List (String × Nat)} {texts : List String}
    (h : IsCountOf counts texts) : (counts.map Prod.snd).sum = texts.length := by
  have hnames : (counts.map Prod.fst).Perm texts.dedup := by
    refine (List.perm_ext_iff_of_nodup h.names_nodup texts.nodup_dedup).2 fun name => ?_
    rw [List.mem_dedup, List.mem_map]
    constructor
    · rintro ⟨⟨_, n⟩, hmem, rfl⟩
      obtain ⟨hpos, hcount⟩ := (h.mem_iff _ n).1 hmem
      exact List.count_pos_iff.1 (hcount ▸ hpos)
    · exact fun hname => ⟨_, (h.mem_iff name _).2 ⟨List.count_pos_iff.2 hname, rfl⟩, rfl⟩
  have hcounts : counts.map Prod.snd = (counts.map Prod.fst).map fun name => texts.count name := by
    rw [List.map_map]
    exact List.map_congr_left fun _ hmem => ((h.mem_iff _ _).1 hmem).2.symm
  rw [hcounts, (hnames.map _).sum_eq]
  exact List.sum_map_count_dedup_eq_length texts

/-- **Counting each text is a count of the texts.** -/
theorem isCountOf_countEach (texts : List String) : IsCountOf (countEach texts) texts where
  names_nodup := by
    unfold countEach
    rw [List.map_map]
    exact (List.map_id _).symm ▸ Text.nodup_sortDistinct texts
  mem_iff := fun name n => by
    unfold countEach
    rw [List.mem_map]
    constructor
    · rintro ⟨_, hmem, h⟩
      cases h
      exact ⟨List.count_pos_iff.2 ((Text.mem_sortDistinct _ _).1 hmem), rfl⟩
    · rintro ⟨hpos, rfl⟩
      exact ⟨name, (Text.mem_sortDistinct _ _).2 (List.count_pos_iff.1 hpos), rfl⟩

theorem length_eraseDups (texts : List String) :
    texts.eraseDups.length = texts.toFinset.card := by
  rw [← List.toFinset_card_of_nodup (Text.nodup_eraseDups texts)]
  congr 1
  ext s
  simp

end Statistics

/-! ## The state of a setting

The three states are told apart by the window of a setting. That no two of them overlap is where the
check of the window, at the time of writing, comes in. -/

namespace Setting

variable {x : Setting}

/-- **An active setting is effective, scheduled or expired**, and only one of them, if its window
has an instant in it. It is scheduled before the window, effective in it, and expired after it. In a
window that ended before it began it would be both scheduled and expired in between. -/
theorem count_standing (hactive : x.active = true)
    (hopen : ∀ stop, x.expiryDate = some stop → x.effectiveDate < stop) (t : Instant) :
    [x.isEffectiveAt t, x.isScheduledAt t, x.isExpiredAt t].count true = 1 := by
  have hbegin : t < x.effectiveDate ↔ ¬x.effectiveDate ≤ t := Int.not_le.symm
  unfold isEffectiveAt isScheduledAt isExpiredAt
  simp only [hactive, hbegin]
  cases hx : x.expiryDate with
  | none => by_cases hbegun : x.effectiveDate ≤ t <;> simp [hbegun]
  | some stop =>
    have hend : t < stop ↔ ¬stop ≤ t := Int.not_le.symm
    have hlater : stop ≤ t → x.effectiveDate ≤ t := by
      have := hopen stop hx
      simp only [Instant.le_iff, Instant.lt_iff] at this ⊢
      omega
    by_cases hended : stop ≤ t
    · simp [hend, hended, hlater hended]
    · by_cases hbegun : x.effectiveDate ≤ t <;> simp [hend, hended, hbegun]

/-- An inactive setting is neither effective nor scheduled. -/
theorem isEffectiveAt_of_inactive (h : x.active = false) (t : Instant) :
    x.isEffectiveAt t = false := by
  unfold isEffectiveAt
  rw [h, Bool.false_and, Bool.false_and]

theorem isScheduledAt_of_inactive (h : x.active = false) (t : Instant) :
    x.isScheduledAt t = false := by
  unfold isScheduledAt
  rw [h, Bool.false_and]

/-- **The active settings are the effective, the scheduled and the expired ones** among them. -/
theorem countP_active {l : List Setting} {t : Instant} (h : ∀ x ∈ l, x.active = true →
      [x.isEffectiveAt t, x.isScheduledAt t, x.isExpiredAt t].count true = 1) :
    l.countP (·.active) = l.countP (·.isEffectiveAt t) + l.countP (·.isScheduledAt t)
      + l.countP fun x => x.active && x.isExpiredAt t := by
  induction l with
  | nil => rfl
  | cons x rest ih =>
    obtain ⟨hx, hrest⟩ := List.forall_mem_cons.1 h
    simp only [List.countP_cons]
    rw [ih hrest]
    cases hactive : x.active with
    | false =>
      rw [isEffectiveAt_of_inactive hactive, isScheduledAt_of_inactive hactive]
      simp
    | true =>
      have hone := hx hactive
      rw [Bool.true_and]
      revert hone
      cases x.isEffectiveAt t <;> cases x.isScheduledAt t <;> cases x.isExpiredAt t <;>
        simp <;> omega

end Setting

/-! ## What a run changes

This is about the log alone. A seed is one call that may change many settings and rules, and it is
counted with all of them. -/

namespace Engine

/-- **The number of settings and rules that a run changes**, one call after the other. What a call
changes depends on the engine that it finds, so it is counted along the run. -/
def changesIn (e : Engine) : List Call → Nat
  | [] => 0
  | c :: rest => e.changes c + (e.perform c).changesIn rest

/-- **A run adds one record for each setting and rule that it changes**, as each of its calls does;
a call that is refused changes nothing and adds none. -/
theorem adds_run (e : Engine) (calls : List Call) : e.Adds (e.run calls) (e.changesIn calls) := by
  induction calls generalizing e with
  | nil => exact .of_log_eq rfl
  | cons c rest ih => exact (e.adds_perform c).trans (ih (e.perform c))

/-- The log of a new engine counts what was changed, since it was empty at first and no record is
ever taken away. -/
theorem count_log_run {config : EngineConfig} {e : Engine} (h : Engine.create config = .ok e)
    (calls : List Call) : (e.run calls).log.count = e.changesIn calls := by
  obtain ⟨added, hrecords, hlength⟩ := e.adds_run calls
  obtain ⟨-, rfl⟩ := create_eq_ok_iff.1 h
  unfold AuditLog.count
  rw [hrecords, List.nil_append, hlength]

end Engine

/-! ## Statistics of an engine

The store of an engine after a run is well formed and its settings are in order; both are needed,
the first for the names of categories and the second for the states. -/

/-- **The settings that a filter accepts**, of those that are stored. -/
def Store.accepted (s : Store) (filter : Statistics.Filter) : List Setting :=
  s.settings.values.filter filter.accepts

/-- **The category that a setting is filed under**, by its name. It is looked up by its identifier,
and so does not depend on the list in which the categories are handed over to be counted. -/
def Store.categoryOf (s : Store) (x : Setting) : String :=
  ((x.categoryId.bind s.category?).map (·.name)).getD "uncategorised"

/-- Which is how a setting is named in a list of all categories, in any order. -/
theorem Store.WellFormed.categoryName_eq {s : Store} (hs : s.WellFormed)
    {categories : List Category} (h : categories.Perm s.categories.values) (x : Setting) :
    Statistics.categoryName categories x = s.categoryOf x := by
  unfold Statistics.categoryName Store.categoryOf Store.category?
  simp only [hs.categories_keyed.find?_of_perm h]

/-- **Statistics that add up**: they are of the settings in a store that a filter accepts, at the
instant `t`, and of a log of so many `changes`.

The first fields say what each number counts. The others say how the numbers fit together, and of
these only `standing` is about the store rather than about counting. -/
structure Statistics.AddsUp (s : Statistics) (store : Store) (filter : Filter) (t : Instant)
    (changes : Nat) : Prop where
  settings : s.settings = (store.accepted filter).length
  actives : s.active = (store.accepted filter).countP (·.active)
  effective : s.effective = (store.accepted filter).countP (·.isEffectiveAt t)
  scheduled : s.scheduled = (store.accepted filter).countP (·.isScheduledAt t)
  expired : s.expired = (store.accepted filter).countP (·.isExpiredAt t)
  distinctKeys : s.distinctKeys = ((store.accepted filter).map (·.key)).toFinset.card
  /-- The counts by level have an entry for each level of an accepted setting. -/
  levels : IsCountOf s.byScopeLevel ((store.accepted filter).map (·.scope.level))
  categories : IsCountOf s.byCategory ((store.accepted filter).map store.categoryOf)
  rules : s.rules = store.rules.values.length
  liveRules : s.liveRules = store.rules.values.countP (·.isLiveAt t)
  auditRecords : s.auditRecords = changes
  byScopeLevel : (s.byScopeLevel.map Prod.snd).sum = s.settings
  byCategory : (s.byCategory.map Prod.snd).sum = s.settings
  /-- Each active setting is one of effective, scheduled and expired, and no other of them. -/
  standing : ∀ x ∈ store.accepted filter, x.active = true →
    [x.isEffectiveAt t, x.isScheduledAt t, x.isExpiredAt t].count true = 1
  active : s.active = s.effective + s.scheduled
    + (store.accepted filter).countP fun x => x.active && x.isExpiredAt t

/-- **Statistics add up.** Take the statistics of an engine after any run, with any filter and at
any instant. Of the settings that are stored those are counted that the filter accepts: how many
they are, how many of them are active, effective, scheduled and expired, and how many there are for
each level and for each category. So the counts by level and those by category add up to their
number. Each active one is exactly one of effective, scheduled and expired, and so the active ones
are as many as the effective ones, the scheduled ones and the active expired ones together. Keys
are counted once each. And the log has as many records as settings and rules were changed.

The statistics list the rows before they count them, and the rows of a table come in no order that
could be relied on; every number here is of the rows in whatever order they stand. -/
theorem statistics_run_add_up {config : EngineConfig} {e : Engine}
    (h : Engine.create config = .ok e) (calls : List Call) (filter : Statistics.Filter)
    (t : Instant) :
    ((e.run calls).statistics filter t).AddsUp (e.run calls).store filter t
      (e.changesIn calls) := by
  have hinorder := Engine.settingsInOrder_run h calls
  have hcounted := Engine.count_log_run h calls
  have hwell := Engine.wellFormed_run h calls
  generalize e.run calls = e' at *
  have hperm : (e'.store.allSettings.filter filter.accepts).Perm (e'.store.accepted filter) :=
    e'.store.allSettings_perm.filter _
  have hstanding : ∀ x ∈ e'.store.accepted filter, x.active = true →
      [x.isEffectiveAt t, x.isScheduledAt t, x.isExpiredAt t].count true = 1 :=
    fun x hx hactive =>
      Setting.count_standing hactive (hinorder x (List.mem_of_mem_filter hx)).window_open t
  have hcategories : (e'.store.allSettings.filter filter.accepts).map
      (Statistics.categoryName e'.store.allCategories)
      = (e'.store.allSettings.filter filter.accepts).map e'.store.categoryOf :=
    List.map_congr_left fun x _ => hwell.categoryName_eq e'.store.allCategories_perm x
  constructor
  case settings => exact hperm.length_eq
  case actives => exact hperm.countP_eq _
  case effective => exact hperm.countP_eq _
  case scheduled => exact hperm.countP_eq _
  case expired => exact hperm.countP_eq _
  case distinctKeys =>
    have hkeys := List.toFinset_eq_of_perm _ _ (hperm.map Setting.key)
    exact (Statistics.length_eraseDups _).trans (congrArg Finset.card hkeys)
  case levels => exact (Statistics.isCountOf_countEach _).of_perm (hperm.map _)
  case categories =>
    refine .of_perm ?_ (hperm.map _)
    rw [← hcategories]
    exact Statistics.isCountOf_countEach _
  case rules => exact e'.store.allRules_perm.length_eq
  case liveRules => exact e'.store.allRules_perm.countP_eq _
  case auditRecords => exact hcounted
  case byScopeLevel => exact (Statistics.isCountOf_countEach _).sum.trans (List.length_map _)
  case byCategory => exact (Statistics.isCountOf_countEach _).sum.trans (List.length_map _)
  case standing => exact hstanding
  case active =>
    refine Eq.trans ?_ (congrArg (_ + ·) (hperm.countP_eq _))
    exact Setting.countP_active fun x hx => hstanding x (hperm.mem_iff.1 hx)

/-- Five calls change settings, and one of them is refused. Of the three settings that are stored
two are for an outlet; one of these has not begun at the fourth instant and the other has expired,
and they have one key. -/
theorem statistics_run_add_up_outlet : Engine.create {} = .ok Engine.initial
    ∧ ∃ e s, e = Engine.initial.run
        [.setSetting "a" (.boolean true) { author := ⟨"ann", none⟩ } (.number 1),
        .setSetting "b" (.boolean true)
          { scope := { outletId := some 7 }, effectiveDate := some ⟨9⟩, author := ⟨"ann", none⟩ }
          (.number 2),
        .setSetting "b" (.boolean false)
          { scope := { outletId := some 7, customerTier := some "gold" }, expiryDate := some ⟨4⟩
            author := ⟨"ann", none⟩ } (.number 3),
        .setSetting "b" (.boolean false) { author := ⟨"", none⟩ } (.number 4),
        .setSetting "a" (.boolean false) { author := ⟨"bob", none⟩ } (.number 5)]
      ∧ s = e.statistics { outletId := some 7 } ⟨4⟩
      ∧ s.AddsUp e.store { outletId := some 7 } ⟨4⟩ 4
      ∧ s.settings = 2 ∧ (s.byScopeLevel.map Prod.snd).sum = 2
      ∧ s.active = s.effective + s.scheduled + 1 ∧ s.distinctKeys = 1 := by
  have hadd := fun calls => statistics_run_add_up Engine.create_initial calls
    { outletId := some 7 } ⟨4⟩
  refine ⟨rfl, _, _, rfl, rfl, hadd _, ?_, ?_, ?_, ?_⟩
  · exact (hadd _).settings.trans (by decide +kernel)
  · exact (hadd _).byScopeLevel.trans ((hadd _).settings.trans (by decide +kernel))
  · refine (hadd _).active.trans (congrArg (_ + _ + ·) (?_ : _ = 1))
    decide +kernel
  · exact (hadd _).distinctKeys.trans (by decide +kernel)

end Tariff
