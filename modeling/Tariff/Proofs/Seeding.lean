import Mathlib.Data.List.Induction
import Tariff.Proofs.Enumeration

/-!
# What a seed goes through

A seed has three loops, over categories, settings and rules. They are alike: an entry is
written, or left out because it is not needed, or it fails and the seed is over. A seed
succeeds if no entry fails, and of each loop there is then a relation between the engine
before and the engine afterwards (`Engine.Wrote`). It grows by one entry at the end, as the
loop does, so that what becomes of the engine is shown by induction on the entries that are
done.

Each entry has its number in the seed, and with it the occasion on which it is written. The
numbers of the entries that are still to come stand for identifiers that are still fresh
(`Engine.Fresh`), and a loop leaves them so (`Wrote.fresh`).
-/

namespace Tariff

namespace Engine

variable {α : Type} {occasion : Nat → Occasion}
  {write : α → Engine → Occasion → Except Error (Option Engine)} {e e' : Engine} {n k : Nat}
  {entries : List α}

/-- **Entries are gone through without an error**, one after the other: the first of them has the
number `n`, and this is how many of them were written and what the engine is afterwards. The entries
that are done grow at the end, so that induction on this goes the way of the loop. -/
inductive Wrote (occasion : Nat → Occasion)
    (write : α → Engine → Occasion → Except Error (Option Engine)) (e : Engine) (n : Nat) :
    (done : List α) → (count : Nat) → Engine → Prop
  | nil : Wrote occasion write e n [] 0 e
  | skip {done : List α} {count : Nat} {e₁ : Engine} {a : α}
      (before : Wrote occasion write e n done count e₁)
      (h : write a e₁ (occasion (n + done.length)) = .ok none) :
      Wrote occasion write e n (done ++ [a]) count e₁
  | write {done : List α} {count : Nat} {e₁ e₂ : Engine} {a : α}
      (before : Wrote occasion write e n done count e₁)
      (h : write a e₁ (occasion (n + done.length)) = .ok (some e₂)) :
      Wrote occasion write e n (done ++ [a]) (count + 1) e₂

/-! ## Loops that succeed

The code goes through the entries with a fold that carries an error along. A fold that has none in
the end has had none before, and then it is the same as the relation above. -/

namespace Seeding

variable {s : Seeding} {count : SeedReport → SeedReport}

/-- An entry that is not needed takes its number, and changes nothing else. -/
theorem next_of_ok_none {write : Engine → Occasion → Except Error (Option Engine)}
    (hs : s.error = none) (h : write s.engine (occasion s.entries) = .ok none) :
    s.next occasion count write = { s with entries := s.entries + 1 } := by
  unfold next
  rw [hs, h]
  rfl

/-- One that is written is counted, and the engine is what it has written. -/
theorem next_of_ok_some {write : Engine → Occasion → Except Error (Option Engine)}
    (hs : s.error = none) (h : write s.engine (occasion s.entries) = .ok (some e')) :
    s.next occasion count write
      = { s with engine := e', report := count s.report, entries := s.entries + 1 } := by
  unfold next
  rw [hs, h]
  rfl

/-- **An entry without an error** comes after entries without one, and its writing succeeds. -/
theorem ok_of_error_next {write : Engine → Occasion → Except Error (Option Engine)}
    (h : (s.next occasion count write).error = none) :
    s.error = none ∧ ∃ result, write s.engine (occasion s.entries) = .ok result := by
  unfold next at h
  cases herror : s.error with
  | some x =>
    rw [herror] at h
    exact absurd (herror.symm.trans h) nofun
  | none =>
    rw [herror] at h
    cases hwrite : write s.engine (occasion s.entries) with
    | error x =>
      rw [hwrite] at h
      cases h
    | ok result => exact ⟨rfl, result, rfl⟩

/-- Goes through entries of one kind. The seed does so three times, with another `write`
each time. -/
def goThrough (s : Seeding) (occasion : Nat → Occasion) (count : SeedReport → SeedReport)
    (write : α → Engine → Occasion → Except Error (Option Engine)) (entries : List α) : Seeding :=
  entries.foldl (fun s a => s.next occasion count (write a)) s

/-- One entry more is gone through last. -/
theorem goThrough_concat (entries : List α) (a : α) :
    s.goThrough occasion count write (entries ++ [a])
      = (s.goThrough occasion count write entries).next occasion count (write a) := by
  unfold goThrough
  rw [List.foldl_append]
  rfl

/-- A loop that ends without an error has begun without one, since an error is never dropped. -/
theorem error_of_goThrough (h : (s.goThrough occasion count write entries).error = none) :
    s.error = none := by
  induction entries using List.reverseRecOn with
  | nil => exact h
  | append_singleton done a ih =>
    rw [goThrough_concat] at h
    exact ih (ok_of_error_next h).1

/-- **What a loop without an error has gone through**: all of its entries. -/
theorem exists_wrote_engine (h : (s.goThrough occasion count write entries).error = none) :
    (s.goThrough occasion count write entries).entries = s.entries + entries.length
      ∧ ∃ k, Wrote occasion write s.engine s.entries entries k
        (s.goThrough occasion count write entries).engine := by
  induction entries using List.reverseRecOn with
  | nil => exact ⟨rfl, 0, .nil⟩
  | append_singleton done a ih =>
    rw [goThrough_concat] at h ⊢
    obtain ⟨hdone, result, hwrite⟩ := ok_of_error_next h
    obtain ⟨hentries, k, hbefore⟩ := ih hdone
    rw [List.length_append, List.length_singleton, ← Nat.add_assoc, ← hentries]
    cases result with
    | none =>
      rw [next_of_ok_none hdone hwrite]
      rw [hentries] at hwrite
      exact ⟨rfl, k, hbefore.skip hwrite⟩
    | some e₁ =>
      rw [next_of_ok_some hdone hwrite]
      rw [hentries] at hwrite
      exact ⟨rfl, k + 1, hbefore.write hwrite⟩

variable {report : Nat → SeedReport} (hcount : ∀ k, count (report k) = report (k + 1))
include hcount

/-- **A loop whose entries succeed** ends with them, with no error, and has counted them. -/
theorem goThrough_eq_of_wrote (h : Wrote occasion write e n entries k e') :
    (Seeding.mk e (report 0) n none).goThrough occasion count write entries
      = ⟨e', report k, n + entries.length, none⟩ := by
  induction h with
  | nil => rfl
  | skip before h ih =>
    rw [goThrough_concat, ih, next_of_ok_none rfl h, List.length_append]
    rfl
  | write before h ih =>
    rw [goThrough_concat, ih, next_of_ok_some rfl h, List.length_append, hcount]
    rfl

/-- **In a loop without an error the entries succeed.** -/
theorem exists_wrote_of_goThrough
    (h : ((Seeding.mk e (report 0) n none).goThrough occasion count write entries).error = none) :
    ∃ k e', Wrote occasion write e n entries k e'
      ∧ (Seeding.mk e (report 0) n none).goThrough occasion count write entries
        = ⟨e', report k, n + entries.length, none⟩ := by
  obtain ⟨-, k, hwrote⟩ := exists_wrote_engine h
  exact ⟨k, _, hwrote, goThrough_eq_of_wrote hcount hwrote⟩

end Seeding

/-- **A seed succeeds** where its categories, then its settings and then its rules do. The report
counts those written, and in the end the cache is cleared. The list of rules that drafts may replace
is read once, when the settings are done, and this is why `e₂` is in the third loop twice. -/
theorem seed_eq_ok_iff {settings : Seed.Settings} {rules : Seed.Rules} {report : SeedReport} :
    e.seed settings rules occasion = (.ok report, e')
      ↔ ∃ e₁ e₂ e₃,
        Wrote occasion seedCategory e 0 settings.categories report.categories e₁
        ∧ Wrote occasion seedSetting e₁ settings.categories.length settings.settings
          report.settings e₂
        ∧ Wrote occasion (seedRule e₂.store.allRules) e₂
          (settings.categories.length + settings.settings.length) rules.rules report.rules e₃
        ∧ e' = e₃.clearCache := by
  -- The three loops, each of which goes on where the one before it has ended.
  let countCategory (r : SeedReport) : SeedReport := { r with categories := r.categories + 1 }
  let countSetting (r : SeedReport) : SeedReport := { r with settings := r.settings + 1 }
  let countRule (r : SeedReport) : SeedReport := { r with rules := r.rules + 1 }
  have hcount₁ (c : Nat) : countCategory ⟨c, 0, 0⟩ = ⟨c + 1, 0, 0⟩ := rfl
  have hcount₂ (c m : Nat) : countSetting ⟨c, m, 0⟩ = ⟨c, m + 1, 0⟩ := rfl
  have hcount₃ (c m k : Nat) : countRule ⟨c, m, k⟩ = ⟨c, m, k + 1⟩ := rfl
  have hrun : ∃ s₁ s₂ s₃,
      s₁ = (Seeding.mk e {} 0 none).goThrough occasion countCategory seedCategory
        settings.categories
      ∧ s₂ = s₁.goThrough occasion countSetting seedSetting settings.settings
      ∧ s₃ = s₂.goThrough occasion countRule (seedRule s₂.engine.store.allRules) rules.rules
      ∧ e.runSeed settings rules occasion = s₃ := ⟨_, _, _, rfl, rfl, rfl, rfl⟩
  obtain ⟨s₁, s₂, s₃, hs₁, hs₂, hs₃, hrun⟩ := hrun
  unfold seed
  rw [hrun]
  constructor
  · intro h
    have herror₃ : s₃.error = none := by
      dsimp only at h
      split at h
      · cases h
      · assumption
    have herror₂ : s₂.error = none := Seeding.error_of_goThrough (hs₃ ▸ herror₃)
    have herror₁ : s₁.error = none := Seeding.error_of_goThrough (hs₂ ▸ herror₂)
    obtain ⟨c, e₁, hcategories, hdone₁⟩ := Seeding.exists_wrote_of_goThrough hcount₁
      (hs₁ ▸ herror₁)
    rw [hdone₁] at hs₁
    subst hs₁
    obtain ⟨m, e₂, hsettings, hdone₂⟩ := Seeding.exists_wrote_of_goThrough (hcount₂ c)
      (hs₂ ▸ herror₂)
    rw [hdone₂] at hs₂
    subst hs₂
    obtain ⟨k, e₃, hrules, hdone₃⟩ := Seeding.exists_wrote_of_goThrough (hcount₃ c m)
      (hs₃ ▸ herror₃)
    rw [hdone₃] at hs₃
    subst hs₃
    cases h
    rw [Nat.zero_add] at hsettings hrules
    exact ⟨e₁, e₂, e₃, hcategories, hsettings, hrules, rfl⟩
  · rintro ⟨e₁, e₂, e₃, hcategories, hsettings, hrules, rfl⟩
    have hdone₁ := Seeding.goThrough_eq_of_wrote hcount₁ hcategories
    rw [← hs₁, Nat.zero_add] at hdone₁
    have hdone₂ := Seeding.goThrough_eq_of_wrote (hcount₂ report.categories) hsettings
    rw [← hdone₁, ← hs₂] at hdone₂
    have hdone₃ := Seeding.goThrough_eq_of_wrote (hcount₃ report.categories report.settings)
      hrules
    subst hdone₂
    rw [← hs₃] at hdone₃
    rw [hdone₃]

/-- A seed that reports has ended without an error. -/
theorem seed_eq_of_toOption {settings : Seed.Settings} {rules : Seed.Rules} {report : SeedReport}
    (h : (e.seed settings rules occasion).1.toOption = some report) :
    e.seed settings rules occasion = (.ok report, (e.seed settings rules occasion).2) := by
  refine Prod.ext ?_ rfl
  cases hresult : (e.seed settings rules occasion).1 with
  | error x =>
    rw [hresult] at h
    cases h
  | ok found =>
    rw [hresult] at h
    cases h
    rfl

/-! ## The entries one by one

This is what can be said of a loop without knowing what its entries write. -/

/-- **Entries can be gone through** if each can be, where those before it have been. It is how a
loop is shown to succeed, and not only what follows if it does. -/
theorem exists_wrote (h : ∀ done a rest k e₁, entries = done ++ a :: rest →
      Wrote occasion write e n done k e₁ →
      ∃ result, write a e₁ (occasion (n + done.length)) = .ok result) :
    ∃ k e', Wrote occasion write e n entries k e' := by
  induction entries using List.reverseRecOn with
  | nil => exact ⟨0, e, .nil⟩
  | append_singleton done a ih =>
    obtain ⟨k, e₁, hdone⟩ := ih fun before b rest k e₁ hsplit =>
      h before b (rest ++ [a]) k e₁ (by rw [hsplit, List.append_assoc, List.cons_append])
    obtain ⟨result, hwrite⟩ := h done a [] k e₁ rfl hdone
    cases result with
    | none => exact ⟨k, e₁, hdone.skip hwrite⟩
    | some e₂ => exact ⟨k + 1, e₂, hdone.write hwrite⟩

namespace Wrote

/-- Before the last entry there were the others. -/
theorem exists_of_concat {a : α} (h : Wrote occasion write e n (entries ++ [a]) k e') :
    ∃ count e₁ result, Wrote occasion write e n entries count e₁
      ∧ write a e₁ (occasion (n + entries.length)) = .ok result := by
  generalize hl : entries ++ [a] = l at h
  cases h with
  | nil => exact absurd hl (List.append_ne_nil_of_right_ne_nil _ (List.cons_ne_nil _ _))
  | skip before h =>
    obtain ⟨rfl, hlast⟩ := List.append_inj' hl rfl
    cases hlast
    exact ⟨_, _, _, before, h⟩
  | write before h =>
    obtain ⟨rfl, hlast⟩ := List.append_inj' hl rfl
    cases hlast
    exact ⟨_, _, _, before, h⟩

/-- **Each entry that was gone through has succeeded**, after those before it. -/
theorem exists_of_mem (h : Wrote occasion write e n entries k e') {a : α} (ha : a ∈ entries) :
    ∃ done rest count e₁ result, entries = done ++ a :: rest
      ∧ Wrote occasion write e n done count e₁
      ∧ write a e₁ (occasion (n + done.length)) = .ok result := by
  induction entries using List.reverseRecOn generalizing k e' with
  | nil => cases ha
  | append_singleton before b ih =>
    obtain ⟨count, e₁, result, hbefore, hlast⟩ := h.exists_of_concat
    rcases List.mem_append.1 ha with ha | ha
    · obtain ⟨done, rest, count, e₁, result, rfl, hdone, hok⟩ := ih hbefore ha
      exact ⟨done, rest ++ [b], count, e₁, result, List.append_assoc _ _ _, hdone, hok⟩
    · rw [List.mem_singleton.1 ha]
      exact ⟨before, [], count, e₁, result, rfl, hbefore, hlast⟩

variable (h : Wrote occasion write e n entries k e')
include h

/-- **Where no entry is left out, all are written.** This is so for settings and rules, but not for
categories. -/
theorem count_eq (hwrite : ∀ a e o, write a e o ≠ .ok none) : k = entries.length := by
  induction h with
  | nil => rfl
  | skip before h ih => exact absurd h (hwrite _ _ _)
  | write before h ih =>
    rw [ih, List.length_append]
    rfl

variable (hwrite : ∀ a e₁ o e₂, write a e₁ o = .ok (some e₂) →
  ∃ ids, Step e₁ ids [] e₂ ∧ ids.Sublist [o.rowId])
include hwrite

/-- **If what an entry writes is one step, the loop is a path**, with identifiers of its entries.
The three lemmas here are all that is needed of the loops in general: what holds along paths holds
across them. -/
theorem path : ∃ ids, Path e ids [] e'
    ∧ ids.Sublist ((List.range' n entries.length).map fun i => (occasion i).rowId) := by
  induction h with
  | nil => exact ⟨[], .refl, List.nil_sublist _⟩
  | skip before h ih =>
    obtain ⟨ids, hpath, hids⟩ := ih
    rw [List.length_append, List.length_singleton, List.range'_1_concat, List.map_append]
    exact ⟨ids, hpath, hids.trans (List.sublist_append_left _ _)⟩
  | write before h ih =>
    obtain ⟨ids, hpath, hids⟩ := ih
    obtain ⟨ids', hstep, hids'⟩ := hwrite _ _ _ _ h
    rw [List.length_append, List.length_singleton, List.range'_1_concat, List.map_append]
    exact ⟨ids ++ ids', hpath.step hstep, hids.append hids'⟩

/-- So the store is well formed afterwards if it was before. -/
theorem wellFormed (he : e.store.WellFormed) : e'.store.WellFormed := by
  obtain ⟨ids, hpath, -⟩ := h.path hwrite
  exact hpath.wellFormed he

theorem config_eq : e'.config = e.config := by
  induction h with
  | nil => rfl
  | skip before h ih => exact ih
  | write before h ih =>
    obtain ⟨ids, hstep, -⟩ := hwrite _ _ _ _ h
    exact hstep.config_eq.trans ih

end Wrote

/-! ## Identifiers that are still to come

An entry that creates a row draws an identifier, and it has to be one that no row has. Those that
are drawn before it must not have used it up. -/

/-- **The identifiers of the entries from one number up to another are fresh**: no two of them are
the same, and none is in use. Those of entries that are done have been used, or may have been. -/
structure Fresh (e : Engine) (occasion : Nat → Occasion) (n bound : Nat) : Prop where
  distinct : ∀ i j, n ≤ i → i < j → j < bound → (occasion i).rowId ≠ (occasion j).rowId
  unused : ∀ i, n ≤ i → i < bound → e.Unused (occasion i).rowId

/-- Identifiers that are given out once are distinct. -/
theorem rowId_ne_of_nodup_drawn {bound : Nat} (h : (drawn occasion bound).Nodup) {i j : Nat}
    (hij : i < j) (hj : j < bound) : (occasion i).rowId ≠ (occasion j).rowId := by
  intro heq
  have hi : i ∈ List.range bound := List.mem_range.2 (Nat.lt_trans hij hj)
  have hsame := List.inj_on_of_nodup_map h hi (List.mem_range.2 hj) heq
  omega

namespace Fresh

variable {bound : Nat}

/-- Identifiers that are given out once, and are unused, are fresh. -/
theorem of_nodup (h : (drawn occasion bound).Nodup)
    (hunused : ∀ i < bound, e.Unused (occasion i).rowId) : e.Fresh occasion 0 bound where
  distinct _ _ _ hij hj := rowId_ne_of_nodup_drawn h hij hj
  unused i _ hi := hunused i hi

/-- Fewer of them are fresh, too. -/
theorem mono (h : e.Fresh occasion n bound) {m bound' : Nat} (hm : n ≤ m) (hle : bound' ≤ bound) :
    e.Fresh occasion m bound' where
  distinct i j hi hij hj :=
    h.distinct i j (Nat.le_trans hm hi) hij (Nat.lt_of_lt_of_le hj hle)
  unused i hi hlt := h.unused i (Nat.le_trans hm hi) (Nat.lt_of_lt_of_le hlt hle)

end Fresh

/-- **A seed of an engine that calls have made** has fresh identifiers, if none is given out twice:
what it draws has not been drawn by the calls, so it is unused. -/
theorem Reaches.fresh {config : EngineConfig} {ids : List Uuid} (hreach : e.Reaches ids e')
    (h : Engine.create config = .ok e) {settings : Seed.Settings} {rules : Seed.Rules}
    (hids : (ids ++ (Call.seed settings rules occasion).rowIds).Nodup) :
    e'.Fresh occasion 0 (Call.entryCount settings rules) := by
  obtain ⟨-, hseed, hdisjoint⟩ := List.nodup_append.1 hids
  refine .of_nodup hseed fun i hi => hreach.unused h fun hmem => ?_
  exact hdisjoint _ hmem _ (List.mem_map_of_mem (List.mem_range.2 hi)) rfl

/-- **A seed after a run** has fresh identifiers, if none is given out twice. -/
theorem fresh_run {config : EngineConfig} (h : Engine.create config = .ok e) (calls : List Call)
    {settings : Seed.Settings} {rules : Seed.Rules}
    (hids : ((calls ++ [Call.seed settings rules occasion]).flatMap Call.rowIds).Nodup) :
    (e.run calls).Fresh occasion 0 (Call.entryCount settings rules) := by
  rw [List.flatMap_append, List.flatMap_singleton] at hids
  exact (e.reaches_run calls).fresh h hids

/-- **A loop leaves fresh what is still to come.** It draws identifiers of its own entries only, and
the others are distinct from these. -/
theorem Wrote.fresh (h : Wrote occasion write e n entries k e')
    (hwrite : ∀ a e₁ o e₂, write a e₁ o = .ok (some e₂) →
      ∃ ids, Step e₁ ids [] e₂ ∧ ids.Sublist [o.rowId])
    (he : e.store.WellFormed) {bound : Nat} (hfresh : e.Fresh occasion n bound) :
    e'.Fresh occasion (n + entries.length) bound := by
  obtain ⟨ids, hpath, hids⟩ := h.path hwrite
  refine ⟨(hfresh.mono (Nat.le_add_right _ _) (Nat.le_refl _)).distinct, fun i hi hlt => ?_⟩
  refine hpath.unused he (hfresh.unused i (Nat.le_of_add_right_le hi) hlt) fun hdrawn => ?_
  -- What was drawn is the identifier of an entry that is done.
  obtain ⟨j, hj, heq⟩ := List.mem_map.1 (hids.subset hdrawn)
  obtain ⟨hle, hjlt⟩ := List.mem_range'_1.1 hj
  exact hfresh.distinct j i hle (by omega) hlt heq

end Engine

end Tariff
