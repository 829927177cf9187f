import Mathlib.Data.List.Forall2
import Tariff.Proofs.Seeding
import Tariff.Proofs.StoredRules

/-!
# The rules of a seed

Nothing keeps the names of rules apart, in a file or in a store. A draft replaces the first rule
that has its name, of those that were stored when the settings were done, or else it becomes a
new rule. The list of those rules is read once. So a rule that a draft has created is not
replaced by a later draft of the same name, and two drafts of one name that is new become two
rules; while two drafts of a name that was there are both written to the same rule, the second
over the first.

What the loop makes of the stored rules can therefore be said of each rule by itself
(`Seed.draftAfter`): the first rule of its name has what is in the last draft of that name, and
all others have what they had. After them come the rules of the drafts with new names, in their
order (`Engine.RulesSeeded`).
-/

namespace Tariff

namespace Seed

variable {existing : List Rule} {drafts : List Draft} {draft : Draft} {rule : Rule}

/-- The rule that is replaced by a draft of a name: the first of its name, in the list that the seed
has read. Which of several rules of a name this is depends on how the list is ordered. -/
def replaced? (existing : List Rule) (name : String) : Option Rule :=
  existing.find? fun rule => rule.name = name

/-- It is one of the list, and has the name. -/
theorem mem_of_replaced? {name : String} (h : replaced? existing name = some rule) :
    rule ∈ existing ∧ rule.name = name := by
  have hname := List.find?_some h
  exact ⟨List.mem_of_find?_eq_some h, by simpa using hname⟩

/-- The last draft of a name, in the order of the file. -/
def lastNamed (drafts : List Draft) (name : String) : Option Draft :=
  (drafts.filter fun draft => draft.name = name).getLast?

/-- A draft that is added is the last one of its name. -/
theorem lastNamed_concat (drafts : List Draft) (draft : Draft) (name : String) :
    lastNamed (drafts ++ [draft]) name
      = if draft.name = name then some draft else lastNamed drafts name := by
  unfold lastNamed
  rw [List.filter_append, List.getLast?_append]
  by_cases h : draft.name = name <;> simp [h]

/-- The last draft of a name is a draft of that name. -/
theorem mem_of_lastNamed {name : String} (h : lastNamed drafts name = some draft) :
    draft ∈ drafts ∧ draft.name = name := by
  have hmem := List.mem_filter.1 (List.mem_of_getLast? h)
  exact ⟨hmem.1, by simpa using hmem.2⟩

theorem exists_lastNamed_of_mem (h : draft ∈ drafts) :
    ∃ last, lastNamed drafts draft.name = some last := by
  have hmem : draft ∈ drafts.filter fun d => d.name = draft.name :=
    List.mem_filter.2 ⟨h, by simp⟩
  exact ⟨_, List.getLast?_eq_some_getLast (List.ne_nil_of_mem hmem)⟩

/-- **What is in a stored rule after a seed.** A rule is told from others by its identifier, as
there may be others with its name. -/
def draftAfter (existing : List Rule) (drafts : List Draft) (rule : Rule) : Draft :=
  if (replaced? existing rule.name).map Rule.id = some rule.id then
    (lastNamed drafts rule.name).getD rule.toDraft
  else rule.toDraft

theorem draftAfter_nil (existing : List Rule) (rule : Rule) :
    draftAfter existing [] rule = rule.toDraft := ite_self _

/-- **One more draft** changes the rule that it replaces. -/
theorem draftAfter_concat (existing : List Rule) (drafts : List Draft) (draft : Draft)
    (rule : Rule) :
    draftAfter existing (drafts ++ [draft]) rule
      = if rule.name = draft.name ∧ (replaced? existing draft.name).map Rule.id = some rule.id
        then draft else draftAfter existing drafts rule := by
  unfold draftAfter
  rw [lastNamed_concat]
  by_cases hname : rule.name = draft.name
  · rw [hname, if_pos rfl]
    split <;> simp_all
  · have hother : ¬(rule.name = draft.name
        ∧ (replaced? existing draft.name).map Rule.id = some rule.id) := fun h => hname h.1
    rw [if_neg (Ne.symm hname), if_neg hother]

end Seed

namespace Engine

variable {e e' : Engine} {o : Occasion} {existing : List Rule} {draft : Draft}

/-! ## One draft

There are two cases, and which of them it is depends on the list that was read before the loop, not
on the rules that are stored at the time. -/

/-- **A draft of a new name** is created. New means that it is not in the list, which does not have
what the seed itself has created. -/
theorem seedRule_eq_ok_iff_of_new (hnew : Seed.replaced? existing draft.name = none)
    {result : Option Engine} :
    seedRule existing draft e o = .ok result
      ↔ draft.validate = .ok () ∧ Text.isBlank e.seedAuthor.actor = false ∧ o.refusal = none
        ∧ result = some (e.withRule none (Rule.ofDraft draft o.rowId e.seedAuthor.actor o.now)
          e.seedAuthor o) := by
  unfold Seed.replaced? at hnew
  unfold seedRule
  rw [hnew]
  simp only [bind_eq_ok_iff]
  constructor
  · rintro ⟨⟨new, e₁⟩, hcreate, hresult⟩
    obtain ⟨hvalid, hactor, hrefusal, rfl, rfl⟩ := createRule_eq_ok_iff.1 hcreate
    cases hresult
    exact ⟨hvalid, hactor, hrefusal, rfl⟩
  · rintro ⟨hvalid, hactor, hrefusal, rfl⟩
    exact ⟨_, createRule_eq_ok_iff.2 ⟨hvalid, hactor, hrefusal, rfl, rfl⟩, rfl⟩

/-- **A draft of a name that is there** is written to the first rule that has it. What is revised is
the rule as it is stored now, since an earlier draft of the name may have revised it before. -/
theorem seedRule_eq_ok_iff_of_replaced {rule : Rule}
    (hrule : Seed.replaced? existing draft.name = some rule) {result : Option Engine} :
    seedRule existing draft e o = .ok result
      ↔ draft.validate = .ok () ∧ Text.isBlank e.seedAuthor.actor = false ∧ o.refusal = none
        ∧ ∃ old, e.store.rule? rule.id = some old
          ∧ result = some (e.withRule (some old) (old.revise draft e.seedAuthor.actor o.now)
            e.seedAuthor o) := by
  unfold Seed.replaced? at hrule
  unfold seedRule
  rw [hrule]
  simp only [bind_eq_ok_iff]
  constructor
  · rintro ⟨⟨new, e₁⟩, hupdate, hresult⟩
    obtain ⟨hvalid, old, hold, hactor, hrefusal, rfl, rfl⟩ := updateRule_eq_ok_iff.1 hupdate
    cases hresult
    exact ⟨hvalid, hactor, hrefusal, old, hold, rfl⟩
  · rintro ⟨hvalid, hactor, hrefusal, old, hold, rfl⟩
    exact ⟨_, updateRule_eq_ok_iff.2 ⟨hvalid, old, hold, hactor, hrefusal, rfl, rfl⟩, rfl⟩

/-- No draft is left out. -/
theorem seedRule_ne_ok_none : seedRule existing draft e o ≠ .ok none := by
  intro h
  cases hrule : Seed.replaced? existing draft.name with
  | none =>
    -- The draft is created, under the identifier of its entry, which is still fresh.
    obtain ⟨-, -, -, heq⟩ := (seedRule_eq_ok_iff_of_new hrule).1 h
    cases heq
  | some rule =>
    obtain ⟨-, -, -, old, -, heq⟩ := (seedRule_eq_ok_iff_of_replaced hrule).1 h
    cases heq

/-- A draft that is written takes a step. -/
theorem step_of_seedRule (existing : List Rule) (draft : Draft) (e : Engine) (o : Occasion)
    (e' : Engine) (h : seedRule existing draft e o = .ok (some e')) :
    ∃ ids, Step e ids [] e' ∧ ids.Sublist [o.rowId] := by
  obtain ⟨old, new, hnew⟩ | ⟨new, hnew⟩ := updateRule_or_createRule_of_seedRule h
  · exact ⟨_, .updateRule hnew, List.nil_sublist _⟩
  · exact ⟨_, .createRule hnew, List.Sublist.refl _⟩

/-! ## All drafts

The relation grows with the drafts that are done. It has to say which rules were there and which
were created, since only the first are in the list. -/

variable {occasion : Nat → Occasion} {drafts : List Draft} {n k : Nat}

/-- The rules of a seed touch neither settings nor categories. -/
theorem Wrote.eq_of_seedRule (h : Wrote occasion (seedRule existing) e n drafts k e') :
    e'.store.settings = e.store.settings ∧ e'.store.categories = e.store.categories := by
  induction h with
  | nil => exact ⟨rfl, rfl⟩
  | skip before h ih => exact ih
  | write before h ih =>
    rename_i done _ e₁ e₂ draft
    suffices hstep : e₂.store.settings = e₁.store.settings
        ∧ e₂.store.categories = e₁.store.categories from
      ⟨hstep.1.trans ih.1, hstep.2.trans ih.2⟩
    cases hrule : Seed.replaced? existing draft.name with
    | none =>
      obtain ⟨-, -, -, heq⟩ := (seedRule_eq_ok_iff_of_new hrule).1 h
      cases heq
      exact ⟨rfl, rfl⟩
    | some rule =>
      obtain ⟨-, -, -, old, -, heq⟩ := (seedRule_eq_ok_iff_of_replaced hrule).1 h
      cases heq
      exact ⟨rfl, rfl⟩

/-- **What the rules of a seed come to.** The stored rules stand in their places with what is in the
last drafts of their names, if they are the first of their names; and after them the rules that were
created. The log tells of each draft, and of the creations in their order. What is not said is which
version they have, and when they were written. -/
structure RulesSeeded (e : Engine) (existing : List Rule) (drafts : List Draft) (e' : Engine)
    (kept created : List Rule) : Prop where
  values : e'.store.rules.values = kept ++ created
  revised : List.Forall₂ (fun rule now => now.id = rule.id ∧ now.createdAt = rule.createdAt
    ∧ now.toDraft = Seed.draftAfter existing drafts rule) e.store.rules.values kept
  drafted : created.map Rule.toDraft
    = drafts.filter fun draft => (Seed.replaced? existing draft.name).isNone
  told : ∃ records, e'.log.records = e.log.records ++ records
    ∧ records.length = drafts.length
    ∧ (records.filter fun r => r.change = .created).map AuditRecord.subject
      = created.map fun rule => .rule rule.id

namespace RulesSeeded

variable {e₁ : Engine} {kept created : List Rule}

theorem refl (e : Engine) (existing : List Rule) :
    e.RulesSeeded existing [] e e.store.rules.values [] where
  values := (List.append_nil _).symm
  revised := List.forall₂_same.2 fun rule _ =>
    ⟨rfl, rfl, (Seed.draftAfter_nil existing rule).symm⟩
  drafted := rfl
  told := ⟨[], (List.append_nil _).symm, rfl, rfl⟩

/-- **A rule is created**, under an identifier that is not in use, so that it stands behind all
others and takes no one's place. -/
theorem concat_new (h : e.RulesSeeded existing drafts e₁ kept created)
    (hnew : Seed.replaced? existing draft.name = none) {rule : Rule}
    (hunused : e₁.store.rule? rule.id = none) (hrule : rule.toDraft = draft) (author : Author)
    (o : Occasion) :
    e.RulesSeeded existing (drafts ++ [draft]) (e₁.withRule none rule author o) kept
      (created ++ [rule]) where
  values := by
    show (e₁.store.rules.insert rule.id rule).values = _
    rw [e₁.store.rules.values_insert_of_find?_eq_none hunused, h.values, List.append_assoc]
  revised := by
    refine h.revised.imp fun r now hnow => ?_
    rw [Seed.draftAfter_concat, hnew, if_neg fun h => nomatch h.2]
    exact hnow
  drafted := by
    rw [List.map_append, h.drafted, List.filter_append, List.map_singleton, hrule]
    simp [hnew]
  told := by
    obtain ⟨records, hlog, hlength, hsubjects⟩ := h.told
    refine ⟨records ++ [o.record author (.rule rule.id) .created none (some rule.toJson)], ?_, ?_,
      ?_⟩
    · rw [← List.append_assoc, ← hlog]
      rfl
    · rw [List.length_append, List.length_append, hlength, List.length_singleton,
        List.length_singleton]
    · rw [List.filter_append, List.map_append, List.map_append, hsubjects]
      rfl

/-- The rules that were there keep their identifiers. -/
theorem map_id_kept (h : e.RulesSeeded existing drafts e' kept created) :
    kept.map Rule.id = e.store.rules.values.map Rule.id := by
  rw [← List.forall₂_eq_eq_eq, List.forall₂_map_left_iff, List.forall₂_map_right_iff]
  exact (h.revised.imp fun _ _ hnow => hnow.1).flip

/-- A rule that was created has another identifier than one that was there. -/
theorem id_ne_of_mem_created (h : e.RulesSeeded existing drafts e' kept created)
    (he' : e'.store.rules.Keyed Rule.id) {rule new : Rule} (hrule : rule ∈ e.store.rules.values)
    (hnew : new ∈ created) : new.id ≠ rule.id := by
  have hnodup := he'.nodup_map_values
  rw [h.values, List.map_append, List.nodup_append, h.map_id_kept] at hnodup
  exact (hnodup.2.2 _ (List.mem_map_of_mem hrule) _ (List.mem_map_of_mem hnew)).symm

/-- **A rule is written anew**, in its place. It is not one of those that the seed has created, as
it is in the list that was read before. Of all rules it is the only one whose content changes, and
the draft that is added is the last of its name. -/
theorem concat_replaced (h : e.RulesSeeded existing drafts e₁ kept created)
    (he : e.store.rules.Keyed Rule.id) (he₁ : e₁.store.rules.Keyed Rule.id) {rule old : Rule}
    (hrule : Seed.replaced? existing draft.name = some rule)
    (hstored : rule ∈ e.store.rules.values) (hold : e₁.store.rule? rule.id = some old)
    (actor : String) (author : Author) (o : Occasion) :
    ∃ kept', e.RulesSeeded existing (drafts ++ [draft])
      (e₁.withRule (some old) (old.revise draft actor o.now) author o) kept' created := by
  have hid : old.id = rule.id := he₁ rule.id old hold
  have hname : rule.name = draft.name := (Seed.mem_of_replaced? hrule).2
  refine ⟨kept.map fun now => if now.id = rule.id then old.revise draft actor o.now else now,
    ?_, ?_, ?_, ?_⟩
  · -- The row is replaced in its place, among those that were there.
    have hnew : (old.revise draft actor o.now).id = rule.id := hid
    have hthere : e₁.store.rules.find? (old.revise draft actor o.now).id = some old :=
      hnew.symm ▸ hold
    have hcreated : created.map (fun now =>
        if now.id = rule.id then old.revise draft actor o.now else now) = created :=
      (List.map_congr_left fun now hnow =>
        if_neg (h.id_ne_of_mem_created he₁ hstored hnow)).trans (List.map_id' created)
    show (e₁.store.rules.insert (old.revise draft actor o.now).id _).values = _
    rw [he₁.values_insert_of_find? hthere, hnew, h.values, List.map_append, hcreated]
  · -- Of each rule it has to be known that it was stored, to tell it from the one that is replaced.
    have hmem := (List.forall₂_and_left _ _).2 ⟨fun r hr => hr,
      ((List.forall₂_and_left _ _).2 ⟨fun now hnow => hnow, h.revised.flip⟩).flip⟩
    refine List.forall₂_map_right_iff.2 (hmem.imp fun r now hnow => ?_)
    obtain ⟨hr, hkept, hsame, hage, hdraft⟩ := hnow
    rw [Seed.draftAfter_concat, hrule]
    by_cases hreplaced : now.id = rule.id
    · -- This is the rule that is replaced, as it was stored when the draft had its turn.
      have hfirst : r = rule := List.inj_on_of_nodup_map he.nodup_map_values hr hstored
        (hsame.symm.trans hreplaced)
      have hnow : e₁.store.rule? now.id = some now :=
        (he₁.mem_values_iff now).1 (h.values ▸ List.mem_append_left _ hkept)
      rw [hreplaced, hold] at hnow
      cases hnow
      subst hfirst
      rw [if_pos hreplaced, if_pos ⟨hname, rfl⟩]
      exact ⟨hsame, hage, Rule.toDraft_revise _ _ _ _⟩
    · have hother : ¬(r.name = draft.name ∧ (some rule).map Rule.id = some r.id) := fun hboth =>
        hreplaced (hsame.trans (Option.some.inj hboth.2).symm)
      rw [if_neg hreplaced, if_neg hother]
      exact ⟨hsame, hage, hdraft⟩
  · rw [h.drafted, List.filter_append]
    simp [hrule]
  · obtain ⟨records, hlog, hlength, hsubjects⟩ := h.told
    refine ⟨records ++ [o.record author (.rule old.id) .updated (some old.toJson)
      (some (old.revise draft actor o.now).toJson)], ?_, ?_, ?_⟩
    · rw [← List.append_assoc, ← hlog]
      rfl
    · rw [List.length_append, List.length_append, hlength, List.length_singleton,
        List.length_singleton]
    · rw [List.filter_append, List.map_append, hsubjects]
      exact List.append_nil _

/-- **A rule that was there is there still**, with what the drafts have made of it. -/
theorem exists_revised (h : e.RulesSeeded existing drafts e' kept created)
    (he' : e'.store.rules.Keyed Rule.id) {rule : Rule} (hrule : rule ∈ e.store.rules.values) :
    ∃ now, e'.store.rule? rule.id = some now ∧ now.id = rule.id
      ∧ now.createdAt = rule.createdAt
      ∧ now.toDraft = Seed.draftAfter existing drafts rule := by
  obtain ⟨i, hi, rfl⟩ := List.getElem_of_mem hrule
  obtain ⟨hlength, hall⟩ := List.forall₂_iff_get.1 h.revised
  have hnow := hall i hi (hlength ▸ hi)
  have hmem : kept.get ⟨i, hlength ▸ hi⟩ ∈ e'.store.rules.values :=
    h.values ▸ List.mem_append_left _ (List.get_mem _ _)
  refine ⟨_, ?_, hnow⟩
  rw [← (he'.mem_values_iff _).1 hmem]
  exact congrArg e'.store.rules.find? hnow.1.symm

/-- **The last draft of each name is stored.** If the name was there, the first rule of it has the
draft. If not, the draft has a rule of its own. -/
theorem exists_of_lastNamed (h : e.RulesSeeded existing drafts e' kept created)
    (he' : e'.store.rules.Keyed Rule.id)
    (hexisting : ∀ rule ∈ existing, rule ∈ e.store.rules.values) {name : String}
    (hlast : Seed.lastNamed drafts name = some draft) :
    ∃ rule ∈ e'.store.rules.values, rule.toDraft = draft := by
  obtain ⟨hmem, hname⟩ := Seed.mem_of_lastNamed hlast
  cases hrule : Seed.replaced? existing name with
  | none =>
    have hnew : draft ∈ created.map Rule.toDraft := by
      rw [h.drafted, List.mem_filter, hname, hrule]
      exact ⟨hmem, rfl⟩
    obtain ⟨rule, hrule, heq⟩ := List.mem_map.1 hnew
    exact ⟨rule, h.values ▸ List.mem_append_right _ hrule, heq⟩
  | some rule =>
    obtain ⟨hfound, hsame⟩ := Seed.mem_of_replaced? hrule
    obtain ⟨now, hnow, -, -, hdraft⟩ := h.exists_revised he' (hexisting rule hfound)
    refine ⟨now, (Table.mem_values_iff _ now).2 ⟨_, hnow⟩, hdraft.trans ?_⟩
    unfold Seed.draftAfter
    rw [hsame, hrule, hlast, Option.map_some, if_pos rfl, Option.getD_some]

/-- **So each draft finds a rule of its name** afterwards, in whatever order the rules stand: there
is a rule of the name, and so there is a first one. -/
theorem isSome_replaced? (h : e.RulesSeeded existing drafts e' kept created)
    (he' : e'.store.rules.Keyed Rule.id)
    (hexisting : ∀ rule ∈ existing, rule ∈ e.store.rules.values) {s : Store}
    (hs : e'.store.rules.rows.Perm s.rules.rows) (hdraft : draft ∈ drafts) :
    (Seed.replaced? s.allRules draft.name).isSome = true := by
  obtain ⟨last, hlast⟩ := Seed.exists_lastNamed_of_mem hdraft
  obtain ⟨rule, hrule, rfl⟩ := h.exists_of_lastNamed he' hexisting hlast
  exact List.find?_isSome.2 ⟨rule, Store.mem_allRules_iff.2 ((hs.map Prod.snd).mem_iff.1 hrule),
    decide_eq_true (Seed.mem_of_lastNamed hlast).2⟩

/-- **Where every draft replaces a rule**, no rule is created. -/
theorem of_replaced (h : e.RulesSeeded existing drafts e' kept created)
    (hall : ∀ draft ∈ drafts, (Seed.replaced? existing draft.name).isSome = true) :
    e'.store.rules.values = kept ∧ created = [] := by
  have hcreated := h.drafted
  have hnone : drafts.filter (fun draft => (Seed.replaced? existing draft.name).isNone) = [] :=
    List.filter_eq_nil_iff.2 fun draft hdraft hnone =>
      Option.isSome_iff_ne_none.1 (hall draft hdraft) (Option.isNone_iff_eq_none.1 hnone)
  rw [hnone, List.map_eq_nil_iff] at hcreated
  refine ⟨?_, hcreated⟩
  rw [h.values, hcreated, List.append_nil]

end RulesSeeded

/-- **The loop over the rules.** Every draft must replace a rule, or else the identifiers of the
entries must be fresh. By induction on the drafts that are done; the two cases of one draft are the
lemmas above. -/
theorem Wrote.exists_rulesSeeded (h : Wrote occasion (seedRule existing) e n drafts k e')
    (he : e.store.WellFormed) (hexisting : ∀ rule ∈ existing, rule ∈ e.store.rules.values)
    (hplaces : (∀ draft ∈ drafts, (Seed.replaced? existing draft.name).isSome = true)
      ∨ e.Fresh occasion n (n + drafts.length)) :
    ∃ kept created, e.RulesSeeded existing drafts e' kept created := by
  induction h with
  | nil => exact ⟨_, _, .refl e existing⟩
  | skip before h ih => exact absurd h seedRule_ne_ok_none
  | @write done count e₁ e₂ draft before h ih =>
    obtain ⟨kept, created, hdone⟩ := ih <| hplaces.imp
      (fun hall d hd => hall d (List.mem_append_left _ hd))
      (·.mono (Nat.le_refl _)
        (Nat.add_le_add_left (List.length_append ▸ Nat.le_add_right _ _) _))
    cases hrule : Seed.replaced? existing draft.name with
    | none =>
      obtain ⟨-, -, -, heq⟩ := (seedRule_eq_ok_iff_of_new hrule).1 h
      cases heq
      have hfresh := hplaces.resolve_left fun hall =>
        Option.isSome_iff_ne_none.1 (hall draft (by simp)) hrule
      have hunused := before.fresh (step_of_seedRule existing) he hfresh
      exact ⟨kept, _, hdone.concat_new hrule
        (hunused.unused _ (Nat.le_refl _) (by simp)).rule rfl _ _⟩
    | some rule =>
      -- It is written to a rule that was there, as this is stored by now.
      obtain ⟨-, -, -, old, hold, heq⟩ := (seedRule_eq_ok_iff_of_replaced hrule).1 h
      cases heq
      have hwell := before.wellFormed (step_of_seedRule existing) he
      obtain ⟨kept', hdone'⟩ := hdone.concat_replaced he.rules_keyed hwell.rules_keyed hrule
        (hexisting rule (Seed.mem_of_replaced? hrule).1) hold e₁.seedAuthor.actor e₁.seedAuthor
        (occasion (n + done.length))
      exact ⟨kept', created, hdone'⟩

/-! ## The same drafts once more -/

/-- **Drafts that were written once can be written again**, if each of them replaces a rule and
the log accepts records. They passed their check the first time, and the check does not look at
the store. -/
theorem Wrote.exists_rules_again {occasion' : Nat → Occasion} {e₁ : Engine} {m : Nat}
    (h : Wrote occasion (seedRule existing) e n drafts k e') (he₁ : e₁.store.WellFormed)
    (hconfig : e₁.config = e.config)
    (hall : ∀ draft ∈ drafts,
      (Seed.replaced? e₁.store.allRules draft.name).isSome = true)
    (haccepts : ∀ i < m + drafts.length, (occasion' i).refusal = none) :
    ∃ e₂, Wrote occasion' (seedRule e₁.store.allRules) e₁ m drafts drafts.length e₂ := by
  obtain ⟨j, e₂, hwrote⟩ : ∃ j e₂,
      Wrote occasion' (seedRule e₁.store.allRules) e₁ m drafts j e₂ := by
    refine exists_wrote fun done draft rest j e₃ hsplit hdone => ?_
    have hmem : draft ∈ drafts := hsplit ▸ List.mem_append_right _ List.mem_cons_self
    have hlt : m + done.length < m + drafts.length := by
      rw [hsplit, List.length_append, List.length_cons]
      omega
    obtain ⟨before, after, i, e₀, result, -, hbefore, hok⟩ := h.exists_of_mem hmem
    have hauthor : e₃.seedAuthor = e₀.seedAuthor := by
      unfold seedAuthor
      rw [hdone.config_eq (step_of_seedRule _), hconfig, hbefore.config_eq (step_of_seedRule _)]
    have hvalid : draft.validate = .ok () ∧ Text.isBlank e₀.seedAuthor.actor = false := by
      cases hrule : Seed.replaced? existing draft.name with
      | none =>
        obtain ⟨hvalid, hactor, -⟩ := (seedRule_eq_ok_iff_of_new hrule).1 hok
        exact ⟨hvalid, hactor⟩
      | some rule =>
        obtain ⟨hvalid, hactor, -⟩ := (seedRule_eq_ok_iff_of_replaced hrule).1 hok
        exact ⟨hvalid, hactor⟩
    obtain ⟨rule, hrule⟩ := Option.isSome_iff_exists.1 (hall draft hmem)
    have hstored := Store.mem_allRules_iff.1 (Seed.mem_of_replaced? hrule).1
    -- The rule is there still, whatever the drafts before have made of it.
    obtain ⟨kept, created, hseeded⟩ := hdone.exists_rulesSeeded he₁
      (fun _ => Store.mem_allRules_iff.1) <| .inl fun d hd =>
        hall d (hsplit ▸ List.mem_append_left _ hd)
    obtain ⟨old, hold, -⟩ := hseeded.exists_revised
      (hdone.wellFormed (step_of_seedRule _) he₁).rules_keyed hstored
    exact ⟨_, (seedRule_eq_ok_iff_of_replaced hrule).2
      ⟨hvalid.1, hauthor ▸ hvalid.2, haccepts _ hlt, old, hold, rfl⟩⟩
  have hcount := hwrote.count_eq fun _ _ _ => seedRule_ne_ok_none
  exact ⟨e₂, hcount ▸ hwrote⟩

end Engine

end Tariff
