import Mathlib.Data.List.Nodup
import Mathlib.Data.List.Perm.Basic
import Tariff.Store.Table

/-!
# What a table holds

A table is a list of rows, but a row is asked for by its identifier. The two
views agree since no identifier occurs twice: a row is in the list exactly where
it is found (`mem_rows_iff`).

Queries filter the rows. `filter_values_insert` and `filter_values_erase` say
that a change which concerns no row that passes the filter leaves what passes it
as it was, order included.

A query that looks for the first row with some property depends on the order of
the rows, unless there is at most one such row (`find?_eq_of_perm`).
-/

namespace Tariff

/-! ## Lists with keys

Rows are pairs of an identifier and a value. What is said here is said of any list of pairs. -/

/-- **In a list without repeated keys an entry is where it is looked up.** With repeated keys the
first one would be found, and not the others. -/
theorem mem_iff_lookup_eq_some {κ α : Type} [BEq κ] [LawfulBEq κ] {l : List (κ × α)}
    (h : (l.map Prod.fst).Nodup) {k : κ} {a : α} : (k, a) ∈ l ↔ l.lookup k = some a := by
  induction l with
  | nil => simp
  | cons entry rest ih =>
    obtain ⟨j, b⟩ := entry
    rw [List.map_cons, List.nodup_cons] at h
    -- The look-up ends at the first entry with the key, and no later entry has it.
    by_cases hk : k = j
    · subst hk
      have hnot : (k, a) ∉ rest := fun hmem => h.1 (List.mem_map.2 ⟨(k, a), hmem, rfl⟩)
      simp [hnot, eq_comm]
    · have hbeq : (k == j) = false := by simpa using hk
      rw [List.mem_cons, List.lookup_cons, hbeq, ih h.2]
      simp [hk]

/-! ## Looking for the only one

Most look-ups by something else than the identifier take the first row that fits. They are well
defined where only one does. -/

/-- In a list without repetitions at most one element passes if any two that pass are
the same. -/
theorem countP_le_one_of_unique {α : Type} {l : List α} (h : l.Nodup) {p : α → Bool}
    (hp : ∀ a ∈ l, ∀ b ∈ l, p a = true → p b = true → a = b) : l.countP p ≤ 1 := by
  have hnodup := h.filter p
  have hmem : ∀ a, a ∈ l.filter p ↔ a ∈ l ∧ p a = true := fun a => List.mem_filter
  rw [List.countP_eq_length_filter]
  match hl : l.filter p with
  | [] => exact Nat.zero_le _
  | [a] => exact Nat.le_refl _
  | a :: b :: rest =>
    rw [hl] at hnodup hmem
    obtain ⟨ha, hpa⟩ := (hmem a).1 (by simp)
    obtain ⟨hb, hpb⟩ := (hmem b).1 (by simp)
    have hab := hp a ha b hb hpa hpb
    simp [hab] at hnodup

/-- **Where at most one element passes, the first that passes does not depend on the order.** This
is how look-ups by a name are seen to be well defined, once names have been seen to be unique. -/
theorem find?_eq_of_perm {α : Type} {l l' : List α} (h : l.Perm l') {p : α → Bool}
    (hp : l.countP p ≤ 1) : l'.find? p = l.find? p := by
  have hlen : (l.filter p).length ≤ 1 := by rwa [← List.countP_eq_length_filter]
  have hfilter : l'.filter p = l.filter p := by
    -- A list of at most one element has no other order.
    have hperm := h.filter p
    match hl : l.filter p with
    | [] => rw [hl] at hperm; exact hperm.symm.eq_nil
    | [a] => rw [hl] at hperm; exact List.perm_singleton.1 hperm.symm
    | a :: b :: rest => rw [hl] at hlen; simp at hlen
  rw [← List.head?_filter, ← List.head?_filter, hfilter]

namespace Table

variable {α : Type}

/-! ## Rows and look-ups

A table is used in two ways, as a list and as a function of identifiers. These lemmas lead from the
one to the other. -/

/-- **A row is in the list exactly where it is found.** -/
theorem mem_rows_iff (t : Table α) (id : Uuid) (a : α) :
    (id, a) ∈ t.rows ↔ t.find? id = some a :=
  mem_iff_lookup_eq_some t.nodup_ids

/-- The values are what is found under some identifier. -/
theorem mem_values_iff (t : Table α) (a : α) :
    a ∈ t.values ↔ ∃ id, t.find? id = some a := by
  simp [values, ← mem_rows_iff]

/-- Tables with the same rows find the same, in whatever order the rows come. -/
theorem find?_eq_of_rows_perm {t t' : Table α} (h : t.rows.Perm t'.rows) (id : Uuid) :
    t'.find? id = t.find? id := by
  refine Option.ext (fun a => ?_)
  rw [← mem_rows_iff, ← mem_rows_iff, h.mem_iff]

/-! ## What a change leaves alone

What is filtered out of a table is seldom concerned by a change. These lemmas say when it is not. -/

/-- **An insertion that concerns no row passing a filter leaves what passes**: neither the new row
passes nor the one that it replaces. It is not enough that the new one does not: the one before
would be missing. -/
theorem filter_values_insert (t : Table α) {id : Uuid} {a : α} {p : α → Bool}
    (ha : p a = false) (hold : ∀ b, t.find? id = some b → p b = false) :
    (t.insert id a).values.filter p = t.values.filter p := by
  suffices h : ∀ rows : List (Uuid × α), (∀ b, rows.lookup id = some b → p b = false) →
      ((insertRow id a rows).map Prod.snd).filter p = (rows.map Prod.snd).filter p from
    h t.rows hold
  intro rows hrows
  induction rows with
  | nil => simp [insertRow, ha]
  | cons row rest ih =>
    obtain ⟨k, b⟩ := row
    rw [insertRow]
    split
    · next hk => simp [ha, hrows b (by simp [hk])]
    · next hk =>
      have hrest : ∀ c, rest.lookup id = some c → p c = false := fun c hc =>
        hrows c (by simpa [List.lookup_cons, beq_eq_false_iff_ne.2 (Ne.symm hk)] using hc)
      rw [List.map_cons, List.map_cons, List.filter_cons, List.filter_cons, ih hrest]

/-- **An erasure of a row that does not pass a filter leaves what passes.** -/
theorem filter_values_erase (t : Table α) {id : Uuid} {p : α → Bool}
    (hold : ∀ b, t.find? id = some b → p b = false) :
    (t.erase id).values.filter p = t.values.filter p := by
  suffices h : ∀ rows : List (Uuid × α), (∀ b, rows.lookup id = some b → p b = false) →
      ((eraseRow id rows).map Prod.snd).filter p = (rows.map Prod.snd).filter p from
    h t.rows hold
  intro rows hrows
  induction rows with
  | nil => rfl
  | cons row rest ih =>
    obtain ⟨k, b⟩ := row
    rw [eraseRow]
    split
    · next hk => simp [hrows b (by simp [hk])]
    · next hk =>
      have hrest : ∀ c, rest.lookup id = some c → p c = false := fun c hc =>
        hrows c (by simpa [List.lookup_cons, beq_eq_false_iff_ne.2 (Ne.symm hk)] using hc)
      rw [List.map_cons, List.map_cons, List.filter_cons, List.filter_cons, ih hrest]

/-- **A row put under an identifier in use takes the place of the one there**, and the others stay
where they are. So an update is a map over the rows. -/
theorem rows_insert_of_find? (t : Table α) {id : Uuid} {old : α} (h : t.find? id = some old)
    (a : α) :
    (t.insert id a).rows = t.rows.map fun row => if row.1 = id then (id, a) else row := by
  suffices hrows : ∀ rows : List (Uuid × α), (rows.map Prod.fst).Nodup →
      rows.lookup id = some old →
      insertRow id a rows = rows.map fun row => if row.1 = id then (id, a) else row from
    hrows t.rows t.nodup_ids h
  intro rows hrows hfound
  induction rows with
  | nil => cases hfound
  | cons row rest ih =>
    obtain ⟨k, b⟩ := row
    rw [List.map_cons, List.nodup_cons] at hrows
    rw [insertRow, List.map_cons]
    split
    · next hk =>
      -- No later row has the identifier.
      subst hk
      have hrest : rest.map (fun row => if row.1 = k then (k, a) else row) = rest :=
        (List.map_congr_left fun row hrow =>
          if_neg fun heq => hrows.1 (List.mem_map.2 ⟨row, hrow, heq⟩)).trans (List.map_id rest)
      rw [hrest]
    · next hk =>
      rw [List.lookup_cons, beq_eq_false_iff_ne.2 (Ne.symm hk)] at hfound
      rw [ih hrows.2 hfound]

/-- **A row put under an identifier that is not in use goes to the end.** -/
theorem values_insert_of_find?_eq_none (t : Table α) {id : Uuid} (h : t.find? id = none) (a : α) :
    (t.insert id a).values = t.values ++ [a] := by
  suffices hrows : ∀ rows : List (Uuid × α), rows.lookup id = none →
      (insertRow id a rows).map Prod.snd = rows.map Prod.snd ++ [a] from hrows t.rows h
  intro rows hfound
  induction rows with
  | nil => rfl
  | cons row rest ih =>
    obtain ⟨k, b⟩ := row
    rw [List.lookup_eq_none_iff] at hfound
    have hk : k ≠ id := fun heq => by simpa [heq] using hfound (k, b) List.mem_cons_self
    rw [insertRow, if_neg hk, List.map_cons, List.map_cons, List.cons_append,
      ih (List.lookup_eq_none_iff.2 fun p hp => hfound p (List.mem_cons_of_mem _ hp))]

/-- After an insertion there is the new value, and no other that was not there. -/
theorem eq_or_mem_values_of_insert (t : Table α) {id : Uuid} {a b : α}
    (h : b ∈ (t.insert id a).values) : b = a ∨ b ∈ t.values := by
  obtain ⟨k, hk⟩ := ((t.insert id a).mem_values_iff b).1 h
  rw [find?_insert] at hk
  split at hk
  · exact .inl (Option.some.inj hk).symm
  · exact .inr ((t.mem_values_iff b).2 ⟨k, hk⟩)

/-- After an erasure there is none that was not there. -/
theorem mem_values_of_erase (t : Table α) {id : Uuid} {b : α} (h : b ∈ (t.erase id).values) :
    b ∈ t.values := by
  obtain ⟨k, hk⟩ := ((t.erase id).mem_values_iff b).1 h
  rw [find?_erase] at hk
  split at hk
  · cases hk
  · exact (t.mem_values_iff b).2 ⟨k, hk⟩

/-! ## Rows under their own identifiers

The tables of a store have rows that know their identifiers, and all changes keep each under its
own. -/

/-- **Every row sits under its own identifier.** A table does not ask for it, since its rows need
not have one. Those of a store do. -/
def Keyed (idOf : α → Uuid) (t : Table α) : Prop := ∀ id a, t.find? id = some a → idOf a = id

namespace Keyed

variable {idOf : α → Uuid} {t : Table α}

theorem empty : Keyed idOf (Table.empty : Table α) := by
  intro id a h
  simp at h

/-- A row that is put under its own identifier sits there. -/
theorem insert (ht : Keyed idOf t) (a : α) : Keyed idOf (t.insert (idOf a) a) := by
  intro k b hb
  rw [find?_insert] at hb
  split at hb
  · next hk => cases hb; exact hk.symm
  · exact ht k b hb

/-- Taking a row out leaves the others where they are. -/
theorem erase (ht : Keyed idOf t) (id : Uuid) : Keyed idOf (t.erase id) := by
  intro k b hb
  rw [find?_erase] at hb
  split at hb
  · simp at hb
  · exact ht k b hb

/-- A value is found under its own identifier. -/
theorem mem_values_iff (ht : Keyed idOf t) (a : α) :
    a ∈ t.values ↔ t.find? (idOf a) = some a := by
  rw [Table.mem_values_iff]
  constructor
  · rintro ⟨id, h⟩
    rwa [ht id a h]
  · intro h
    exact ⟨_, h⟩

/-- After an insertion there are the new value and those with other identifiers. -/
theorem mem_values_insert (ht : Keyed idOf t) (a b : α) :
    b ∈ (t.insert (idOf a) a).values ↔ b = a ∨ b ∈ t.values ∧ idOf b ≠ idOf a := by
  rw [(ht.insert a).mem_values_iff, find?_insert, ht.mem_values_iff]
  by_cases hid : idOf b = idOf a
  · simp [hid, eq_comm]
  · have ha : b ≠ a := fun h => hid (congrArg idOf h)
    simp [hid, ha]

/-- After an erasure there are the values with other identifiers. -/
theorem mem_values_erase (ht : Keyed idOf t) (id : Uuid) (b : α) :
    b ∈ (t.erase id).values ↔ b ∈ t.values ∧ idOf b ≠ id := by
  rw [(ht.erase id).mem_values_iff, find?_erase, ht.mem_values_iff]
  by_cases hid : idOf b = id <;> simp [hid]

/-- **A value put in place of one with its identifier** stands where that one stood. -/
theorem values_insert_of_find? (ht : Keyed idOf t) {a old : α}
    (h : t.find? (idOf a) = some old) :
    (t.insert (idOf a) a).values = t.values.map fun b => if idOf b = idOf a then a else b := by
  unfold values
  rw [rows_insert_of_find? t h, List.map_map, List.map_map]
  refine List.map_congr_left fun row hrow => ?_
  have hid : idOf row.2 = row.1 := ht row.1 row.2 ((mem_rows_iff t _ _).1 hrow)
  rw [Function.comp_apply, Function.comp_apply, hid]
  split <;> rfl

/-- The values have distinct identifiers, since no two rows have the same. -/
theorem nodup_map_values (ht : Keyed idOf t) : (t.values.map idOf).Nodup := by
  have h : t.values.map idOf = t.ids := by
    unfold values ids
    rw [List.map_map]
    exact List.map_congr_left fun row hrow => ht row.1 row.2 ((mem_rows_iff t _ _).1 hrow)
  rw [h]
  exact t.nodup_ids

/-- **Where the identifiers are those of another table, in the same order**, the values are what
is found under them. -/
theorem values_eq_map (ht : Keyed idOf t) {t' : Table α}
    (h : t.values.map idOf = t'.values.map idOf) :
    t.values = t'.values.map fun a => (t.find? (idOf a)).getD a := by
  have hlength : t.values.length = t'.values.length := by
    rw [← List.length_map, h, List.length_map]
  refine List.ext_getElem (by rw [List.length_map, hlength]) fun i hi _ => ?_
  have hid : (t.values.map idOf)[i]? = (t'.values.map idOf)[i]? := by rw [h]
  rw [List.getElem?_map, List.getElem?_map, List.getElem?_eq_getElem hi,
    List.getElem?_eq_getElem (hlength ▸ hi)] at hid
  rw [List.getElem_map, ← Option.some.inj hid, (ht.mem_values_iff _).1 (List.getElem_mem hi),
    Option.getD_some]

/-- So no value is there twice. -/
theorem nodup_values (ht : Keyed idOf t) : t.values.Nodup := ht.nodup_map_values.of_map

/-- **Looking through the values for an identifier**, in any order, finds what is under it: there is
no second value with the identifier that could come first. -/
theorem find?_of_perm (ht : Keyed idOf t) {l : List α} (h : l.Perm t.values) (id : Uuid) :
    l.find? (fun a => idOf a = id) = t.find? id := by
  cases hl : l.find? fun a => idOf a = id with
  | some b =>
    have hid : idOf b = id := by simpa using List.find?_some hl
    have hb := (ht.mem_values_iff b).1 (h.mem_iff.1 (List.mem_of_find?_eq_some hl))
    rw [← hb, hid]
  | none =>
    refine Eq.symm (Option.eq_none_iff_forall_ne_some.2 fun a ha => ?_)
    have hid := ht id a ha
    rw [← hid] at ha
    refine List.find?_eq_none.1 hl a (h.mem_iff.2 ((ht.mem_values_iff a).2 ha)) ?_
    exact decide_eq_true hid

end Keyed

end Table

end Tariff
