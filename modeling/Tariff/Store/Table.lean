import Tariff.Uuid

/-!
# Tables

A **table** holds rows under identifiers, at most one row under each. A row that
is put under an identifier in use takes the place of the old one, and a new row
goes to the end; so the rows keep the order in which their identifiers came.

`find?_insert` and `find?_erase` say what the two changes do to the rows that
are found afterwards: each touches the row of one identifier.
-/

namespace Tariff

/-- **Rows under distinct identifiers**, in the order in which they came. -/
structure Table (α : Type) where
  rows : List (Uuid × α) := []
  nodup_ids : (rows.map Prod.fst).Nodup := by simp

namespace Table

variable {α : Type}

/-- The table without rows. -/
def empty : Table α := { rows := [] }

instance : Inhabited (Table α) := ⟨empty⟩

/-- The identifiers in use. -/
def ids (t : Table α) : List Uuid := t.rows.map Prod.fst

/-- The rows without their identifiers. -/
def values (t : Table α) : List α := t.rows.map Prod.snd

/-- The row under an identifier. -/
def find? (t : Table α) (id : Uuid) : Option α := t.rows.lookup id

/-- Whether there is a row under an identifier. -/
def contains (t : Table α) (id : Uuid) : Bool := (t.find? id).isSome

/-! ## Changing a list of rows -/

/-- Puts a row into a list. -/
def insertRow (id : Uuid) (a : α) : List (Uuid × α) → List (Uuid × α)
  | [] => [(id, a)]
  | (k, b) :: rest => if k = id then (id, a) :: rest else (k, b) :: insertRow id a rest

/-- Takes the row of an identifier out of a list. -/
def eraseRow (id : Uuid) : List (Uuid × α) → List (Uuid × α)
  | [] => []
  | (k, b) :: rest => if k = id then rest else (k, b) :: eraseRow id rest

theorem mem_ids_insertRow (id k : Uuid) (a : α) (rows : List (Uuid × α)) :
    k ∈ (insertRow id a rows).map Prod.fst ↔ k = id ∨ k ∈ rows.map Prod.fst := by
  induction rows with
  | nil => simp [insertRow]
  | cons row rest ih =>
    rw [insertRow]
    split
    · simp_all
    · simp only [List.map_cons, List.mem_cons, ih]
      constructor
      · rintro (h | h | h) <;> simp_all
      · rintro (h | h | h) <;> simp_all

theorem nodup_insertRow (id : Uuid) (a : α) {rows : List (Uuid × α)}
    (h : (rows.map Prod.fst).Nodup) : ((insertRow id a rows).map Prod.fst).Nodup := by
  induction rows with
  | nil => simp [insertRow]
  | cons row rest ih =>
    simp only [List.map_cons, List.nodup_cons] at h
    rw [insertRow]
    split
    · simp_all
    · rename_i hk
      simp only [List.map_cons, List.nodup_cons, mem_ids_insertRow]
      exact ⟨by simp_all, ih h.2⟩

theorem eraseRow_sublist (id : Uuid) (rows : List (Uuid × α)) :
    (eraseRow id rows).Sublist rows := by
  induction rows with
  | nil => exact List.Sublist.refl _
  | cons row rest ih =>
    rw [eraseRow]
    split
    · exact List.sublist_cons_self _ _
    · exact ih.cons_cons _

/-! ## Changing a table -/

/-- **Puts a row under an identifier**, in place of the one there. -/
def insert (t : Table α) (id : Uuid) (a : α) : Table α :=
  ⟨insertRow id a t.rows, nodup_insertRow id a t.nodup_ids⟩

/-- **Takes out the row under an identifier**, if there is one. -/
def erase (t : Table α) (id : Uuid) : Table α :=
  ⟨eraseRow id t.rows, t.nodup_ids.sublist ((eraseRow_sublist id t.rows).map Prod.fst)⟩

@[simp] theorem find?_empty (id : Uuid) : (empty : Table α).find? id = none := rfl

/-- **An insertion changes one row.** -/
theorem find?_insert (t : Table α) (id k : Uuid) (a : α) :
    (t.insert id a).find? k = if k = id then some a else t.find? k := by
  suffices h : ∀ rows : List (Uuid × α),
      (insertRow id a rows).lookup k = if k = id then some a else rows.lookup k from h t.rows
  intro rows
  induction rows with
  | nil => by_cases hk : k = id <;> simp [insertRow, hk]
  | cons row rest ih => grind [insertRow]

/-- **An erasure takes out one row.** -/
theorem find?_erase (t : Table α) (id k : Uuid) :
    (t.erase id).find? k = if k = id then none else t.find? k := by
  suffices h : ∀ rows : List (Uuid × α), (rows.map Prod.fst).Nodup →
      (eraseRow id rows).lookup k = if k = id then none else rows.lookup k from
    h t.rows t.nodup_ids
  intro rows hrows
  induction rows with
  | nil => simp [eraseRow]
  | cons row rest ih =>
    simp only [List.map_cons, List.nodup_cons] at hrows
    have hlookup : ∀ k, k ∉ rest.map Prod.fst → rest.lookup k = none := by
      intro k hk
      rw [List.lookup_eq_none_iff]
      intro p hp
      rw [bne_iff_ne]
      exact fun e => hk (List.mem_map.2 ⟨p, hp, e.symm⟩)
    grind [eraseRow]

end Table

end Tariff
