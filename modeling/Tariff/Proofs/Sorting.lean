import Mathlib.Data.List.Basic
import Mathlib.Data.List.Nodup
import Mathlib.Data.List.Perm.Basic
import Tariff.Instant.Basic
import Tariff.Uuid

/-!
# Sorting leaves no choice

Settings and rules are sorted by comparisons that count several things one after
the other. Such a comparison is transitive if each of its parts is, and instance
search puts it together from the parts.

Where the identifier counts last, no two rows with distinct identifiers are tied.
A sorted list is then strictly sorted, and what is in it determines it: the order
that the rows had before does not matter (`mergeSort_eq_of_perm`), and leaving rows
out before sorting is leaving them out after it (`mergeSort_filter`).

Where it does not count, rows may be tied, and then sorting does leave a choice. All
that can be said is which places in a sorted list a row may have
(`exists_place_of_pairwise`).
-/

namespace Tariff

/-! ## Comparisons

Each of these says that a way of comparing is a preorder. They are instances, so that a comparison
by several things is found to be one by looking at how it is written. -/

section Comparisons

variable {α β : Type} [Ord β] [Std.TransOrd β] (f : α → β) {cmp cmp' : α → α → Ordering}
  [Std.TransCmp cmp] [Std.TransCmp cmp']

/-- Instants are compared by their ticks. -/
instance Instant.transOrd : Std.TransOrd Instant :=
  inferInstanceAs (Std.TransCmp (compareOn Instant.ticks))

instance Uuid.transOrd : Std.TransOrd Uuid :=
  inferInstanceAs (Std.TransCmp (compareOn Uuid.value))

/-- What has the smaller value comes first. -/
instance transCmp_ascending : Std.TransCmp (fun a b => compare (f a) (f b)) :=
  inferInstanceAs (Std.TransCmp (compareOn f))

/-- What has the larger value comes first, as with priorities. -/
instance transCmp_descending : Std.TransCmp (fun a b => compare (f b) (f a)) :=
  inferInstanceAs (Std.TransCmp (fun a b => compareOn f b a))

/-- One comparison decides unless it finds a tie, and then the other one does. -/
instance transCmp_then : Std.TransCmp (fun a b => (cmp a b).then (cmp' a b)) :=
  inferInstanceAs (Std.TransCmp (compareLex cmp cmp'))

end Comparisons

/-- Identifiers are tied only if they are the same. -/
theorem Uuid.eq_of_compare_eq {a b : Uuid} (h : compare a b = .eq) : a = b := by
  have hvalue : a.value = b.value := Nat.compare_eq_eq.1 h
  cases a
  cases b
  cases hvalue
  rfl

/-! ## Sorted lists -/

section Sorted

variable {α κ : Type} {cmp : α → α → Ordering} [Std.TransCmp cmp] {l l' : List α}

/-- Sorting puts rows in order, ties allowed. -/
theorem pairwise_isLE_mergeSort (l : List α) :
    (l.mergeSort fun a b => (cmp a b).isLE).Pairwise fun a b => (cmp a b).isLE = true := by
  refine List.pairwise_mergeSort (fun a b c => Std.TransCmp.isLE_trans) (fun a b => ?_) l
  cases h : cmp a b with
  | lt => rfl
  | eq => rfl
  | gt => rw [Std.OrientedCmp.lt_of_gt h]; rfl

/-- **What is new has a place in a sorted list**: behind whatever has to come before it, and before
the first that need not. -/
theorem exists_place_of_pairwise (h : l.Pairwise fun a b => (cmp a b).isLE = true) (a : α) :
    ∃ before after, l = before ++ after
      ∧ (before ++ a :: after).Pairwise (fun a b => (cmp a b).isLE = true)
      ∧ ∀ b ∈ before, cmp a b = .gt := by
  induction l with
  | nil => exact ⟨[], [], rfl, List.pairwise_singleton _ a, nofun⟩
  | cons b rest ih =>
    obtain ⟨hb, hrest⟩ := List.pairwise_cons.1 h
    by_cases hab : cmp a b = .gt
    · obtain ⟨before, after, rfl, hsorted, hbefore⟩ := ih hrest
      have hle : (cmp b a).isLE = true := by
        rw [Std.OrientedCmp.lt_of_gt hab]
        rfl
      refine ⟨b :: before, after, rfl, List.pairwise_cons.2 ⟨fun x hx => ?_, hsorted⟩,
        List.forall_mem_cons.2 ⟨hab, hbefore⟩⟩
      rcases List.mem_cons.1 (List.perm_middle.mem_iff.1 hx) with rfl | hx
      · exact hle
      · exact hb x hx
    · -- It comes before `b`, and so before all that come after it.
      have hle : (cmp a b).isLE = true := Ordering.isLE_iff_ne_gt.2 hab
      refine ⟨[], b :: rest, rfl, List.pairwise_cons.2 ⟨fun x hx => ?_, h⟩, nofun⟩
      rcases List.mem_cons.1 hx with rfl | hx
      · exact hle
      · exact Std.TransCmp.isLE_trans hle (hb x hx)

/-- What is strictly sorted is determined by what is in it. -/
theorem eq_of_perm_of_pairwise_lt (h : l.Perm l') (hl : l.Pairwise fun a b => cmp a b = .lt)
    (hl' : l'.Pairwise fun a b => cmp a b = .lt) : l = l' := by
  refine h.eq_of_pairwise (fun a b _ _ hab hba => ?_) hl hl'
  rw [Std.OrientedCmp.gt_of_lt hab] at hba
  cases hba

variable {key : α → κ} (hkey : ∀ a b, cmp a b = .eq → key a = key b)
include hkey

/-- **Of two in order the first one is less**, if no two have the same key. Rows that are tied have
the same key, so there are none. -/
theorem pairwise_lt_mergeSort (h : (l.map key).Nodup) :
    (l.mergeSort fun a b => (cmp a b).isLE).Pairwise fun a b => cmp a b = .lt := by
  have hkeys : ((l.mergeSort fun a b => (cmp a b).isLE).map key).Nodup :=
    ((List.mergeSort_perm l _).map key).nodup_iff.2 h
  rw [List.nodup_iff_pairwise_ne, List.pairwise_map] at hkeys
  refine ((pairwise_isLE_mergeSort l).and hkeys).imp (fun {a b} ⟨hle, hne⟩ => ?_)
  cases hab : cmp a b with
  | lt => rfl
  | eq => exact absurd (hkey a b hab) hne
  | gt => rw [hab] at hle; cases hle

/-- **The order before does not matter.** Both lists, sorted, are strictly sorted and have the
same members. -/
theorem mergeSort_eq_of_perm (h : l.Perm l') (hl : (l.map key).Nodup) :
    (l'.mergeSort fun a b => (cmp a b).isLE) = l.mergeSort fun a b => (cmp a b).isLE := by
  have hl' : (l'.map key).Nodup := (h.map key).nodup_iff.1 hl
  refine eq_of_perm_of_pairwise_lt ?_ (pairwise_lt_mergeSort hkey hl')
    (pairwise_lt_mergeSort hkey hl)
  exact (List.mergeSort_perm l' _).trans (h.symm.trans (List.mergeSort_perm l _).symm)

/-- **Leaving some out does not disturb the order.** -/
theorem mergeSort_filter (hl : (l.map key).Nodup) (p : α → Bool) :
    ((l.filter p).mergeSort fun a b => (cmp a b).isLE)
      = (l.mergeSort fun a b => (cmp a b).isLE).filter p := by
  have hfilter : ((l.filter p).map key).Nodup := hl.sublist (List.filter_sublist.map key)
  refine eq_of_perm_of_pairwise_lt ?_ (pairwise_lt_mergeSort hkey hfilter)
    ((pairwise_lt_mergeSort hkey hl).filter p)
  exact (List.mergeSort_perm _ _).trans ((List.mergeSort_perm l _).symm.filter p)

end Sorted

end Tariff
