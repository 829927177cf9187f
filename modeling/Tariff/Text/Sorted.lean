/-!
# Sorted texts

Keys and names are listed in the order of their code points, each once.
-/

namespace Tariff

namespace Text

/-- **The texts of a list, each once, in order.** -/
def sortDistinct (texts : List String) : List String :=
  texts.eraseDups.mergeSort fun a b => (compare a b).isLE

theorem mem_sortDistinct (s : String) (texts : List String) :
    s ∈ sortDistinct texts ↔ s ∈ texts := by
  simp [sortDistinct]

/-- Leaving out repetitions leaves none. -/
theorem nodup_eraseDups {α : Type} [BEq α] [LawfulBEq α] (l : List α) : l.eraseDups.Nodup := by
  match l with
  | [] => simp
  | a :: rest =>
    rw [List.eraseDups_cons, List.nodup_cons]
    refine ⟨fun hmem => ?_, nodup_eraseDups _⟩
    simp at hmem
termination_by l.length
decreasing_by exact Nat.lt_succ_of_le (List.length_filter_le _ _)

theorem nodup_sortDistinct (texts : List String) : (sortDistinct texts).Nodup :=
  (List.mergeSort_perm _ _).nodup_iff.2 (nodup_eraseDups texts)

end Text

end Tariff
