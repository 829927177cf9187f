import Mathlib.Data.List.Forall2
import Tariff.Rule.Condition

/-!
# Which JSON values are operands

An operand is written as a number, a text or an array of operands. It is read by going through
the arrays from left to right, and what is read first and is no operand ends the reading.

What there is to go through are the **leaves** of the value (`Json.leaves`): everything in it
that is no array. An object is a leaf as a whole, for what is inside is not looked at. Reading is
then said without the recursion. A value is an operand if all its leaves are texts, or numbers
that decimals can hold; the operand has a list for each array, and the leaves in their places
(`Operand.Reads`); and what is told otherwise is why the first leaf that is none is none
(`Operand.ofJson_exact`).
-/

namespace Tariff

namespace Json

mutual

/-- **The leaves of a value**, from left to right. -/
def leaves : Json → List Json
  | .array items => leavesAll items
  | .null => [.null]
  | .bool b => [.bool b]
  | .number n => [.number n]
  | .string s => [.string s]
  | .object members => [.object members]

/-- The leaves of the items of an array. -/
def leavesAll : List Json → List Json
  | [] => []
  | j :: rest => j.leaves ++ leavesAll rest

end

end Json

namespace Operand

/-- **A leaf that is an operand**: a text, or a number that a decimal holds. A text always is one,
also where it looks like a number or says nothing. -/
def IsOperandLeaf (leaf : Json) : Prop :=
  (∃ s, leaf = .string s) ∨ ∃ n d, leaf = .number n ∧ Decimal.parse? n.text = some d

/-- **Why a leaf is no operand**, if it is none: its number is beyond the limits of decimals, or it
is neither number nor text. -/
def refusal? : Json → Option Refusal
  | .number n =>
    match Decimal.ofNotation n.text with
    | .ok _ => none
    | .error r => some (.number r)
  | .string _ => none
  | leaf => some (.shape leaf)

/-- **A value is read as an operand** of the same shape: texts as they are, and numbers as the
decimals of their texts. There is no clause for truth values, `null` and objects, and that is all
there is to say against them. An empty array is an empty list. -/
inductive Reads : Json → Operand → Prop
  | number {n : Json.Number} {d : Decimal} (h : Decimal.parse? n.text = some d) :
      Reads (.number n) (.number d)
  | text (s : String) : Reads (.string s) (.text s)
  | list {items : List Json} {operands : List Operand} (h : List.Forall₂ Reads items operands) :
      Reads (.array items) (.list operands)

/-- The notation of a number is read where its text is one of a decimal. -/
theorem ofNotation_eq_ok_iff {text : String} {d : Decimal} :
    Decimal.ofNotation text = .ok d ↔ Decimal.parse? text = some d := by
  unfold Decimal.ofNotation
  cases Decimal.parse? text with
  | some d' => simp
  | none =>
    dsimp only
    split <;> simp

/-- There is no reason against a leaf exactly if it is an operand. -/
theorem refusal?_eq_none_iff {leaf : Json} : refusal? leaf = none ↔ IsOperandLeaf leaf := by
  cases leaf with
  | number n =>
    simp only [refusal?, IsOperandLeaf, ← ofNotation_eq_ok_iff, reduceCtorEq, exists_false,
      false_or, Json.number.injEq]
    cases hn : Decimal.ofNotation n.text with
    | ok d => simp [hn]
    | error r => simp [hn]
  | _ => simp [refusal?, IsOperandLeaf]

/-! ## What is read

A value has the operand that it is read as, and is read as the operand it has. Both directions are
proved by recursion over values and lists of values together, as the reader goes through them. -/

mutual

/-- **What is read has the shape of the value.** -/
theorem reads_of_ofJson {j : Json} {o : Operand} (h : ofJson j = .ok o) : Reads j o := by
  cases j with
  | number n =>
    rw [ofJson] at h
    split at h
    · next d hd =>
      cases h
      exact .number (ofNotation_eq_ok_iff.1 hd)
    · cases h
  | string s =>
    cases h
    exact .text s
  | array items =>
    rw [ofJson] at h
    split at h
    · next operands hitems =>
      cases h
      exact .list (reads_of_ofJsons hitems)
    · cases h
  | null | bool | object => cases h

/-- So have the items of an array, one by one. -/
theorem reads_of_ofJsons {items : List Json} {operands : List Operand}
    (h : ofJsons items = .ok operands) : List.Forall₂ Reads items operands := by
  cases items with
  | nil =>
    cases h
    exact .nil
  | cons j rest =>
    rw [ofJsons] at h
    split at h
    · cases h
    · next o hj =>
      split at h
      · cases h
      · next operands' hrest =>
        cases h
        exact .cons (reads_of_ofJson hj) (reads_of_ofJsons hrest)

end

mutual

/-- **A value of an operand's shape is read as that operand**, so there is only one of its shape. -/
theorem ofJson_of_reads {j : Json} {o : Operand} (h : Reads j o) : ofJson j = .ok o := by
  cases j with
  | number n =>
    cases h with
    | number hd => rw [ofJson, ofNotation_eq_ok_iff.2 hd]
  | string s =>
    cases h
    rfl
  | array items =>
    cases h with
    | list hitems => rw [ofJson, ofJsons_of_reads hitems]
  | null | bool | object => cases h

/-- So are the items of an array. -/
theorem ofJsons_of_reads {items : List Json} {operands : List Operand}
    (h : List.Forall₂ Reads items operands) : ofJsons items = .ok operands := by
  cases items with
  | nil =>
    cases h
    rfl
  | cons j rest =>
    cases h with
    | cons hj hrest => simp only [ofJsons, ofJson_of_reads hj, ofJsons_of_reads hrest]

end

/-! ## What is refused

The reader stops where it meets the first leaf that is no operand. With lists this takes both halves
of a recursion: that nothing before it is refused, and that nothing after it is looked at. -/

mutual

/-- **What is told** is why the first leaf that is no operand is none. The first one is the first
from left to right, however deep it is, and not the first among the outermost. -/
theorem ofJson_eq_error_iff (j : Json) {r : Refusal} :
    ofJson j = .error r ↔ j.leaves.findSome? refusal? = some r := by
  cases j with
  | number n =>
    simp only [ofJson, Json.leaves, List.findSome?_singleton, refusal?]
    cases Decimal.ofNotation n.text <;> simp
  | array items =>
    have hitems := ofJsons_eq_error_iff items (r := r)
    rw [Json.leaves, ← hitems, ofJson]
    split
    · next heq => simp [heq]
    · next heq => simp [heq]
  | string s => simp [ofJson, Json.leaves, refusal?]
  | null | bool | object => simp [ofJson, Json.leaves, refusal?]

/-- The same of the items of an array: one of them is refused, and all those before it have
been read. -/
theorem ofJsons_eq_error_iff (items : List Json) {r : Refusal} :
    ofJsons items = .error r ↔ (Json.leavesAll items).findSome? refusal? = some r := by
  cases items with
  | nil => simp [ofJsons, Json.leavesAll]
  | cons j rest =>
    rw [ofJsons, Json.leavesAll, List.findSome?_append]
    cases hj : ofJson j with
    | error r' => simp [(ofJson_eq_error_iff j).1 hj]
    | ok o =>
      have hnone : j.leaves.findSome? refusal? = none := by
        refine Option.eq_none_iff_forall_ne_some.2 fun r' hr' => ?_
        rw [(ofJson_eq_error_iff j).2 hr'] at hj
        cases hj
      rw [hnone, Option.none_or, ← ofJsons_eq_error_iff rest]
      dsimp only
      cases ofJsons rest <;> simp

end

/-- **The values that are operands, what they are read as, and what is told of the others.** A value
is an operand exactly if all its leaves are texts or numbers that decimals can hold, so that
there is no `null`, truth value or object anywhere in it. It is then read as the operand of its
shape. Otherwise the first leaf that is no operand, from left to right, is what is told of. -/
theorem ofJson_exact (j : Json) :
    ((∃ o, ofJson j = .ok o) ↔ ∀ leaf ∈ j.leaves, IsOperandLeaf leaf)
      ∧ (∀ o, ofJson j = .ok o ↔ Reads j o)
      ∧ ∀ r, ofJson j = .error r ↔ ∃ before leaf after, j.leaves = before ++ leaf :: after
        ∧ (∀ x ∈ before, IsOperandLeaf x) ∧ refusal? leaf = some r := by
  refine ⟨?_, fun o => ⟨reads_of_ofJson, ofJson_of_reads⟩, fun r => ?_⟩
  -- It is read or it is refused, and it is refused where some leaf is.
  · have hleaves : j.leaves.findSome? refusal? = none ↔ ∀ leaf ∈ j.leaves, IsOperandLeaf leaf := by
      simp only [List.findSome?_eq_none_iff, refusal?_eq_none_iff]
    rw [← hleaves]
    cases hj : ofJson j with
    | ok o =>
      refine iff_of_true ⟨o, rfl⟩ (Option.eq_none_iff_forall_ne_some.2 fun r hr => ?_)
      rw [(ofJson_eq_error_iff j).2 hr] at hj
      cases hj
    | error r =>
      rw [(ofJson_eq_error_iff j).1 hj]
      exact iff_of_false nofun nofun
  · simp only [ofJson_eq_error_iff, List.findSome?_eq_some_iff, refusal?_eq_none_iff]
    constructor
    · rintro ⟨before, leaf, after, hsplit, hleaf, hbefore⟩
      exact ⟨before, leaf, after, hsplit, hbefore, hleaf⟩
    · rintro ⟨before, leaf, after, hsplit, hbefore, hleaf⟩
      exact ⟨before, leaf, after, hsplit, hleaf, hbefore⟩

/-- The truth value comes first, one array further in. -/
example : ofJson (.array [.string "gold", .array [.bool true, .null], .object []])
    = .error (.shape (.bool true)) := rfl

end Operand

end Tariff
