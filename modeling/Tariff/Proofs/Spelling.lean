import Tariff.Proofs.Comparisons
import Tariff.Proofs.Documents

/-!
# How numbers are spelled

A number has many spellings: 12.5 is 12.50 and 012.5 as well. Where a condition compares with a
number, a request may have any of them in its text. Where it compares with a text, the request
has to have this text.

Rules are kept in documents, and a number in a condition comes back from a document as a text
(`Operand.reread`). In a field that holds numbers this makes no difference, since there a number
is made of the text again. In a field that holds texts **the condition has lost all spellings
but one** (`Condition.Suits.evaluate_reread_iff`): it says something else of the requests that
spell a number of it in a way of their own (`Condition.SpelledOtherwise`), and the same as
before of all others.

Some request spells it otherwise wherever a number is compared with the type of a cylinder or
the tier of a customer (`Condition.exists_spelledOtherwise_iff`), since blanks may be put before
it. The third field that holds texts has only names in it, and these are no numbers.
-/

namespace Tariff

/-! ## Operands

An operand is read back from a document as it was, with the exception of a number: this comes back
as a text of its digits. -/

namespace Operand

variable {o : Operand} {a : Decimal} {s : String}

/-- A number is read as its text. -/
theorem reread_number (d : Decimal) : (number d).reread = .text d.toText := by rw [reread]

/-- A text is read as it was. -/
theorem reread_text (s : String) : (text s).reread = .text s := by rw [reread]

/-- A list is read as a list. -/
theorem isList_reread (o : Operand) : o.reread.isList = o.isList := by
  cases o <;> rw [reread] <;> rfl

/-- A text of digits is the number that it was written for. -/
theorem decimal?_text_toText (d : Decimal) :
    (text d.toText).decimal? = some d.unsignedZero := by
  simp only [decimal?, d.trimBlanks_toText, d.parse?_toText]

/-- **As a number an operand stays what it is**: a text of digits is taken for the number that they
spell, wherever a number is asked for. -/
theorem exists_decimal?_reread {d : Decimal} (h : o.decimal? = some d) :
    ∃ d', o.reread.decimal? = some d' ∧ d'.SameNumber d := by
  cases o with
  | number value =>
    obtain rfl : value = d := Option.some.inj h
    rw [reread_number]
    exact ⟨_, decimal?_text_toText value, value.unsignedZero_sameNumber⟩
  | text s =>
    rw [reread_text]
    exact ⟨d, h, rfl⟩
  | list items => cases h

/-- **A number equals an operand** before and after. So nothing changes in fields that
hold numbers. -/
theorem number_looselyEqual_reread (a : Decimal) (o : Operand) :
    (number a).looselyEqual o.reread = (number a).looselyEqual o := by
  cases o with
  | number d =>
    have hsame := d.unsignedZero_sameNumber
    rw [reread_number, looselyEqual_number (decimal?_text_toText d),
      looselyEqual_number (d := d) rfl, decide_eq_decide]
    unfold Decimal.SameNumber at hsame ⊢
    rw [hsame]
  | text s => rw [reread_text]
  | list items =>
    have hlist : (list items).reread.isList = true := isList_reread _
    rw [looselyEqual_of_isList hlist, looselyEqual_of_isList rfl]

/-- Two texts are compared letter by letter. -/
theorem text_looselyEqual_text {s' : String} : (text s).looselyEqual (.text s') = true
    ↔ s = s' := by
  simp only [looselyEqual, beq_iff_eq]

/-- **A text equals what is written as this text**, and nothing else. After reading there are no
numbers left, and two texts are compared as texts. -/
theorem text_looselyEqual_reread_iff : (text s).looselyEqual o.reread = true
    ↔ o.reread = .text s := by
  cases o with
  | number d => rw [reread_number, text_looselyEqual_text, text.injEq, eq_comm]
  | text s' => rw [reread_text, text_looselyEqual_text, text.injEq, eq_comm]
  | list items =>
    have hlist : (list items).reread.isList = true := isList_reread _
    rw [looselyEqual_of_isList hlist, reread]
    exact iff_of_false nofun nofun

/-- **Whether a text spells the operand**, which then is a number. The digits may have zeros around
them and blanks before them. -/
def IsSpelled (o : Operand) (s : String) : Prop :=
  ∃ d, o = .number d ∧ ∃ a, (text s).decimal? = some a ∧ a.SameNumber d

/-- A number is spelled by what it is written as, among others. -/
theorem isSpelled_toText (d : Decimal) : (number d).IsSpelled d.toText :=
  ⟨d, rfl, _, decimal?_text_toText d, d.unsignedZero_sameNumber⟩

/-- **Before it was written, an operand equals all texts that spell it.** Together with the lemma
about what was read this is the difference: of all the spellings one is left. -/
theorem text_looselyEqual_iff : (text s).looselyEqual o = true
    ↔ o.IsSpelled s ∨ o.reread = .text s := by
  cases o with
  | number d =>
    have hspelled : (text s).looselyEqual (.number d) = true ↔ (number d).IsSpelled s := by
      simp only [looselyEqual, sameNumber, IsSpelled, number.injEq, exists_eq_left']
      cases (text s).decimal? with
      | none => simp
      | some a => simp [decimal?]
    rw [hspelled, reread_number, text.injEq]
    refine (or_iff_left_of_imp ?_).symm
    rintro rfl
    exact isSpelled_toText d
  | text s' =>
    have hspelled : ¬(text s').IsSpelled s := by
      rintro ⟨d, h, -⟩
      cases h
    rw [or_iff_right hspelled, ← text_looselyEqual_reread_iff, reread_text]
  | list items =>
    have hspelled : ¬(list items).IsSpelled s := by
      rintro ⟨d, h, -⟩
      cases h
    have hlist : (list items).reread.isList = true := isList_reread _
    rw [or_iff_right hspelled, ← text_looselyEqual_reread_iff, looselyEqual_of_isList hlist,
      looselyEqual_of_isList rfl]

end Operand

/-! ## Conditions

A condition that does not order is a question about its operands one by one, so what was shown of
operands carries over. -/

/-- Whether a comparison is that nothing is equal. -/
def Comparison.isNegated : Comparison → Bool
  | .ne | .notIn => true
  | _ => false

namespace Condition

variable {c : Condition} {r : Request}

/-- **The operands that a condition compares with**: the items of its list, or its operand. -/
def operands (c : Condition) : List Operand :=
  match c.operand with
  | .list items => items
  | o => [o]

theorem operands_of_isList_eq_false (h : c.operand.isList = false) : c.operands = [c.operand] := by
  unfold operands
  split
  · next items hlist =>
    rw [hlist] at h
    cases h
  · rfl

/-- They are read one by one. -/
theorem operands_reread (c : Condition) : c.reread.operands = c.operands.map Operand.reread := by
  obtain ⟨f, x, o⟩ := c
  cases o with
  | list items =>
    show Condition.operands ⟨f, x, (Operand.list items).reread⟩ = items.map Operand.reread
    rw [Operand.reread, Operand.rereadAll_eq_map]
    rfl
  | number d =>
    show Condition.operands ⟨f, x, (Operand.number d).reread⟩ = [(Operand.number d).reread]
    rw [operands_of_isList_eq_false (Operand.isList_reread _)]
  | text s =>
    show Condition.operands ⟨f, x, (Operand.text s).reread⟩ = [(Operand.text s).reread]
    rw [operands_of_isList_eq_false (Operand.isList_reread _)]

/-- **A condition still suits** after it was read. -/
theorem Suits.reread (h : c.Suits) : c.reread.Suits where
  list hc := by
    obtain ⟨items, hoperand, hitems⟩ := h.list hc
    refine ⟨items.map Operand.reread, ?_, ?_⟩
    · show c.operand.reread = _
      rw [hoperand, Operand.reread, Operand.rereadAll_eq_map]
    · intro o ho
      obtain ⟨o', ho', rfl⟩ := List.mem_map.1 ho
      rw [Operand.isList_reread, hitems o' ho']
  single hc := (Operand.isList_reread _).trans (h.single hc)
  number hc := by
    obtain ⟨hfield, d, hd⟩ := h.number hc
    obtain ⟨d', hd', -⟩ := Operand.exists_decimal?_reread hd
    exact ⟨hfield, d', hd'⟩

/-- **A condition that does not order asks whether an operand is equal**, or whether none is. So all
four of these comparisons are one, up to a negation. -/
theorem Suits.test_eq_any (h : c.Suits) (hx : c.comparison.isOrdering = false)
    (actual : Operand) :
    c.test actual = .ok (c.comparison.isNegated ^^ c.operands.any actual.looselyEqual) := by
  obtain ⟨f, x, o⟩ := c
  cases x with
  | eq =>
    have ho := h.single rfl
    rw [test_eq ho, operands_of_isList_eq_false ho]
    simp [Comparison.isNegated]
  | ne =>
    have ho := h.single rfl
    rw [test_ne ho, operands_of_isList_eq_false ho]
    simp [Comparison.isNegated]
  | gt | gte | lt | lte => cases hx
  | isIn | notIn =>
    obtain ⟨items, rfl, -⟩ := h.list rfl
    simp [Condition.test, Condition.items, Comparison.isNegated, operands, bind, Except.bind, pure,
      Except.pure]

/-- **A request spells a number of the condition otherwise** than it is written: it has a text
in the field that is a number of the condition, and is not what any of the operands is written
as. The last part is there since another operand may be that very text, and then the condition
says the same. -/
def SpelledOtherwise (c : Condition) (r : Request) : Prop :=
  ∃ s, r.operand? c.field = some (.text s) ∧ (∃ o ∈ c.operands, o.IsSpelled s)
    ∧ ∀ o ∈ c.operands, o.reread ≠ .text s

/-- A request has a number or a text in a field. -/
theorem number_or_text_of_operand? {f : Field} {actual : Operand}
    (h : r.operand? f = some actual) : (∃ a, actual = .number a) ∨ ∃ s, actual = .text s := by
  unfold Request.operand? at h
  cases f <;> obtain ⟨x, -, rfl⟩ := Option.map_eq_some_iff.1 h <;> simp

/-- **Of a number a condition says the same** after it was read, whether it orders or not. -/
theorem Suits.test_reread_number (h : c.Suits) (a : Decimal) :
    c.reread.test (.number a) = c.test (.number a) := by
  cases hx : c.comparison.isOrdering with
  | true =>
    obtain ⟨-, d, hd⟩ := h.number hx
    obtain ⟨d', hd', hsame⟩ := Operand.exists_decimal?_reread hd
    obtain ⟨f, x, o⟩ := c
    have hmember := Comparison.isMembership_eq_false hx
    unfold Decimal.SameNumber at hsame
    rw [test_of_numbers hd hmember, ← hsame]
    exact test_of_numbers hd' hmember
  | false =>
    have hany : c.reread.operands.any (Operand.number a).looselyEqual
        = c.operands.any (Operand.number a).looselyEqual := by
      rw [operands_reread, List.any_map]
      exact congrArg _ (funext fun o => Operand.number_looselyEqual_reread a o)
    rw [h.test_eq_any hx, ← hany]
    exact h.reread.test_eq_any hx _

/-- **Of a text it says the same** unless the text spells a number otherwise. If it does, some
operand was equal before, and none is now, which a negation does not mend. -/
theorem Suits.test_reread_text_iff (h : c.Suits) (hx : c.comparison.isOrdering = false)
    (s : String) : c.reread.test (.text s) = c.test (.text s)
      ↔ ¬((∃ o ∈ c.operands, o.IsSpelled s) ∧ ∀ o ∈ c.operands, o.reread ≠ .text s) := by
  have hbefore : c.operands.any (Operand.text s).looselyEqual = true
      ↔ (∃ o ∈ c.operands, o.IsSpelled s) ∨ ∃ o ∈ c.operands, o.reread = .text s := by
    simp only [List.any_eq_true, Operand.text_looselyEqual_iff, and_or_left, exists_or]
  have hafter : c.reread.operands.any (Operand.text s).looselyEqual = true
      ↔ ∃ o ∈ c.operands, o.reread = .text s := by
    simp only [operands_reread, List.any_map, List.any_eq_true, Function.comp_apply,
      Operand.text_looselyEqual_reread_iff]
  have htest : c.reread.test (.text s) = .ok (c.comparison.isNegated
      ^^ c.reread.operands.any (Operand.text s).looselyEqual) := h.reread.test_eq_any hx _
  rw [htest, h.test_eq_any hx, Except.ok.injEq, Bool.xor_right_inj, Bool.eq_iff_iff, hbefore,
    hafter]
  constructor
  · rintro hiff ⟨hspelled, hnone⟩
    obtain ⟨o, ho, heq⟩ := hiff.2 (.inl hspelled)
    exact hnone o ho heq
  · intro hnot
    refine ⟨.inr, fun hor => hor.elim (fun hspelled => ?_) id⟩
    by_contra hnone
    exact hnot ⟨hspelled, fun o ho heq => hnone ⟨o, ho, heq⟩⟩

/-- **A condition says the same of a request** after it was read, unless the request spells one of
its numbers otherwise. -/
theorem Suits.evaluate_reread_iff (h : c.Suits) (r : Request) :
    c.reread.evaluate r = c.evaluate r ↔ ¬c.SpelledOtherwise r := by
  have hfield : c.reread.field = c.field := rfl
  unfold evaluate SpelledOtherwise
  rw [hfield]
  cases hactual : r.operand? c.field with
  | none => simp
  | some actual =>
    obtain ⟨a, rfl⟩ | ⟨s, rfl⟩ := number_or_text_of_operand? hactual
    · simp [h.test_reread_number a]
    · have hx : c.comparison.isOrdering = false := by
        -- A field whose values are put in order holds numbers.
        by_contra hx
        obtain ⟨a, ha⟩ := exists_number_of_operand? (h.number (by simpa using hx)).1 hactual
        cases ha
      simp only [h.test_reread_text_iff hx, Option.some.injEq, Operand.text.injEq, exists_eq_left']

/-! ## Which conditions can be misread

Whether a request spells a number otherwise is about that request. Whether any does is a matter of
the condition alone. -/

/-- The names of operations are no numbers. -/
theorem decimal?_operation_name (op : Operation) :
    (Operand.text op.name).decimal? = none := by
  cases op <;> rfl

/-- **Whether a condition compares the type of a cylinder or the tier of a customer with a
number.** -/
def ComparesTextWithNumber (c : Condition) : Prop :=
  (c.field = .cylinderType ∨ c.field = .customerTier) ∧ ∃ d, .number d ∈ c.operands

/-- Blanks before a number are spelling, as many as there may be. -/
theorem isSpelled_blanks (d : Decimal) (n : ℕ) :
    (Operand.number d).IsSpelled (String.ofList (List.replicate n ' ' ++ d.toText.toList)) := by
  refine ⟨d, rfl, d.unsignedZero, ?_, d.unsignedZero_sameNumber⟩
  simp only [Operand.decimal?, d.trimBlanks_append_toText, d.parse?_toText]

/-- What operands are written as has some length. So a text that is longer is none of them. -/
theorem exists_length_lt (operands : List Operand) :
    ∃ n, ∀ o ∈ operands, ∀ s, o.reread = .text s → s.length < n := by
  induction operands with
  | nil => exact ⟨0, by simp⟩
  | cons o rest ih =>
    obtain ⟨n, hn⟩ := ih
    cases ho : o.reread with
    | text s =>
      refine ⟨max n (s.length + 1),
        List.forall_mem_cons.2 ⟨fun s' hs' => ?_, fun o' ho' s' hs' => ?_⟩⟩
      · obtain rfl : s = s' := Operand.text.inj (ho.symm.trans hs')
        omega
      · have := hn o' ho' s' hs'
        omega
    | number d | list items =>
      refine ⟨n, List.forall_mem_cons.2 ⟨fun s' hs' => ?_, hn⟩⟩
      rw [ho] at hs'
      cases hs'

/-- **These are the conditions that some request spells otherwise.** A number in such a condition is
spelled with more blanks before it than any of its operands has letters. In the third field that
holds texts there are names of operations, and no name is a number. -/
theorem exists_spelledOtherwise_iff (c : Condition) :
    (∃ r, c.SpelledOtherwise r) ↔ c.ComparesTextWithNumber := by
  constructor
  · rintro ⟨r, s, hs, ⟨o, ho, d, rfl, a, ha, -⟩, -⟩
    refine ⟨?_, d, ho⟩
    cases hf : c.field with
    | cylinderType => exact .inl rfl
    | customerTier => exact .inr rfl
    | operationType =>
      rw [hf] at hs
      obtain ⟨op, -, heq⟩ := Option.map_eq_some_iff.1 hs
      cases heq
      rw [decimal?_operation_name] at ha
      cases ha
    | outletId | quantity | cylinderSize =>
      rw [hf] at hs
      obtain ⟨x, -, heq⟩ := Option.map_eq_some_iff.1 hs
      cases heq
  · rintro ⟨hfield, d, hd⟩
    -- With enough blanks a text is longer than all that the operands are written as.
    obtain ⟨n, hn⟩ := exists_length_lt c.operands
    let s := String.ofList (List.replicate n ' ' ++ d.toText.toList)
    have hlength : n ≤ s.length := by
      simp only [s, String.length_ofList, List.length_append, List.length_replicate]
      omega
    have hspelled : ∃ o ∈ c.operands, o.IsSpelled s := ⟨_, hd, isSpelled_blanks d n⟩
    have hother : ∀ o ∈ c.operands, o.reread ≠ .text s := fun o ho heq =>
      absurd (hn o ho s heq) (by omega)
    rcases hfield with hfield | hfield
    · exact ⟨{ cylinderType := some s }, s, by rw [hfield]; rfl, hspelled, hother⟩
    · exact ⟨{ customerTier := some s }, s, by rw [hfield]; rfl, hspelled, hother⟩

end Condition

end Tariff
