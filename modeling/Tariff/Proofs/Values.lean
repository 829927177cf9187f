import Tariff.Proofs.Numerals
import Tariff.Setting.Basic

/-!
# Values survive

A value is written to documents in two forms and read back with its type at hand. The type is
needed, and it is not part of the form: a number is written as a text, and so is a text. What
the form leaves open the type has to settle, and **whatever is written is read as the same value
again** (`Value.SurvivesAs`), a number up to its trailing zeros and the sign of a zero.

A value that was read from some document is a value of the type that was asked for, so it can be
written once more and survives like any other (`Value.survives_forms`). The numbers of documents
have many notations; after the first reading only one of them is left.
-/

namespace Tariff

namespace Value

/-- **Values are the same** if they are the same number, or no numbers and equal. -/
inductive Same : Value → Value → Prop
  | number {a b : Decimal} (h : a.SameNumber b) : Same (.number a) (.number b)
  | other {v : Value} (h : v.decimal? = none) : Same v v

/-- **A value survives in a form** if the form is read, for the type of the value, as the same
value. -/
def SurvivesAs (v : Value) (form : Json) : Prop :=
  ∃ w, ofJson v.dataType form = .ok w ∧ v.Same w

/-- A number survives as the text of any decimal that is the same number. -/
theorem survivesAs_toText {d e : Decimal} (h : d.SameNumber e) :
    (Value.number d).SurvivesAs (.string e.toText) := by
  refine ⟨.number e.unsignedZero, ?_, .number (h.trans e.unsignedZero_sameNumber.symm)⟩
  simp only [ofJson, dataType, e.trimBlanks_toText, e.parse?_toText]

/-- **A value survives in snapshots.** -/
theorem survivesAs_toJson (v : Value) : v.SurvivesAs v.toJson := by
  cases v with
  | number d => exact survivesAs_toText rfl
  | boolean b => exact ⟨_, rfl, .other rfl⟩
  | text s => exact ⟨_, rfl, .other rfl⟩
  | json j => exact ⟨.json j, by cases j <;> rfl, .other rfl⟩
  | array items => exact ⟨_, rfl, .other rfl⟩

/-- **A value survives in its plain form.** -/
theorem survivesAs_toPlainJson (v : Value) : v.SurvivesAs v.toPlainJson := by
  cases v with
  | number d => exact survivesAs_toText d.normalize_sameNumber.symm
  | boolean b => exact survivesAs_toJson (.boolean b)
  | text s => exact survivesAs_toJson (.text s)
  | json j => exact survivesAs_toJson (.json j)
  | array items => exact survivesAs_toJson (.array items)

/-- **What is read is of the type that was asked for.** -/
theorem dataType_of_ofJson {type : DataType} {raw : Json} {v : Value}
    (h : ofJson type raw = .ok v) : v.dataType = type := by
  unfold ofJson at h
  split at h
  · split at h <;> cases h
    rfl
  · split at h <;> cases h
    rfl
  all_goals cases h
  all_goals rfl

/-- **Values survive.** Every value is the same after it was written in its plain form and read
again, and after it was read from the snapshot of its setting; and what is read from any
document as a value of some type is of that type and survives in both forms. -/
theorem survives_forms : (∀ v : Value, v.SurvivesAs v.toPlainJson ∧ v.SurvivesAs v.toJson)
    ∧ (∀ x : Setting, ∃ form, x.toJson.member? "value" = some form ∧ x.value.SurvivesAs form)
    ∧ ∀ type raw v, ofJson type raw = .ok v →
        v.dataType = type ∧ v.SurvivesAs v.toPlainJson ∧ v.SurvivesAs v.toJson :=
  ⟨fun v => ⟨v.survivesAs_toPlainJson, v.survivesAs_toJson⟩,
    fun x => ⟨x.value.toJson, rfl, x.value.survivesAs_toJson⟩,
    fun _ _ v h => ⟨dataType_of_ofJson h, v.survivesAs_toPlainJson, v.survivesAs_toJson⟩⟩

/-- A number with blanks around it and a zero at its end is written without both. -/
theorem survives_forms_sixty : ∃ v, ofJson .number (.string " 60.0 ") = .ok v
    ∧ v.toPlainJson = .string "60" ∧ v.toJson = .string "60.0" ∧ v.dataType = .number
    ∧ v.SurvivesAs v.toPlainJson ∧ v.SurvivesAs v.toJson :=
  have hread : ofJson .number (.string " 60.0 ")
      = .ok (.number ⟨false, 600, 1, by decide, by decide⟩) := rfl
  ⟨_, hread, rfl, rfl, survives_forms.2.2 _ _ _ hread⟩

end Value

end Tariff
