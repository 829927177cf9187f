import Tariff.Proofs.JsonText
import Tariff.Proofs.Timestamps
import Tariff.Rule.Basic

/-!
# Rules come back from documents

A draft of a rule is written as an object with eleven members, and an object is read as a draft
member by member. Each member has a writer and a reader of its own, and a draft comes back if
for each of them the one undoes the other.

Most of them do. **The operands of conditions do not**: a number is written as a text, and a
text is read as a text, so that a number comes back as the text of its digits
(`Operand.reread`). The values of actions are written as texts as well, but are read as numbers.
What comes back of a draft is `Draft.reread`; whether it still says the same is another
question.

Nothing more is lost on the way through a text. A draft has no binary numbers in it, and its
members are written in order, so its document comes back from its text (`Draft.isPlain_toJson`).
-/

namespace Tariff

/-! ## Names

The names of operations, types, fields, comparisons and kinds of action are all different, so that
each is read back. There are few of each, and all are gone through. -/

theorem Operation.ofName?_name (op : Operation) : ofName? op.name = some op := by cases op <;> rfl

theorem RuleType.ofName?_name (t : RuleType) : ofName? t.name = some t := by cases t <;> rfl

theorem Field.ofName?_name (f : Field) : ofName? f.name = some f := by cases f <;> rfl

theorem Comparison.ofName?_name (x : Comparison) : ofName? x.name = some x := by cases x <;> rfl

theorem Adjustment.ofName?_name (k : Adjustment) : ofName? k.name = some k := by cases k <;> rfl

/-! ## Simple values

Each of these is a pair of a writer and a reader. Objects are put together from them. -/

namespace Document

variable {α β : Type}

/-- **An integer is read as it was written**, where it is in range. An integer in a document is a
number of 64 bits, with a sign or without. -/
theorem int?_ofInt {lo hi n : Int} (h : lo ≤ n ∧ n ≤ hi) (hlo : -2 ^ 63 ≤ lo)
    (hhi : hi < 2 ^ 64) : int? lo hi (Json.ofInt n) = some n := by
  have hlong : -2 ^ 63 ≤ n ∧ n < 2 ^ 64 := by omega
  have hnumber : Json.ofInt n = .number (.int n hlong) := by
    unfold Json.ofInt Json.Number.ofInt
    rw [dif_pos hlong]
  have hsign : decide (lo < 0) = true ∨ 0 ≤ n := by
    rw [decide_eq_true_iff]
    omega
  have hinteger : integer? (decide (lo < 0)) (Json.number (.int n hlong)) = some n := if_pos hsign
  unfold int?
  rw [hnumber, hinteger]
  exact if_pos h

theorem int32?_ofInt (n : Int32) : int32? (Json.ofInt n.toInt) = some n := by
  have hlo := n.le_toInt
  have hhi := n.toInt_lt
  unfold int32?
  rw [int?_ofInt (by omega) (by decide) (by decide), Option.map_some, Int32.ofInt_toInt]

theorem int64?_ofInt64 (n : Int64) : int64? (Json.ofInt64 n) = some n := by
  have hlo := n.le_toInt
  have hhi := n.toInt_lt
  unfold int64? Json.ofInt64
  rw [int?_ofInt (by omega) (by decide) (by decide), Option.map_some, Int64.ofInt_toInt]

/-- An instant comes back from its text, if its year has four digits at most; the notation has
no others. -/
theorem instant?_ofInstant {t : Instant} (h : t.IsWritable) :
    instant? (Json.ofInstant t) = some t := by
  have htext : text? (Json.ofInstant t) = some t.toText := rfl
  unfold instant?
  rw [htext, Option.bind_some, Instant.parse?_toText h]

/-- **A list is read item by item.** If each item comes back as something, the list comes back as
the list of these. -/
theorem list?_ofList {toJson : α → Json} {item? : Json → Option β} {f : α → β} {items : List α}
    (h : ∀ a ∈ items, item? (toJson a) = some (f a)) :
    list? item? (Json.ofList toJson items) = some (items.map f) := by
  show (items.map toJson).mapM item? = _
  induction items with
  | nil => rfl
  | cons a rest ih =>
    obtain ⟨ha, hrest⟩ := List.forall_mem_cons.1 h
    rw [List.map_cons, List.mapM_cons, ha, ih hrest]
    rfl

/-- **What is absent is written as nothing** and read as absent. It has to be known that what is
present is not written as nothing, or it would be read as absent too. -/
theorem optional_ofOption {fields : String → Option Json} {name : String} {toJson : α → Json}
    {read? : Json → Option α} {o : Option α} (hfield : fields name = some (Json.ofOption toJson o))
    (hread : ∀ a ∈ o, read? (toJson a) = some a) (hnull : ∀ a ∈ o, (toJson a).isNull = false) :
    optional fields name read? = some o := by
  unfold optional
  rw [hfield]
  cases o with
  | none => rfl
  | some a =>
    show (if (toJson a).isNull then some none else (read? (toJson a)).map some) = _
    rw [hnull a rfl, hread a rfl]
    rfl

end Document

/-! ## Conditions

Here something is lost: a number in the operand is written as a text, and nothing tells afterwards
that it was one. -/

namespace Operand

mutual

/-- **What is read of an operand that was written**: a number becomes a text, the text of its
digits. A list is read item by item, so that numbers in lists become texts as well. -/
def reread : Operand → Operand
  | .number d => .text d.toText
  | .text s => .text s
  | .list items => .list (rereadAll items)

/-- What is read of the operands of a list. -/
def rereadAll : List Operand → List Operand
  | [] => []
  | o :: rest => o.reread :: rereadAll rest

end

theorem rereadAll_eq_map (items : List Operand) : rereadAll items = items.map reread := by
  induction items with
  | nil => rfl
  | cons o rest ih => rw [rereadAll, ih, List.map_cons]

mutual

/-- **An operand is read as what its form says.** Its form does not tell a number from a text, so
this is all that can come back. -/
theorem ofJson_toJson (o : Operand) : ofJson o.toJson = .ok o.reread := by
  cases o with
  | number d => rfl
  | text s => rfl
  | list items =>
    have hitems := ofJsons_toJsons items
    simp only [toJson, ofJson, hitems, reread]

theorem ofJsons_toJsons (items : List Operand) :
    ofJsons (toJsons items) = .ok (rereadAll items) := by
  cases items with
  | nil => rfl
  | cons o rest =>
    have ho := ofJson_toJson o
    have hrest := ofJsons_toJsons rest
    simp only [toJsons, ofJsons, ho, hrest, rereadAll]

end

end Operand

/-- What is read of a condition. -/
def Condition.reread (c : Condition) : Condition := { c with operand := c.operand.reread }

/-- A condition comes back but for its operand. -/
theorem Condition.ofDocument?_toJson (c : Condition) :
    ofDocument? c.toJson = some c.reread := by
  have hoperand : (Operand.ofJson c.operand.toJson).toOption = some c.operand.reread := by
    rw [c.operand.ofJson_toJson]
    rfl
  have hfield := c.field.ofName?_name
  have hcomparison := c.comparison.ofName?_name
  show (do
    let field ← Field.ofName? c.field.name
    let comparison ← Comparison.ofName? c.comparison.name
    let operand ← (Operand.ofJson c.operand.toJson).toOption
    some (Condition.mk field comparison operand)) = _
  rw [hfield, hcomparison, hoperand]
  rfl

/-! ## Actions

The value of an action is written as a text as well, but it is read as a number whatever it is
written as. -/

/-- **What is read of an action**: a zero has no sign. The text of a number has one, but of a zero
that is read it is dropped. -/
def Action.reread (a : Action) : Action := { a with value := a.value.unsignedZero }

/-- An action comes back but for the sign of a zero. -/
theorem Action.ofDocument?_toJson (a : Action) : ofDocument? a.toJson = some a.reread := by
  show (do
    let kind ← Adjustment.ofName? a.kind.name
    let value ← Decimal.parse? a.value.toText
    some (Action.mk kind value)) = _
  rw [a.kind.ofName?_name, a.value.parse?_toText]
  rfl

/-! ## Drafts

A draft has eleven members, with a pair of lemmas for each kind of them. The dates come back only
where they can be written at all. -/

namespace Draft

/-- **What is read of a draft**: its name, its type, its window and all else that is text, instant
or integer comes back as it was; its conditions and actions come back as they do. -/
def reread (d : Draft) : Draft :=
  { d with
    conditions := d.conditions.map Condition.reread
    actions := d.actions.map Action.reread }

/-- **The notation has the dates of a draft**, as far as it has any. A date with a year of five
digits has no text that is read again. -/
structure HasWritableDates (d : Draft) : Prop where
  validFrom : ∀ t ∈ d.validFrom, t.IsWritable
  validUntil : ∀ t ∈ d.validUntil, t.IsWritable

/-- **A draft is read from its document.** -/
theorem ofDocument?_toJson {d : Draft} (h : d.HasWritableDates) :
    ofDocument? d.toJson = some d.reread := by
  -- The members of the object by their names, and what each reader makes of its member.
  let fields : String → Option Json := fun name => d.toJson.member? name
  have hname : Document.required fields "name" Document.text? = some d.name := rfl
  have hdescription : Document.optional fields "description" Document.text? = some d.description :=
    Document.optional_ofOption rfl (fun _ _ => rfl) fun _ _ => rfl
  have hruleType : Document.required fields "rule_type" RuleType.ofDocument? = some d.ruleType :=
    d.ruleType.ofName?_name
  have hconditions : Document.withDefault fields "conditions" []
      (Document.list? Condition.ofDocument?) = some (d.conditions.map Condition.reread) :=
    Document.list?_ofList fun c _ => c.ofDocument?_toJson
  have hactions : Document.required fields "actions" (Document.list? Action.ofDocument?)
      = some (d.actions.map Action.reread) :=
    Document.list?_ofList fun a _ => a.ofDocument?_toJson
  have hoperations : Document.withDefault fields "operation_types" []
      (Document.list? Operation.ofDocument?) = some d.operationTypes :=
    (Document.list?_ofList fun op _ => op.ofName?_name).trans (by rw [List.map_id'])
  have houtlets : Document.optional fields "outlet_ids" (Document.list? Document.int64?)
      = some d.outletIds :=
    Document.optional_ofOption rfl (fun _ _ =>
      (Document.list?_ofList fun n _ => Document.int64?_ofInt64 n).trans (by rw [List.map_id']))
      fun _ _ => rfl
  have hpriority : Document.withDefault fields "priority" 0 Document.int32? = some d.priority :=
    Document.int32?_ofInt d.priority
  have hactive : Document.withDefault fields "active" true Document.bool? = some d.active := rfl
  have hfrom : Document.optional fields "valid_from" Document.instant? = some d.validFrom :=
    Document.optional_ofOption rfl (fun t ht => Document.instant?_ofInstant (h.validFrom t ht))
      fun _ _ => rfl
  have huntil : Document.optional fields "valid_until" Document.instant? = some d.validUntil :=
    Document.optional_ofOption rfl (fun t ht => Document.instant?_ofInstant (h.validUntil t ht))
      fun _ _ => rfl
  have hfields : Document.fields? ["name", "description", "rule_type", "conditions", "actions"]
      ["operation_types", "outlet_ids", "priority", "active", "valid_from", "valid_until"] d.toJson
    = some fields := rfl
  unfold ofDocument?
  rw [hfields]
  simp only [Option.bind_eq_bind, Option.bind_some, hname, hdescription, hruleType, hconditions,
    hactions, hoperations, houtlets, hpriority, hactive, hfrom, huntil]
  rfl

end Draft

/-! ## The texts of documents

So far documents were values. They are kept as texts, and a value comes back from its text if it is
plain; the values that drafts are written as are. -/

namespace Json.IsPlain

variable {α : Type} {toJson : α → Json}

theorem ofInt {n : Int} (h : -2 ^ 63 ≤ n ∧ n < 2 ^ 64) : IsPlain (Json.ofInt n) := by
  unfold Json.ofInt Number.ofInt
  rw [dif_pos h]
  exact .int n h

theorem ofList (h : ∀ a, IsPlain (toJson a)) (items : List α) :
    IsPlain (Json.ofList toJson items) :=
  .array (List.forall_mem_map.2 fun a _ => h a)

theorem ofOption (h : ∀ a, IsPlain (toJson a)) (o : Option α) :
    IsPlain (Json.ofOption toJson o) := by
  cases o with
  | none => exact .null
  | some a => exact h a

theorem ofInt64 (n : Int64) : IsPlain (Json.ofInt64 n) := by
  have hlo := n.le_toInt
  have hhi := n.toInt_lt
  exact ofInt (by omega)

theorem ofInstant (t : Instant) : IsPlain (Json.ofInstant t) := .string t.toText

end Json.IsPlain

namespace Operand

mutual

theorem isPlain_toJson (o : Operand) : o.toJson.IsPlain := by
  cases o with
  | number d => exact .string d.toText
  | text s => exact .string s
  | list items => exact .array (isPlain_toJsons items)

theorem isPlain_toJsons (items : List Operand) : ∀ j ∈ toJsons items, j.IsPlain := by
  cases items with
  | nil => exact fun _ hj => absurd hj List.not_mem_nil
  | cons o rest => exact List.forall_mem_cons.2 ⟨isPlain_toJson o, isPlain_toJsons rest⟩

end

end Operand

theorem Condition.isPlain_toJson (c : Condition) : c.toJson.IsPlain := by
  have hkeys : ["field", "operator", "value"].Pairwise (· < ·) := by decide
  refine .object ?_ (List.pairwise_map.1 hkeys)
  simp only [List.forall_mem_cons]
  exact ⟨.string _, .string _, c.operand.isPlain_toJson, by simp⟩

theorem Action.isPlain_toJson (a : Action) : a.toJson.IsPlain := by
  have hkeys : ["type", "value"].Pairwise (· < ·) := by decide
  refine .object ?_ (List.pairwise_map.1 hkeys)
  simp only [List.forall_mem_cons]
  exact ⟨.string _, .string _, by simp⟩

/-- **A draft has one text.** Its members stand in order, and its numbers are integers. -/
theorem Draft.isPlain_toJson (d : Draft) : d.toJson.IsPlain := by
  have hpriority : (Json.ofInt d.priority.toInt).IsPlain := by
    have hlo := d.priority.le_toInt
    have hhi := d.priority.toInt_lt
    exact .ofInt (by omega)
  have hoperation (op : Operation) : op.toJson.IsPlain := .string op.name
  have hkeys : ["actions", "active", "conditions", "description", "name", "operation_types",
      "outlet_ids", "priority", "rule_type", "valid_from", "valid_until"].Pairwise (· < ·) := by
    decide
  refine .object ?_ (List.pairwise_map.1 hkeys)
  simp only [List.forall_mem_cons]
  exact ⟨.ofList Action.isPlain_toJson d.actions, .bool d.active,
    .ofList Condition.isPlain_toJson d.conditions, .ofOption Json.IsPlain.string d.description,
    .string d.name, .ofList hoperation d.operationTypes,
    .ofOption (Json.IsPlain.ofList Json.IsPlain.ofInt64) d.outletIds, hpriority,
    .string d.ruleType.name, .ofOption Json.IsPlain.ofInstant d.validFrom,
    .ofOption Json.IsPlain.ofInstant d.validUntil, by simp⟩

end Tariff
