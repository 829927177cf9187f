import Tariff.Engine.Basic

/-!
# Changing rules

Only rules that pass `Draft.validate` are stored. A rule is written anew as a
whole: its identifier and its age stay, so its place among rules of the same
priority stays too.
-/

namespace Tariff

namespace Engine

/-- **Stores a new rule.** -/
def createRule (e : Engine) (draft : Draft) (author : Author) (o : Occasion) :
    Except Error (Rule × Engine) := do
  Error.ofCheck draft.validate
  let rule := Rule.ofDraft draft o.rowId author.actor o.now
  let record ← AuditRecord.ofRuleChange .created none (some rule) author o.recordId o.now
  let e ← e.commit (((Transaction.start e.store).putRule rule).record record) o.refusal
  return (rule, e)

/-- **Writes a stored rule anew.** -/
def updateRule (e : Engine) (id : Uuid) (draft : Draft) (author : Author) (o : Occasion) :
    Except Error (Rule × Engine) := do
  Error.ofCheck draft.validate
  match e.store.rule? id with
  | none => throw (.ruleNotFound id)
  | some old =>
    let rule := old.revise draft author.actor o.now
    let record ← AuditRecord.ofRuleChange .updated (some old) (some rule) author o.recordId o.now
    let e ← e.commit (((Transaction.start e.store).putRule rule).record record) o.refusal
    return (rule, e)

/-- **Deletes a rule.** -/
def deleteRule (e : Engine) (id : Uuid) (author : Author) (o : Occasion) :
    Except Error Engine := do
  match e.store.rule? id with
  | none => throw (.ruleNotFound id)
  | some old =>
    let record ← AuditRecord.ofRuleChange .deleted (some old) none author o.recordId o.now
    e.commit (((Transaction.start e.store).removeRule id).record record) o.refusal

end Engine

end Tariff
