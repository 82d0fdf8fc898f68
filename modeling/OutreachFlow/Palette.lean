import OutreachFlow.Payload.Basic

/-! The palette: what an editor shows of each kind of node before one is placed. -/
namespace OutreachFlow

structure Definition where
  kind : NodeKind
  displayName : String
  category : String
  description : String
  defaultData : Fields

namespace Definition

def ofKind : NodeKind → Definition
  | .action =>
    ⟨.action, "Action", "Actions", "Single action step.", (Payload.default .action).toData⟩
  | .condition =>
    ⟨.condition, "Condition", "Conditions", "Conditional branching.",
      (Payload.default .condition).toData⟩
  | .conditionCheck =>
    ⟨.conditionCheck, "Condition Check", "Condition Checks", "Validate conditions.",
      (Payload.default .conditionCheck).toData⟩

end Definition

def palette : List Definition := (Vocabulary.all (α := NodeKind)).map Definition.ofKind

end OutreachFlow
