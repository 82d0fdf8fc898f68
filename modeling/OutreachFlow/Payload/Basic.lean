import OutreachFlow.Payload.Check

/-! The payload of a node, which settles its kind. Nodes keep their payload in a data object;
reading accepts the older shapes, writing uses one. -/
namespace OutreachFlow

inductive Payload where
  | action (step : ActionStep)
  | condition
  | conditionCheck (checks : List Check)
deriving DecidableEq, Repr

namespace Payload

def kind : Payload → NodeKind
  | action _ => .action
  | condition => .condition
  | conditionCheck _ => .conditionCheck

def default : NodeKind → Payload
  | .action => action ActionStep.default
  | .condition => condition
  | .conditionCheck => conditionCheck [⟨.isLinkedInContact, true, none⟩]

/-- Reads the data object of a node of the given kind. Conditions hold nothing. -/
def ofData (data : Fields) : NodeKind → Except PayloadFault Payload
  | .action => (ActionStep.ofData data).map action
  | .condition => .ok condition
  | .conditionCheck => (Check.listOfJson (data.valueOf "conditions")).map conditionCheck

def toData : Payload → Fields
  | action step => step.toFields
  | condition => []
  | conditionCheck checks => [("conditions", .arr (checks.map Check.toFlat))]

/-- The checks of a payload; only condition checks have any. -/
def checks : Payload → List Check
  | conditionCheck checks => checks
  | _ => []

theorem kind_default (kind : NodeKind) : (default kind).kind = kind := by cases kind <;> rfl

theorem kind_of_ofData {data : Fields} {kind : NodeKind} {payload : Payload}
    (h : ofData data kind = .ok payload) : payload.kind = kind := by
  cases kind with
  | action =>
    cases hs : ActionStep.ofData data with
    | error fault => simp [ofData, hs, Except.map] at h
    | ok step =>
      simp only [ofData, hs, Except.map, Except.ok.injEq] at h
      exact h ▸ rfl
  | condition =>
    simp only [ofData, Except.ok.injEq] at h
    exact h ▸ rfl
  | conditionCheck =>
    cases hs : Check.listOfJson (data.valueOf "conditions") with
    | error fault => simp [ofData, hs, Except.map] at h
    | ok checks =>
      simp only [ofData, hs, Except.map, Except.ok.injEq] at h
      exact h ▸ rfl

end Payload

end OutreachFlow
