import OutreachFlow.Graph.Basic

/-! Execution plans: what a flow compiles to. A condition holds its branches, so the checks
that guard them are no descriptors of their own. The written form leaves absent parts out. -/
namespace OutreachFlow

/-- One way out of a condition: the checks that must hold and the step behind them. -/
structure Branch where
  checks : List Check
  next : Option String
deriving DecidableEq, Repr

inductive Descriptor where
  | action (id : String) (step : ActionStep) (next : Option String)
  | condition (id : String) (branches : List Branch)
  | conditionCheck (id : String) (checks : List Check) (next : Option String)
deriving DecidableEq, Repr

/-- Descriptors in order of execution form, and where each node stands on the canvas. -/
structure Plan where
  descriptors : List Descriptor
  positions : List (String × Position)
deriving DecidableEq, Repr

def Plan.version : Nat := 1

def nextField (next : Option String) : Fields := Json.optional "nextStepId" (next.map .str)

def checksForm (checks : List Check) : Json := .arr (checks.map Check.toNested)

def Branch.toJson (branch : Branch) : Json :=
  .obj (nextField branch.next ++ [("checks", checksForm branch.checks)])

namespace Descriptor

def id : Descriptor → String
  | action id _ _ | condition id _ | conditionCheck id _ _ => id

def kind : Descriptor → NodeKind
  | action .. => .action
  | condition .. => .condition
  | conditionCheck .. => .conditionCheck

/-- Every step that a descriptor leads to, branches in order. -/
def nextSteps : Descriptor → List String
  | action _ _ next | conditionCheck _ _ next => next.toList
  | condition _ branches => branches.filterMap Branch.next

/-- The fields of an action inside its descriptor; the message goes into a data object. -/
def actionForm (step : ActionStep) (next : Option String) : Fields :=
  step.words ++ Json.optional "data" (step.message.map fun text => .obj [("message", .str text)]) ++
    nextField next

def body : Descriptor → Fields
  | action _ step next => [("child", .obj (actionForm step next))]
  | condition _ branches => [("child", .arr (branches.map Branch.toJson))]
  | conditionCheck _ checks next => ("conditions", checksForm checks) :: nextField next

def toJson (descriptor : Descriptor) : Json :=
  .obj ([("id", .str descriptor.id), ("type", .str descriptor.kind.tag)] ++ descriptor.body)

end Descriptor

def Plan.toJson (plan : Plan) : Json :=
  .obj [("version", .int Plan.version), ("nodes", .arr (plan.descriptors.map Descriptor.toJson)),
    ("positions", .obj (plan.positions.map fun (id, position) => (id, position.toJson)))]

end OutreachFlow
