import OutreachFlow.Graph.Basic
import OutreachFlow.Json.Order

/-! Where a flow may start: at an action or a condition that no edge leads to. -/
namespace OutreachFlow

inductive Ineligibility where
  | conditionCheck
  | hasIncoming
deriving DecidableEq, Repr

def Ineligibility.message : Ineligibility → String
  | conditionCheck => "condition checks cannot be first nodes"
  | hasIncoming => "node has incoming connections"

/-- What keeps a node from being the entry, given the edges of its flow. -/
def ineligibility? (node : Node) (edges : List Edge) : Option Ineligibility :=
  if node.kind = .conditionCheck then some .conditionCheck
  else if edges.any fun edge => edge.target = node.id then some .hasIncoming
  else none

def isEligible (node : Node) (edges : List Edge) : Bool := (ineligibility? node edges).isNone

/-- A node that cannot be the entry, and why. -/
structure IneligibleNode where
  node : String
  reason : Ineligibility
deriving DecidableEq, Repr

def IneligibleNode.message (fault : IneligibleNode) : String :=
  "Cannot set " ++ fault.node ++ " as first node: " ++ fault.reason.message

/-- The entry that a flow has after a node was made its entry. -/
def entryAt (node : Node) (edges : List Edge) : Except IneligibleNode (Option String) :=
  match ineligibility? node edges with
  | some reason => .error ⟨node.id, reason⟩
  | none => .ok (some node.id)

def isEntry (entry : Option String) (id : String) : Bool := entry = some id

/-- Whether a value is what an entry was given as; null is no entry. -/
def isMark (mark value : Json) : Bool := mark ≠ .null && mark.same value

end OutreachFlow
