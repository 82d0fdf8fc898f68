import OutreachFlow.Graph.Basic

/-! Which connections a flow admits. An edge joins nodes of fitting kinds and does not lead into
the entry; actions and condition checks have room for one next step, conditions for any number
of branches. -/
namespace OutreachFlow

namespace NodeKind

def allowedTargets : NodeKind → List NodeKind
  | action => [condition]
  | condition => [conditionCheck]
  | conditionCheck => [action, condition]

/-- The kinds whose descriptor has room for a single next step. -/
def singleSuccessor : NodeKind → Bool
  | action | conditionCheck => true
  | condition => false

end NodeKind

inductive Refusal where
  | intoEntry
  | targetKind (source : NodeKind)
  | alreadyConnected
  | secondNextStep (source : NodeKind)
  | edgeIdInUse (id : String)
deriving DecidableEq, Repr

def Refusal.message : Refusal → String
  | intoEntry => "the first node cannot have incoming connections"
  | targetKind source =>
    source.word ++ " nodes can only connect to " ++
      String.intercalate " or " (source.allowedTargets.map NodeKind.word) ++ " nodes"
  | alreadyConnected => "nodes are already connected"
  | secondNextStep source => source.word ++ " nodes can only have one next step"
  | edgeIdInUse id => "edge id '" ++ id ++ "' is already in use"

/-- The first rule that an edge between two nodes would break, if any. -/
def refusal? (source target : Node) (entry : Option String) : Option Refusal :=
  if entry = some target.id then some .intoEntry
  else if target.kind ∈ source.kind.allowedTargets then none
  else some (.targetKind source.kind)

def canConnect (source target : Node) (entry : Option String) : Bool :=
  (refusal? source target entry).isNone

end OutreachFlow
