import OutreachFlow.Rules.Connection
import OutreachFlow.Rules.Cycle
import OutreachFlow.Json.Literal

/-! The lint of a whole graph: what keeps it from being a flow that can be executed. Passes run
in a fixed order, over the entry, the edges, the number of next steps, the checks, and cycles. -/
namespace OutreachFlow

inductive Issue where
  | entryMissing (entry : String)
  | entryIsCheck (entry : String)
  | edgeDangling (edge : String)
  | edgeRefused (edge : String) (reason : Refusal)
  | tooManyNextSteps (node : String) (kind : NodeKind) (count : Nat)
  | noChecks (node : String)
  | hoursMissing (node : String)
  | cycle
deriving DecidableEq, Repr

def Issue.message : Issue → String
  | entryMissing entry => "First node '" ++ entry ++ "' does not exist"
  | entryIsCheck entry => "First node '" ++ entry ++ "' is a condition check"
  | edgeDangling edge => "Edge " ++ edge ++ " references missing node"
  | edgeRefused edge reason => "Edge " ++ edge ++ ": " ++ reason.message
  | tooManyNextSteps node kind count =>
    "Node '" ++ node ++ "' (" ++ kind.word ++ "): " ++ toString count ++
      " outgoing connections, at most one allowed"
  | noChecks node => "Node '" ++ node ++ "' (condition_check): no checks"
  | hoursMissing node =>
    "Node '" ++ node ++ "' (condition_check): HAS_TIME_PASSED requires timeInHours"
  | cycle => "Graph contains a cycle"

namespace Graph

def entryIssues (graph : Graph) : Option String → List Issue
  | none => []
  | some entry =>
    match graph.node? entry with
    | none => [.entryMissing entry]
    | some node => if node.kind = .conditionCheck then [.entryIsCheck entry] else []

def edgeIssue? (graph : Graph) (entry : Option String) (edge : Edge) : Option Issue :=
  match graph.node? edge.source, graph.node? edge.target with
  | some source, some target => (refusal? source target entry).map (.edgeRefused edge.id)
  | _, _ => some (.edgeDangling edge.id)

def edgeIssues (graph : Graph) (entry : Option String) : List Issue :=
  graph.edges.filterMap (graph.edgeIssue? entry)

def nextStepIssue? (graph : Graph) (node : Node) : Option Issue :=
  let count := (graph.outgoing node.id).length
  if node.kind.singleSuccessor ∧ 1 < count then some (.tooManyNextSteps node.id node.kind count)
  else none

def nextStepIssues (graph : Graph) : List Issue := graph.nodes.filterMap graph.nextStepIssue?

/-- A node's issues with its checks; only condition checks have any. -/
def checkIssues (node : Node) : List Issue :=
  match node.payload with
  | .conditionCheck [] => [.noChecks node.id]
  | .conditionCheck checks => (checks.filter Check.lacksHours).map fun _ => .hoursMissing node.id
  | _ => []

def payloadIssues (graph : Graph) : List Issue := graph.nodes.flatMap checkIssues

def cycleIssues (graph : Graph) : List Issue := if graph.hasCycle then [.cycle] else []

/-- All issues except a cycle. -/
def localIssues (graph : Graph) (entry : Option String) : List Issue :=
  graph.entryIssues entry ++ graph.edgeIssues entry ++ graph.nextStepIssues ++ graph.payloadIssues

def issues (graph : Graph) (entry : Option String) : List Issue :=
  graph.localIssues entry ++ graph.cycleIssues

/-- All issues under an entry that may be any value. Only a text can name a node; a list or an
object cannot even be looked up. -/
def issuesUnder? (graph : Graph) : Json → Option (List Issue)
  | .null => some (graph.issues none)
  | .str entry => some (graph.issues (some entry))
  | .arr _ | .obj _ => none
  | mark => some (.entryMissing mark.bare :: graph.issues none)

end Graph

structure InvalidGraph where
  issues : List Issue
deriving DecidableEq, Repr

def InvalidGraph.message (fault : InvalidGraph) : String :=
  "Graph validation failed: [" ++
    String.intercalate ", " (fault.issues.map fun issue => Text.quoted issue.message) ++ "]"

def ensureNone : List Issue → Except InvalidGraph Unit
  | [] => .ok ()
  | issues => .error ⟨issues⟩

def Graph.ensureValid (graph : Graph) (entry : Option String) : Except InvalidGraph Unit :=
  ensureNone (graph.issues entry)

end OutreachFlow
