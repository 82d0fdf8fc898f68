import OutreachFlow.Plan.Basic

/-! Compiling a graph into a plan: actions first, then conditions with the checks that they
lead to as branches, then the checks that no condition leads to. The entry, if it is a
descriptor, moves to the front. Compiling is total: whatever the rules forbid is compiled all
the same. -/
namespace OutreachFlow

namespace Graph

def isCondition (graph : Graph) (id : String) : Bool :=
  (graph.ofKind .condition).any fun node => node.id = id

def checksAt? (graph : Graph) (id : String) : Option (List Check) :=
  ((graph.ofKind .conditionCheck).find? fun node => node.id = id).map fun node =>
    node.payload.checks

/-- The branch that an edge gives the condition at its source, if it leads to a check. -/
def branch? (graph : Graph) (edge : Edge) : Option Branch :=
  (graph.checksAt? edge.target).map fun checks => ⟨checks, graph.nextStep? edge.target⟩

/-- The branches of a condition, one for each of its edges to a check, in edge order. -/
def branches (graph : Graph) (id : String) : List Branch :=
  (graph.outgoing id).filterMap graph.branch?

/-- Whether a condition leads to the node. -/
def isOwned (graph : Graph) (id : String) : Bool :=
  graph.edges.any fun edge => edge.target = id && graph.isCondition edge.source

/-- The descriptor of a node; a check that is a branch of a condition has none. -/
def descriptor? (graph : Graph) (node : Node) : Option Descriptor :=
  match node.payload with
  | .action step => some (.action node.id step (graph.nextStep? node.id))
  | .condition => some (.condition node.id (graph.branches node.id))
  | .conditionCheck checks =>
    if graph.isOwned node.id then none
    else some (.conditionCheck node.id checks (graph.nextStep? node.id))

def descriptorsOfKind (graph : Graph) (kind : NodeKind) : List Descriptor :=
  (graph.ofKind kind).filterMap graph.descriptor?

/-- All descriptors, by kind and within a kind in node order. -/
def descriptors (graph : Graph) : List Descriptor :=
  graph.descriptorsOfKind .action ++ graph.descriptorsOfKind .condition ++
    graph.descriptorsOfKind .conditionCheck

end Graph

/-- Moves the descriptor of the entry to the front; without one nothing moves. -/
def entryFirst (entry : String) (descriptors : List Descriptor) : List Descriptor :=
  match descriptors.find? fun descriptor => descriptor.id = entry with
  | some first => first :: descriptors.eraseP fun descriptor => descriptor.id = entry
  | none => descriptors

def Graph.compile (graph : Graph) (entry : Option String) : Plan where
  descriptors := match entry with
    | some id => entryFirst id graph.descriptors
    | none => graph.descriptors
  positions := graph.nodes.map fun node => (node.id, node.position)

end OutreachFlow
