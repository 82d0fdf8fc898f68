import OutreachFlow.Graph.Node
import OutreachFlow.Graph.Edge

/-! Flow graphs: nodes in the order in which they came, each under its own id, and a list of
edges. The edge list is free: edges may dangle, run in parallel or break the connection rules,
and their order matters where a node has several. -/
namespace OutreachFlow

structure Graph where
  nodes : List Node
  edges : List Edge
deriving DecidableEq, Repr

namespace Graph

def empty : Graph := ⟨[], []⟩

def node? (graph : Graph) (id : String) : Option Node := graph.nodes.find? fun node => node.id = id

def has (graph : Graph) (id : String) : Bool := graph.nodes.any fun node => node.id = id

/-- No two nodes share an id. -/
def UniqueIds (graph : Graph) : Prop := (graph.nodes.map Node.id).Nodup

def incoming (graph : Graph) (id : String) : List Edge :=
  graph.edges.filter fun edge => edge.target = id

def outgoing (graph : Graph) (id : String) : List Edge :=
  graph.edges.filter fun edge => edge.source = id

/-- The targets of a node's edges, each once, in the order of texts. -/
def successors (graph : Graph) (id : String) : List String :=
  (((graph.outgoing id).map Edge.target).eraseDups).mergeSort fun a b => a ≤ b

/-- The step after a node: the target of its first edge. -/
def nextStep? (graph : Graph) (id : String) : Option String :=
  (graph.outgoing id).head?.map Edge.target

def ofKind (graph : Graph) (kind : NodeKind) : List Node :=
  graph.nodes.filter fun node => node.kind = kind

def replace (graph : Graph) (new : Node) : Graph :=
  { graph with nodes := graph.nodes.map fun node => if node.id = new.id then new else node }

def erase (graph : Graph) (id : String) : Graph where
  nodes := graph.nodes.filter fun node => node.id ≠ id
  edges := graph.edges.filter fun edge => edge.source ≠ id ∧ edge.target ≠ id

end Graph

end OutreachFlow
