import OutreachFlow.Graph.Basic

/-! The editor form of a graph: a list of nodes and a list of edges. -/
namespace OutreachFlow

inductive GraphFault where
  | node (fault : NodeFault)
  | duplicateNode (id : String)
  | edge (fault : EdgeFault)
deriving DecidableEq, Repr

def GraphFault.message : GraphFault → String
  | node fault => fault.message
  | duplicateNode id => "duplicate node id '" ++ id ++ "'"
  | edge fault => fault.message

/-- The text of a fault, if its message can be made with `limit` levels left. -/
def GraphFault.told? (limit : Nat) : GraphFault → Option String
  | node fault => fault.told? limit
  | fault => some fault.message

namespace Graph

/-- Reads nodes one by one behind those already there. An id may not come twice. -/
def readNodes (known : List Node) : List Json → Except GraphFault (List Node)
  | [] => .ok known
  | value :: rest => do
    let node ← (Node.ofJson value).mapError .node
    if known.any fun other => other.id = node.id then .error (.duplicateNode node.id)
    else readNodes (known ++ [node]) rest

def readEdges (values : List Json) : Except GraphFault (List Edge) :=
  values.mapM fun value => (Edge.ofJson value).mapError .edge

def ofLists (nodes edges : List Json) : Except GraphFault Graph := do
  let nodes ← readNodes [] nodes
  let edges ← readEdges edges
  return ⟨nodes, edges⟩

end Graph

/-- Why two values are no graph: one cannot be walked, or what it holds is malformed. -/
inductive FormFault where
  | notWalkable
  | malformed (fault : GraphFault)
deriving DecidableEq, Repr

namespace Graph

/-- Reads the editor form from any two values, walking the second only after the first. -/
def ofValues (nodes edges : Json) : Except FormFault Graph := do
  let some nodes := nodes.elements? | .error .notWalkable
  let nodes ← (readNodes [] nodes).mapError .malformed
  let some edges := edges.elements? | .error .notWalkable
  let edges ← (readEdges edges).mapError .malformed
  return ⟨nodes, edges⟩

def nodeForms (graph : Graph) : List Json := graph.nodes.map Node.toJson

def edgeForms (graph : Graph) : List Json := graph.edges.map Edge.toJson

end Graph

end OutreachFlow
