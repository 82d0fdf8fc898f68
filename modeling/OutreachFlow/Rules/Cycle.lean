import OutreachFlow.Graph.Basic

/-! Cycles, by taking nodes away: a node without incoming edges is settled, which takes its
edges away and may leave further nodes without any. A graph has a cycle exactly if some node is
never settled. Edges with a missing end play no part. -/
namespace OutreachFlow

/-- Nodes ready to be settled, and nodes that wait, each with its number of incoming edges. -/
structure Frontier where
  ready : List String
  waiting : List (String × Nat)

namespace Frontier

def size (frontier : Frontier) : Nat := frontier.ready.length + frontier.waiting.length

/-- Takes one incoming edge off a waiting node. Without its last edge a node becomes ready. -/
def release (frontier : Frontier) (id : String) : Frontier :=
  match frontier.waiting.find? fun entry => entry.1 = id with
  | none => frontier
  | some (_, count) =>
    if count ≤ 1 then
      ⟨frontier.ready ++ [id], frontier.waiting.eraseP fun entry => entry.1 = id⟩
    else
      ⟨frontier.ready,
        frontier.waiting.map fun entry => if entry.1 = id then (id, count - 1) else entry⟩

theorem size_release (frontier : Frontier) (id : String) :
    (frontier.release id).size = frontier.size := by
  unfold release
  split
  · rfl
  · rename_i found
    split
    · have hp := List.find?_some found
      have hm := List.mem_of_find?_eq_some found
      have hl := List.length_eraseP_of_mem (p := fun entry => decide (entry.1 = id)) hm hp
      have := List.length_pos_of_mem hm
      simp only [size, List.length_append, List.length_singleton, hl]
      omega
    · simp [size]

theorem size_foldl_release (frontier : Frontier) (ids : List String) :
    (ids.foldl release frontier).size = frontier.size := by
  induction ids generalizing frontier with
  | nil => rfl
  | cons id rest ih => rw [List.foldl_cons, ih, size_release]

/-- The nodes that can be settled, in the order in which they become ready. -/
def settle (next : String → List String) (frontier : Frontier) : List String :=
  match _ready : frontier.ready with
  | [] => []
  | id :: rest => id :: settle next ((next id).foldl release { frontier with ready := rest })
termination_by frontier.size
decreasing_by
  rw [size_foldl_release]
  simp [size, _ready]

end Frontier

namespace Graph

def innerEdges (graph : Graph) : List Edge :=
  graph.edges.filter fun edge => graph.has edge.source && graph.has edge.target

end Graph

namespace Frontier

/-- Where the edges from a node lead, once for each edge. -/
def targetsFrom (edges : List Edge) (id : String) : List String :=
  (edges.filter fun edge => edge.source = id).map Edge.target

def inDegree (edges : List Edge) (id : String) : Nat := edges.countP fun edge => edge.target = id

/-- At first the nodes without incoming edges are ready and the others wait. -/
def start (ids : List String) (edges : List Edge) : Frontier :=
  let degrees := ids.map fun id => (id, inDegree edges id)
  ⟨(degrees.filter fun entry => entry.2 = 0).map Prod.fst,
    degrees.filter fun entry => entry.2 ≠ 0⟩

end Frontier

namespace Graph

def settled (graph : Graph) : List String :=
  let edges := graph.innerEdges
  (Frontier.start (graph.nodes.map Node.id) edges).settle (Frontier.targetsFrom edges)

def hasCycle (graph : Graph) : Bool := graph.settled.length ≠ graph.nodes.length

end Graph

end OutreachFlow
