import OutreachFlow.Proofs.Graph.Lookup

/-! What compiling asks of the edges. It goes through the edge list for the branches of a condition, for the
checks that conditions lead to and for the step behind a node, and each time it looks for the edges from one
node. How the edges from different nodes are mixed has no influence, nor have their ids and handles. -/
namespace OutreachFlow.Graph

variable {graph other : Graph} {id : String}

/-- The same nodes, each with edges to the same targets in the same order. Edges that leave no node of the
graph do not count. -/
structure SameTargets (graph other : Graph) : Prop where
  nodes : graph.nodes = other.nodes
  targets : ∀ node ∈ graph.nodes, graph.targets node.id = other.targets node.id

theorem exists_of_checksAt? {checks : List Check} (found : graph.checksAt? id = some checks) :
    ∃ node ∈ graph.nodes, node.id = id := by
  obtain ⟨node, first, _⟩ := Option.map_eq_some_iff.mp found
  have member := List.mem_of_find?_eq_some first
  exact ⟨node, (List.mem_filter.mp member).1, by simpa using List.find?_some first⟩

namespace SameTargets

theorem ofKind (same : graph.SameTargets other) : graph.ofKind = other.ofKind := by
  funext kind
  rw [Graph.ofKind, Graph.ofKind, same.nodes]

theorem isCondition (same : graph.SameTargets other) : graph.isCondition = other.isCondition := by
  funext id
  rw [Graph.isCondition, Graph.isCondition, same.ofKind]

/-- Only a check makes a branch, and what follows it are the targets of a node. -/
theorem branchTo? (same : graph.SameTargets other) : graph.branchTo? = other.branchTo? := by
  funext target
  have checks : graph.checksAt? target = other.checksAt? target := by
    rw [checksAt?, checksAt?, same.ofKind]
  rw [Graph.branchTo?, Graph.branchTo?, ← checks]
  cases found : graph.checksAt? target with
  | none => rfl
  | some _ =>
    obtain ⟨node, member, rfl⟩ := exists_of_checksAt? found
    rw [same.targets node member]

theorem branches (same : graph.SameTargets other) {node : Node} (member : node ∈ graph.nodes) :
    graph.branches node.id = other.branches node.id := by
  rw [branches_eq, branches_eq, same.targets node member, same.branchTo?]

theorem nextStep? (same : graph.SameTargets other) {node : Node} (member : node ∈ graph.nodes) :
    graph.nextStep? node.id = other.nextStep? node.id := by
  rw [nextStep?_eq, nextStep?_eq, same.targets node member]

/-- Whoever owns a check is a condition, hence a node. -/
theorem isOwned (same : graph.SameTargets other) : graph.isOwned = other.isOwned := by
  funext id
  rw [Bool.eq_iff_iff, isOwned_iff, isOwned_iff, ← same.isCondition]
  refine exists_congr fun source => and_congr_left fun condition => ?_
  obtain ⟨node, member, rfl, _⟩ := isCondition_iff.mp condition
  rw [← mem_targets, ← mem_targets, same.targets node member]

theorem descriptor? (same : graph.SameTargets other) {node : Node} (member : node ∈ graph.nodes) :
    graph.descriptor? node = other.descriptor? node := by
  rw [Graph.descriptor?, Graph.descriptor?, same.nextStep? member, same.branches member, same.isOwned]

theorem descriptorsOfKind (same : graph.SameTargets other) (kind : NodeKind) :
    graph.descriptorsOfKind kind = other.descriptorsOfKind kind := by
  rw [Graph.descriptorsOfKind, Graph.descriptorsOfKind, ← same.ofKind]
  apply List.filterMap_congr
  intro node member
  exact same.descriptor? (List.mem_filter.mp member).1

theorem compile (same : graph.SameTargets other) (entry : Option String) :
    graph.compile entry = other.compile entry := by
  have descriptors : graph.descriptors = other.descriptors := by
    simp only [Graph.descriptors, same.descriptorsOfKind]
  unfold Graph.compile
  rw [descriptors, same.nodes]

end SameTargets

/-- Compiling asks for nodes and links only; ids and handles of edges do not matter. -/
theorem compile_congr (nodes : graph.nodes = other.nodes) (links : graph.links = other.links)
    (entry : Option String) : graph.compile entry = other.compile entry := by
  have same : graph.SameTargets other :=
    ⟨nodes, fun node _ => by rw [targets_eq_links, targets_eq_links, links]⟩
  exact same.compile entry

end OutreachFlow.Graph
