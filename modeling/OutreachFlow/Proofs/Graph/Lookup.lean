import OutreachFlow.Plan.Compile
import OutreachFlow.Proofs.Graph.Grouping

/-! What a graph says about an id. Where ids are not shared, a node is what its id is looked up
as; and all that compiling asks of the edges are the targets of each node, in edge order. -/
namespace OutreachFlow

theorem Node.kind_eq_condition {node : Node} : node.kind = .condition ↔ node.payload = .condition := by
  cases shape : node.payload <;> simp [kind, shape, Payload.kind]

theorem Node.kind_eq_check {node : Node} :
    node.kind = .conditionCheck ↔ ∃ checks, node.payload = .conditionCheck checks := by
  cases shape : node.payload <;> simp [kind, shape, Payload.kind]

namespace Graph

variable {graph : Graph} {id : String}

theorem has_eq_true : graph.has id = true ↔ ∃ node ∈ graph.nodes, node.id = id := by
  simp [has]

theorem node?_eq_none : graph.node? id = none ↔ graph.has id = false := by
  simp [node?, has]

theorem has_iff_node? : graph.has id = true ↔ ∃ node, graph.node? id = some node := by
  rw [← Option.ne_none_iff_exists', Ne, node?_eq_none, Bool.not_eq_false]

theorem eq_of_id (unique : graph.UniqueIds) {node other : Node} (member : node ∈ graph.nodes)
    (member' : other ∈ graph.nodes) (same : node.id = other.id) : node = other :=
  List.inj_on_of_nodup_map unique member member' same

theorem node?_eq_some (unique : graph.UniqueIds) {node : Node} :
    graph.node? id = some node ↔ node ∈ graph.nodes ∧ node.id = id :=
  find?_key_eq_some unique

theorem isCondition_iff :
    graph.isCondition id = true ↔ ∃ node ∈ graph.nodes, node.id = id ∧ node.payload = .condition := by
  simp only [isCondition, ofKind, List.any_eq_true, List.mem_filter, decide_eq_true_eq,
    Node.kind_eq_condition]
  constructor
  · rintro ⟨node, ⟨member, shape⟩, same⟩
    exact ⟨node, member, same, shape⟩
  · rintro ⟨node, member, same, shape⟩
    exact ⟨node, ⟨member, shape⟩, same⟩

theorem checksAt?_eq_some (unique : graph.UniqueIds) {checks : List Check} :
    graph.checksAt? id = some checks ↔
      ∃ node ∈ graph.nodes, node.id = id ∧ node.payload = .conditionCheck checks := by
  have kept : ((graph.ofKind .conditionCheck).map Node.id).Nodup :=
    unique.sublist (List.filter_sublist.map Node.id)
  have shape (node : Node) : node.kind = .conditionCheck ∧ node.payload.checks = checks ↔
      node.payload = .conditionCheck checks := by
    cases found : node.payload <;> simp [Node.kind, found, Payload.kind, Payload.checks]
  simp only [checksAt?, Option.map_eq_some_iff, find?_key_eq_some kept]
  simp only [ofKind, List.mem_filter, decide_eq_true_eq, ← shape]
  constructor
  · rintro ⟨node, ⟨⟨member, kind⟩, same⟩, checks⟩
    exact ⟨node, member, same, kind, checks⟩
  · rintro ⟨node, member, same, kind, checks⟩
    exact ⟨node, ⟨⟨member, kind⟩, same⟩, checks⟩

/-! Links -/

/-- Source and target of every edge. -/
def links (graph : Graph) : List (String × String) :=
  graph.edges.map fun edge => (edge.source, edge.target)

/-- Where the edges of a node lead, in edge order. -/
def targets (graph : Graph) (id : String) : List String :=
  (graph.outgoing id).map Edge.target

theorem targets_eq_links (graph : Graph) (id : String) :
    graph.targets id = (graph.links.filter fun link => link.1 = id).map Prod.snd := by
  simp [targets, outgoing, links, List.filter_map, Function.comp_def]

theorem mem_targets {target : String} : target ∈ graph.targets id ↔ (id, target) ∈ graph.links := by
  simp [targets_eq_links]

theorem nextStep?_eq (graph : Graph) (id : String) :
    graph.nextStep? id = (graph.targets id).head? := by
  rw [targets, List.head?_map]
  rfl

/-- The branch behind a target of a condition. -/
def branchTo? (graph : Graph) (target : String) : Option Branch :=
  (graph.checksAt? target).map fun checks => ⟨checks, (graph.targets target).head?⟩

theorem branches_eq (graph : Graph) (id : String) :
    graph.branches id = (graph.targets id).filterMap graph.branchTo? := by
  rw [targets, List.filterMap_map]
  apply List.filterMap_congr
  intro edge _
  simp [branch?, branchTo?, nextStep?_eq]

theorem isOwned_iff :
    graph.isOwned id = true ↔
      ∃ source, (source, id) ∈ graph.links ∧ graph.isCondition source = true := by
  simp only [isOwned, links, List.any_eq_true, Bool.and_eq_true, decide_eq_true_eq, List.mem_map,
    Prod.mk.injEq]
  constructor
  · rintro ⟨edge, member, rfl, condition⟩
    exact ⟨edge.source, ⟨edge, member, rfl, rfl⟩, condition⟩
  · rintro ⟨_, ⟨edge, member, rfl, rfl⟩, condition⟩
    exact ⟨edge, member, rfl, condition⟩

end Graph

end OutreachFlow
