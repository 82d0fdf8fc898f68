import OutreachFlow.Proofs.Graph.Lookup

/-! The kind of the node under an id, and what changes of a graph do to it. -/
namespace OutreachFlow.Graph

variable {graph : Graph} {id : String}

/-- The kind of the node under an id. -/
def kindAt? (graph : Graph) (id : String) : Option NodeKind := (graph.node? id).map Node.kind

theorem kindAt?_of_mem (unique : graph.UniqueIds) {node : Node} (member : node ∈ graph.nodes) :
    graph.kindAt? node.id = some node.kind := by
  rw [kindAt?, (node?_eq_some unique).mpr ⟨member, rfl⟩]
  rfl

theorem kindAt?_eq_some (unique : graph.UniqueIds) {kind : NodeKind} :
    graph.kindAt? id = some kind ↔ ∃ node ∈ graph.nodes, node.id = id ∧ node.kind = kind := by
  simp only [kindAt?, Option.map_eq_some_iff, node?_eq_some unique, and_assoc]

theorem kindAt?_eq_none : graph.kindAt? id = none ↔ graph.has id = false := by
  simp [kindAt?, node?, has]

theorem has_iff_kindAt? : graph.has id = true ↔ ∃ kind, graph.kindAt? id = some kind := by
  rw [← Option.ne_none_iff_exists', Ne, kindAt?_eq_none, Bool.not_eq_false]

theorem isCondition_iff_kindAt? (unique : graph.UniqueIds) :
    graph.isCondition id = true ↔ graph.kindAt? id = some .condition := by
  simp only [isCondition_iff, kindAt?_eq_some unique, Node.kind_eq_condition]

/-! Changes -/

theorem kindAt?_append {nodes : List Node} {edges : List Edge} {node : Node}
    (fresh : (⟨nodes, edges⟩ : Graph).has node.id = false) :
    (⟨nodes ++ [node], edges⟩ : Graph).kindAt? id =
      if id = node.id then some node.kind else (⟨nodes, edges⟩ : Graph).kindAt? id := by
  unfold kindAt? node?
  rw [List.find?_append]
  split
  · rename_i same
    have absent : (nodes.find? fun other => other.id = node.id) = none := by
      simpa [has] using fresh
    rw [same, absent]
    simp
  · rename_i apart
    have missed : ([node].find? fun other => other.id = id) = none := by simpa using Ne.symm apart
    rw [missed, Option.or_none]

theorem replace_ids (graph : Graph) (new : Node) :
    (graph.replace new).nodes.map Node.id = graph.nodes.map Node.id := by
  rw [replace, List.map_map]
  apply List.map_congr_left
  intro node _
  rw [Function.comp_apply]
  split
  · rename_i same
    exact same.symm
  · rfl

theorem kindAt?_replace {old new : Node} (found : graph.node? old.id = some old)
    (same : new.id = old.id) (kind : new.kind = old.kind) :
    (graph.replace new).kindAt? id = graph.kindAt? id := by
  have ids (node : Node) :
      (if node.id = new.id then new else node).id = node.id := by
    split
    · rename_i hit
      exact hit.symm
    · rfl
  have place : (graph.replace new).node? id =
      (graph.node? id).map fun node => if node.id = new.id then new else node := by
    simp only [node?, replace, List.find?_map, Function.comp_def, ids]
  rw [kindAt?, kindAt?, place, Option.map_map]
  cases here : graph.node? id with
  | none => rfl
  | some node =>
    rw [Option.map_some, Option.map_some, Function.comp_apply]
    split
    · rename_i hit
      have own : node.id = id := by simpa using List.find?_some here
      rw [← own, hit, same, found] at here
      rw [kind, Option.some.inj here]
    · rfl

theorem kindAt?_erase {erased : String} :
    (graph.erase erased).kindAt? id = if id = erased then none else graph.kindAt? id := by
  unfold kindAt? node? erase
  rw [List.find?_filter]
  split
  · rename_i same
    rw [same, List.find?_eq_none.mpr (by simp)]
    rfl
  · rename_i apart
    congr 2
    funext node
    by_cases here : node.id = id <;> simp [here, apart]

end OutreachFlow.Graph
