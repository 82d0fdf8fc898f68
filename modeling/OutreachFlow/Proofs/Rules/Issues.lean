import OutreachFlow.Proofs.Graph.Lookup
import OutreachFlow.Rules.Lint

/-! What it means that a pass of the lint finds nothing. Edges then join nodes of fitting kinds and
leave the entry alone, and actions and checks have one next step at most. -/
namespace OutreachFlow

theorem refusal?_eq_none {source target : Node} {entry : Option String} :
    refusal? source target entry = none ↔
      entry ≠ some target.id ∧ target.kind ∈ source.kind.allowedTargets := by
  unfold refusal?
  split
  · simp_all
  · split <;> simp_all

namespace Graph

variable {graph : Graph} {entry : Option String}

theorem entryIssues_eq_nil :
    graph.entryIssues entry = [] ↔
      ∀ id, entry = some id → ∃ node, graph.node? id = some node ∧ node.kind ≠ .conditionCheck := by
  cases entry with
  | none => simp [entryIssues]
  | some id =>
    cases found : graph.node? id with
    | none => simp [entryIssues, found]
    | some node => simp [entryIssues, found]

theorem edgeIssue?_eq_none {edge : Edge} :
    graph.edgeIssue? entry edge = none ↔
      ∃ source target, graph.node? edge.source = some source ∧
        graph.node? edge.target = some target ∧ entry ≠ some target.id ∧
        target.kind ∈ source.kind.allowedTargets := by
  unfold edgeIssue?
  cases graph.node? edge.source with
  | none => simp
  | some source =>
    cases graph.node? edge.target with
    | none => simp
    | some target => simp [refusal?_eq_none]

theorem edgeIssues_eq_nil :
    graph.edgeIssues entry = [] ↔
      ∀ edge ∈ graph.edges, ∃ source target, graph.node? edge.source = some source ∧
        graph.node? edge.target = some target ∧ entry ≠ some target.id ∧
        target.kind ∈ source.kind.allowedTargets := by
  simp only [edgeIssues, List.filterMap_eq_nil_iff, edgeIssue?_eq_none]

theorem length_targets (graph : Graph) (id : String) :
    (graph.targets id).length = (graph.outgoing id).length := List.length_map _

theorem nextStepIssues_eq_nil :
    graph.nextStepIssues = [] ↔
      ∀ node ∈ graph.nodes, node.kind.singleSuccessor = true →
        (graph.targets node.id).length ≤ 1 := by
  simp only [nextStepIssues, List.filterMap_eq_nil_iff, nextStepIssue?, length_targets,
    ite_eq_right_iff, reduceCtorEq, imp_false, not_and, Nat.not_lt]

/-- What a graph without issues is sure of, apart from its checks and cycles. -/
structure Sound (graph : Graph) (entry : Option String) : Prop where
  starts : ∀ id, entry = some id →
    ∃ node ∈ graph.nodes, node.id = id ∧ node.kind ≠ .conditionCheck
  joined : ∀ link ∈ graph.links, ∃ source ∈ graph.nodes, ∃ target ∈ graph.nodes,
    source.id = link.1 ∧ target.id = link.2 ∧ target.kind ∈ source.kind.allowedTargets
  untargeted : ∀ link ∈ graph.links, entry ≠ some link.2
  single : ∀ node ∈ graph.nodes, node.kind.singleSuccessor = true →
    (graph.targets node.id).length ≤ 1

theorem sound_of_issues (unique : graph.UniqueIds) (valid : graph.issues entry = []) :
    graph.Sound entry := by
  simp only [issues, localIssues, List.append_eq_nil_iff, entryIssues_eq_nil, edgeIssues_eq_nil,
    nextStepIssues_eq_nil, node?_eq_some unique] at valid
  obtain ⟨⟨⟨⟨starts, edges⟩, single⟩, _⟩, _⟩ := valid
  refine ⟨?_, ?_, ?_, single⟩
  · intro id named
    obtain ⟨node, ⟨inside, same⟩, kind⟩ := starts id named
    exact ⟨node, inside, same, kind⟩
  · intro link member
    obtain ⟨edge, inside, rfl⟩ := List.mem_map.mp member
    obtain ⟨source, target, ⟨left, leaves⟩, ⟨right, arrives⟩, _, fits⟩ := edges edge inside
    exact ⟨source, left, target, right, leaves, arrives, fits⟩
  · intro link member
    obtain ⟨edge, inside, rfl⟩ := List.mem_map.mp member
    obtain ⟨_, target, _, ⟨_, arrives⟩, apart, _⟩ := edges edge inside
    exact arrives ▸ apart

/-! Kinds at the two ends of a link -/

namespace Sound

variable {source target : Node}

theorem source_mem (sound : graph.Sound entry) :
    ∀ link ∈ graph.links, link.1 ∈ graph.nodes.map Node.id := by
  intro link member
  obtain ⟨source, inside, _, _, same, _⟩ := sound.joined link member
  exact List.mem_map.mpr ⟨source, inside, same⟩

theorem target_mem (sound : graph.Sound entry) :
    ∀ link ∈ graph.links, link.2 ∈ graph.nodes.map Node.id := by
  intro link member
  obtain ⟨_, _, target, inside, _, same, _⟩ := sound.joined link member
  exact List.mem_map.mpr ⟨target, inside, same⟩

theorem target_of_condition (sound : graph.Sound entry) (unique : graph.UniqueIds)
    (member : source ∈ graph.nodes) (shape : source.payload = .condition) {id : String}
    (link : id ∈ graph.targets source.id) :
    ∃ target ∈ graph.nodes, target.id = id ∧ target.kind = .conditionCheck := by
  obtain ⟨other, inside, target, inside', same, arrives, fits⟩ := sound.joined _ (mem_targets.mp link)
  obtain rfl := eq_of_id unique inside member same
  refine ⟨target, inside', arrives, ?_⟩
  simpa [Node.kind, shape, Payload.kind, NodeKind.allowedTargets] using fits

/-- Only conditions lead to checks. -/
theorem target_of_other (sound : graph.Sound entry) (unique : graph.UniqueIds)
    (member : source ∈ graph.nodes) (kind : source.kind ≠ .condition) {id : String}
    (link : id ∈ graph.targets source.id) :
    ∃ target ∈ graph.nodes, target.id = id ∧ target.kind ≠ .conditionCheck := by
  obtain ⟨other, inside, target, inside', same, arrives, fits⟩ := sound.joined _ (mem_targets.mp link)
  obtain rfl := eq_of_id unique inside member same
  refine ⟨target, inside', arrives, ?_⟩
  revert kind fits
  cases other.kind <;> cases target.kind <;> simp [NodeKind.allowedTargets]

theorem owned_kind (sound : graph.Sound entry) (unique : graph.UniqueIds)
    (member : target ∈ graph.nodes) (owned : graph.isOwned target.id = true) :
    target.kind = .conditionCheck := by
  obtain ⟨source, link, condition⟩ := isOwned_iff.mp owned
  obtain ⟨node, inside, rfl, shape⟩ := isCondition_iff.mp condition
  obtain ⟨other, inside', same, kind⟩ :=
    sound.target_of_condition unique inside shape (mem_targets.mpr link)
  exact eq_of_id unique inside' member same ▸ kind

/-- Every edge of a condition gives a branch. -/
theorem branches_eq_targets (sound : graph.Sound entry) (unique : graph.UniqueIds)
    (member : source ∈ graph.nodes) (shape : source.payload = .condition) :
    graph.branches source.id = (graph.targets source.id).map fun id =>
      ⟨(graph.checksAt? id).getD [], (graph.targets id).head?⟩ := by
  rw [branches_eq, ← List.filterMap_eq_map']
  apply List.filterMap_congr
  intro id link
  obtain ⟨target, inside, rfl, kind⟩ := sound.target_of_condition unique member shape link
  obtain ⟨checks, holds⟩ := Node.kind_eq_check.mp kind
  rw [branchTo?, (checksAt?_eq_some unique).mpr ⟨target, inside, rfl, holds⟩]
  rfl

end Sound

end Graph

end OutreachFlow
