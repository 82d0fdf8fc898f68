import OutreachFlow.Proofs.Graph.Kinds
import OutreachFlow.Proofs.Plan.NextSteps

/-! What the plan of a graph holds, whatever its edges are like. Each node that stands on its own is written
once, with its kind, and nothing else is. A condition has one branch for each of its edges to a check, in edge
order; next steps lead where the first edge of a node leads; and each node has its place. -/
namespace OutreachFlow

/-- Where every item gives a value, the values stand beside the items. -/
theorem forall₂_filterMap {α β : Type} {give : α → Option β} {items : List α}
    (all : ∀ item ∈ items, ∃ value, give item = some value) :
    List.Forall₂ (fun item value => give item = some value) items (items.filterMap give) := by
  induction items with
  | nil => exact .nil
  | cons item rest ih =>
    obtain ⟨⟨value, found⟩, others⟩ := List.forall_mem_cons.mp all
    rw [List.filterMap_cons_some found]
    exact .cons found (ih others)

namespace Graph

/-- An edge from a condition leads to the node. -/
def Absorbed (graph : Graph) (id : String) : Prop :=
  ∃ edge ∈ graph.edges, edge.target = id ∧ graph.kindAt? edge.source = some .condition

instance (graph : Graph) (id : String) : Decidable (graph.Absorbed id) :=
  inferInstanceAs (Decidable (∃ edge ∈ graph.edges, _))

/-- The edges that lead from a node to checks. -/
def checkEdges (graph : Graph) (id : String) : List Edge :=
  (graph.outgoing id).filter fun edge => graph.kindAt? edge.target = some .conditionCheck

/-- Where the first edge of a node leads, if it has one. -/
inductive LeadsFirst (graph : Graph) (id : String) : Option String → Prop where
  | nowhere (silent : ∀ edge ∈ graph.edges, edge.source ≠ id) : LeadsFirst graph id none
  | along {before after : List Edge} {edge : Edge} (split : graph.edges = before ++ edge :: after)
      (leaves : edge.source = id) (first : ∀ other ∈ before, other.source ≠ id) :
      LeadsFirst graph id (some edge.target)

/-- A branch as it is written for an edge: what the check at its end asks, and the step behind it. -/
def IsBranchOf (graph : Graph) (edge : Edge) (form : Json) : Prop :=
  ∃ check ∈ graph.nodes, ∃ checks next, check.id = edge.target ∧ check.payload = .conditionCheck checks ∧
    graph.LeadsFirst check.id next ∧ form.field? "checks" = some (checksForm checks) ∧
    form.field? "nextStepId" = next.map .str

/-- A descriptor as it is written for a node. -/
structure IsFormOf (graph : Graph) (node : Node) (form : Json) : Prop where
  id : form.field? "id" = some (.str node.id)
  kind : form.field? "type" = some (.str node.kind.tag)
  content : match node.payload with
    | .action _ => ∃ child next, form.field? "child" = some child ∧ graph.LeadsFirst node.id next ∧
        child.field? "nextStepId" = next.map .str
    | .condition => ∃ branches, form.field? "child" = some (.arr branches) ∧
        List.Forall₂ graph.IsBranchOf (graph.checkEdges node.id) branches
    | .conditionCheck checks => ∃ next, form.field? "conditions" = some (checksForm checks) ∧
        graph.LeadsFirst node.id next ∧ form.field? "nextStepId" = next.map .str

variable {graph : Graph} {entry : Option String} {node : Node} {id : String}

theorem leadsFirst_nextStep? (graph : Graph) (id : String) : graph.LeadsFirst id (graph.nextStep? id) := by
  unfold nextStep?
  cases leaving : graph.outgoing id with
  | nil =>
    refine .nowhere fun edge member leaves => ?_
    have none := List.filter_eq_nil_iff.mp leaving edge member
    exact none (decide_eq_true leaves)
  | cons edge rest =>
    obtain ⟨before, after, split, first, leaves, _⟩ := List.filter_eq_cons_iff.mp leaving
    refine .along split (decide_eq_true_eq.mp leaves) fun other member leaves => ?_
    exact first other member (decide_eq_true leaves)

theorem isOwned_iff_absorbed (unique : graph.UniqueIds) : graph.isOwned id = true ↔ graph.Absorbed id := by
  simp only [isOwned, List.any_eq_true, Bool.and_eq_true, decide_eq_true_eq, Absorbed,
    isCondition_iff_kindAt? unique]

theorem stands_iff_absorbed (unique : graph.UniqueIds) :
    graph.stands node = true ↔ (node.kind = .conditionCheck → ¬ graph.Absorbed node.id) := by
  rw [stands_iff, ← isOwned_iff_absorbed unique, Bool.not_eq_true]

/-! Branches -/

theorem exists_branch (unique : graph.UniqueIds) {edge : Edge} :
    (∃ branch, graph.branch? edge = some branch) ↔ graph.kindAt? edge.target = some .conditionCheck := by
  simp only [branch?, Option.map_eq_some_iff, checksAt?_eq_some unique, kindAt?_eq_some unique,
    Node.kind_eq_check]
  constructor
  · rintro ⟨_, checks, ⟨check, member, own, asks⟩, _⟩
    exact ⟨check, member, own, checks, asks⟩
  · rintro ⟨check, member, own, checks, asks⟩
    exact ⟨_, checks, ⟨check, member, own, asks⟩, rfl⟩

theorem isBranchOf_of_branch (unique : graph.UniqueIds) {edge : Edge} {branch : Branch}
    (found : graph.branch? edge = some branch) : graph.IsBranchOf edge branch.toJson := by
  obtain ⟨checks, stored, rfl⟩ := Option.map_eq_some_iff.mp found
  obtain ⟨check, member, own, asks⟩ := (checksAt?_eq_some unique).mp stored
  refine ⟨check, member, checks, _, own, asks, graph.leadsFirst_nextStep? check.id, ?_, ?_⟩
  · simp [Branch.toJson, nextField]
  · simp [Branch.toJson, nextField, own]

/-- Edges that lead to no check give no branch. -/
theorem branches_eq_checkEdges (unique : graph.UniqueIds) (id : String) :
    graph.branches id = (graph.checkEdges id).filterMap graph.branch? := by
  have gives (edge : Edge) :
      decide (graph.kindAt? edge.target = some .conditionCheck) = (graph.branch? edge).isSome := by
    rw [Bool.eq_iff_iff, decide_eq_true_iff, ← exists_branch unique, Option.isSome_iff_exists]
  simp only [branches, checkEdges, gives, List.filterMap_filter]
  apply List.filterMap_congr
  intro edge _
  cases graph.branch? edge <;> rfl

/-- A condition has one branch for each of its edges to a check. -/
theorem branches_beside (unique : graph.UniqueIds) (id : String) :
    List.Forall₂ graph.IsBranchOf (graph.checkEdges id) ((graph.branches id).map Branch.toJson) := by
  have all : ∀ edge ∈ graph.checkEdges id, ∃ branch, graph.branch? edge = some branch := by
    intro edge member
    exact (exists_branch unique).mpr (decide_eq_true_eq.mp (List.mem_filter.mp member).2)
  rw [branches_eq_checkEdges unique, List.forall₂_map_right_iff]
  exact (forall₂_filterMap all).imp fun _ _ found => isBranchOf_of_branch unique found

/-! Descriptors -/

theorem isFormOf_descriptorOf (unique : graph.UniqueIds) (node : Node) :
    graph.IsFormOf node (graph.descriptorOf node).toJson := by
  refine ⟨by simp [Descriptor.toJson], by simp [Descriptor.toJson], ?_⟩
  cases shape : node.payload with
  | action step =>
    refine ⟨.obj (Descriptor.actionForm step (graph.nextStep? node.id)), _, ?_,
      graph.leadsFirst_nextStep? node.id, ?_⟩
    · simp [Descriptor.toJson, descriptorOf, shape, Descriptor.body]
    · simp [Descriptor.actionForm, ActionStep.words, nextField]
  | condition =>
    refine ⟨_, ?_, branches_beside unique node.id⟩
    simp [Descriptor.toJson, descriptorOf, shape, Descriptor.body]
  | conditionCheck checks =>
    refine ⟨_, ?_, graph.leadsFirst_nextStep? node.id, ?_⟩
    · simp [Descriptor.toJson, descriptorOf, shape, Descriptor.body, nextField]
    · simp [Descriptor.toJson, descriptorOf, shape, Descriptor.body, nextField]

theorem forms_distinct (unique : graph.UniqueIds) (entry : Option String) :
    (((graph.compile entry).descriptors.map Descriptor.toJson).map fun form => form.field? "id").Nodup := by
  have ids : ((graph.compile entry).descriptors.map Descriptor.toJson).map (fun form => form.field? "id") =
      ((graph.compile entry).descriptors.map Descriptor.id).map (some ∘ Json.str) := by
    simp [Descriptor.toJson]
  rw [ids]
  exact (plan_ids graph entry unique).map fun _ _ same => Json.str.inj (Option.some.inj same)

/-! Places -/

/-- Each node has its place, and nothing else has one. -/
structure PlacedIn (graph : Graph) (positions : Fields) : Prop where
  ids : positions.map Prod.fst = graph.nodes.map Node.id
  places : ∀ node ∈ graph.nodes,
    positions.get? node.id = some (.obj [("x", node.position.x), ("y", node.position.y)])

theorem placedIn_positions (unique : graph.UniqueIds) :
    graph.PlacedIn (graph.nodes.map fun node => (node.id, node.position.toJson)) := by
  have ids : (graph.nodes.map fun node => (node.id, node.position.toJson)).map Prod.fst =
      graph.nodes.map Node.id := by
    simp
  refine ⟨ids, fun node member => ?_⟩
  exact Fields.get?_of_mem (ids ▸ unique) (List.mem_map_of_mem member)

/-- A plan covers its graph: what is written for the nodes that stand on their own is all that is written, with
an id for each, and the places are those of the nodes. -/
theorem compile_covers (unique : graph.UniqueIds) (entry : Option String) :
    ∃ forms positions, (graph.compile entry).toJson.field? "nodes" = some (.arr forms) ∧
      (graph.compile entry).toJson.field? "positions" = some (.obj positions) ∧
      (forms.map fun form => form.field? "id").Nodup ∧
      (∀ node ∈ graph.nodes, (node.kind = .conditionCheck → ¬ graph.Absorbed node.id) →
        ∃ form ∈ forms, graph.IsFormOf node form) ∧
      (∀ form ∈ forms, ∃ node ∈ graph.nodes, (node.kind = .conditionCheck → ¬ graph.Absorbed node.id) ∧
        graph.IsFormOf node form) ∧
      graph.PlacedIn positions := by
  refine ⟨(graph.compile entry).descriptors.map Descriptor.toJson,
    graph.nodes.map fun node => (node.id, node.position.toJson), by simp [Plan.toJson], ?_,
    forms_distinct unique entry, ?_, ?_, placedIn_positions unique⟩
  · simp [Plan.toJson, compile, Function.comp_def]
  · intro node member alone
    have stands := (stands_iff_absorbed unique).mpr alone
    exact ⟨_, List.mem_map_of_mem (mem_plan.mpr ⟨node, member, stands, rfl⟩),
      isFormOf_descriptorOf unique node⟩
  · intro form written
    obtain ⟨descriptor, listed, rfl⟩ := List.mem_map.mp written
    obtain ⟨node, member, stands, rfl⟩ := mem_plan.mp listed
    exact ⟨node, member, (stands_iff_absorbed unique).mp stands, isFormOf_descriptorOf unique node⟩

/-- A condition with two edges to the same check, one to itself and one to nowhere; the check comes back to
itself, and a check of its own follows an action and a node that is missing. -/
def crowded : Graph where
  nodes :=
    [⟨"ask", .condition, .origin⟩, ⟨"met", .conditionCheck [⟨.isNova, true, none⟩], .origin⟩,
      ⟨"loose", .conditionCheck [], .origin⟩, ⟨"tell", .action .default, .origin⟩]
  edges :=
    [.plain "a" "ask" "met", .plain "b" "ask" "ask", .plain "c" "ask" "gone", .plain "d" "ask" "met",
      .plain "e" "met" "met", .plain "f" "met" "tell", .plain "g" "tell" "loose", .plain "h" "tell" "ask",
      .plain "i" "gone" "loose"]

theorem compile_covers_crowded :
    ∃ forms positions, (crowded.compile (some "loose")).toJson.field? "nodes" = some (.arr forms) ∧
      (crowded.compile (some "loose")).toJson.field? "positions" = some (.obj positions) ∧
      (∃ form ∈ forms, crowded.IsFormOf ⟨"ask", .condition, .origin⟩ form) ∧
      (crowded.checkEdges "ask").map Edge.id = ["a", "d"] ∧
      (∃ form ∈ forms, crowded.IsFormOf ⟨"loose", .conditionCheck [], .origin⟩ form) ∧
      (∀ form ∈ forms, form.field? "id" ≠ some (.str "met")) ∧
      crowded.PlacedIn positions := by
  have unique : crowded.UniqueIds := by
    unfold UniqueIds
    decide
  obtain ⟨forms, positions, written, places, _, covers, only, placed⟩ :=
    compile_covers unique (some "loose")
  have owned : crowded.Absorbed "met" := by decide +kernel
  have free : ¬ crowded.Absorbed "loose" := by decide +kernel
  refine ⟨forms, positions, written, places, covers _ (by decide) (by simp [Node.kind, Payload.kind]),
    by decide +kernel, covers _ (by decide) fun _ => free, ?_, placed⟩
  intro form member same
  obtain ⟨node, inside, alone, form⟩ := only form member
  obtain rfl : node = ⟨"met", .conditionCheck [⟨.isNova, true, none⟩], .origin⟩ :=
    eq_of_id unique inside (by decide) (Json.str.inj (Option.some.inj (form.id.symm.trans same)))
  exact alone rfl owned

end Graph

end OutreachFlow
