import OutreachFlow.Proofs.Plan.Coverage
import OutreachFlow.Proofs.Plan.Renaming
import OutreachFlow.Proofs.Session.Invariant

/-! What an export says about edges. Compiling takes the first edge of an action or a check for its
next step, and passes over edges from conditions to anything but checks. In a session nothing is
lost by that: what is written for a node are all of its edges, in their order, and nothing else. -/
namespace OutreachFlow

namespace Json

/-- A written descriptor is that of the node with an id. -/
def Describes (form : Json) (id : String) : Prop := form.field? "id" = some (.str id)

end Json

namespace Graph

/-- The next step that is written is where the edges of a node lead: nowhere if it has none. -/
def StepMatches (graph : Graph) (id : String) (form : Json) : Prop :=
  (form.field? "nextStepId").toList = (graph.targets id).map .str

/-- A branch that is written for an edge to a check carries its checks and the step behind it. -/
def BranchMatches (graph : Graph) (edge : Edge) (branch : Json) : Prop :=
  ∃ check ∈ graph.nodes, ∃ checks, check.id = edge.target ∧ check.payload = .conditionCheck checks ∧
    branch.field? "checks" = some (checksForm checks) ∧ graph.StepMatches edge.target branch

/-- What is written for a node: the edges of an action are in its child, those of a condition are its
branches in edge order, and those of a check on its own stand beside its checks. -/
def Mirrors (graph : Graph) (node : Node) (form : Json) : Prop :=
  form.Describes node.id ∧
    match node.kind with
    | .action => form.field? "nextStepId" = none ∧
        ∃ child, form.field? "child" = some child ∧ graph.StepMatches node.id child
    | .condition => form.field? "nextStepId" = none ∧
        ∃ branches, form.field? "child" = some (.arr branches) ∧
          List.Forall₂ graph.BranchMatches (graph.outgoing node.id) branches
    | .conditionCheck => form.field? "child" = none ∧ graph.StepMatches node.id form

/-- Every written descriptor mirrors a node, no two of them the same, and every node is mirrored but
the checks that a condition leads to. -/
structure MirroredIn (graph : Graph) (forms : List Json) : Prop where
  distinct : (forms.map fun form => form.field? "id").Nodup
  covers : ∀ node ∈ graph.nodes, (node.kind = .conditionCheck → graph.isOwned node.id = false) →
    ∃ form ∈ forms, graph.Mirrors node form
  only : ∀ form ∈ forms, ∃ node ∈ graph.nodes, graph.Mirrors node form

/-- An edge that can be found in what is written: as the next step of an action, as the branch at its
rank, or as the next step of a check wherever that is written. -/
def Keeps (graph : Graph) (forms : List Json) (edge : Edge) : Prop :=
  ∃ source ∈ graph.nodes, source.id = edge.source ∧
    match source.kind with
    | .action => ∃ form ∈ forms, form.Describes edge.source ∧
        ∃ child, form.field? "child" = some child ∧
          child.field? "nextStepId" = some (.str edge.target)
    | .condition => ∃ form ∈ forms, form.Describes edge.source ∧
        ∃ branches, form.field? "child" = some (.arr branches) ∧
          ∀ rank : Nat, (graph.outgoing edge.source)[rank]? = some edge →
            ∃ branch, branches[rank]? = some branch ∧ graph.BranchMatches edge branch
    | .conditionCheck =>
      (∀ form ∈ forms, form.Describes edge.source →
        form.field? "nextStepId" = some (.str edge.target)) ∧
      ∀ form ∈ forms, ∀ condition ∈ graph.nodes, condition.kind = .condition →
        form.Describes condition.id → ∃ branches, form.field? "child" = some (.arr branches) ∧
          ∀ (rank : Nat) (into : Edge), (graph.outgoing condition.id)[rank]? = some into →
            into.target = edge.source →
              ∃ branch : Json, branches[rank]? = some branch ∧
                branch.field? "nextStepId" = some (.str edge.target)

end Graph

/-! Written descriptors -/

theorem getElem?_of_forall₂ {α β : Type} {relation : α → β → Prop} {items : List α}
    {values : List β} (beside : List.Forall₂ relation items values) {rank : Nat} {item : α}
    (found : items[rank]? = some item) :
    ∃ value, values[rank]? = some value ∧ relation item value := by
  induction beside generalizing rank with
  | nil => simp at found
  | cons related _ ih =>
    cases rank with
    | zero =>
      obtain rfl := Option.some.inj found
      exact ⟨_, rfl, related⟩
    | succ rank => exact ih found

namespace Graph

variable {graph : Graph} {entry : Option String} {node : Node}

theorem stepMatches_of_short {id : String} {form : Json}
    (written : form.field? "nextStepId" = (graph.nextStep? id).map .str)
    (short : (graph.targets id).length ≤ 1) : graph.StepMatches id form := by
  rw [StepMatches, written, nextStep?_eq]
  conv_rhs => rw [← toList_head? short]
  cases (graph.targets id).head? <;> rfl

/-- What an edge set must meet to be written without loss. -/
structure Mirrorable (graph : Graph) : Prop where
  unique : graph.UniqueIds
  single : ∀ node ∈ graph.nodes, node.kind.singleSuccessor = true →
    (graph.targets node.id).length ≤ 1
  branches : ∀ node ∈ graph.nodes, node.kind = .condition → ∀ edge ∈ graph.outgoing node.id,
    ∃ check ∈ graph.nodes, check.id = edge.target ∧ check.kind = .conditionCheck

theorem Mirrorable.branchMatches (mirrorable : graph.Mirrorable) {edge : Edge} {branch : Branch}
    (found : graph.branch? edge = some branch) : graph.BranchMatches edge branch.toJson := by
  obtain ⟨checks, stored, rfl⟩ := Option.map_eq_some_iff.mp found
  obtain ⟨check, inside, same, payload⟩ := (checksAt?_eq_some mirrorable.unique).mp stored
  have kind : check.kind = .conditionCheck := Node.kind_eq_check.mpr ⟨checks, payload⟩
  refine ⟨check, inside, checks, same, payload, ?_, ?_⟩
  · simp [Branch.toJson, nextField]
  · apply stepMatches_of_short
    · simp [Branch.toJson, nextField]
    · rw [← same]
      exact mirrorable.single check inside (by rw [kind]; rfl)

theorem Mirrorable.mirrors (mirrorable : graph.Mirrorable) (member : node ∈ graph.nodes) :
    graph.Mirrors node (graph.descriptorOf node).toJson := by
  refine ⟨by simp [Json.Describes, Descriptor.toJson], ?_⟩
  cases shape : node.payload with
  | action step =>
    have kind : node.kind = .action := by rw [Node.kind, shape]; rfl
    rw [kind]
    refine ⟨by simp [Descriptor.toJson, descriptorOf, shape, Descriptor.body], ?_⟩
    refine ⟨.obj (Descriptor.actionForm step (graph.nextStep? node.id)), ?_, stepMatches_of_short ?_ ?_⟩
    · simp [Descriptor.toJson, descriptorOf, shape, Descriptor.body]
    · simp [Descriptor.actionForm, ActionStep.words, nextField]
    · exact mirrorable.single node member (by rw [kind]; rfl)
  | condition =>
    have kind : node.kind = .condition := by rw [Node.kind, shape]; rfl
    rw [kind]
    refine ⟨by simp [Descriptor.toJson, descriptorOf, shape, Descriptor.body], ?_⟩
    refine ⟨(graph.branches node.id).map Branch.toJson, ?_, ?_⟩
    · simp [Descriptor.toJson, descriptorOf, shape, Descriptor.body]
    · have beside : List.Forall₂ (fun edge branch => graph.branch? edge = some branch)
          (graph.outgoing node.id) (graph.branches node.id) := by
        apply forall₂_filterMap
        intro edge leaves
        obtain ⟨check, inside, same, kind'⟩ := mirrorable.branches node member kind edge leaves
        obtain ⟨checks, payload⟩ := Node.kind_eq_check.mp kind'
        have stored : graph.checksAt? edge.target = some checks :=
          (checksAt?_eq_some mirrorable.unique).mpr ⟨check, inside, same, payload⟩
        exact ⟨_, congrArg _ stored⟩
      rw [List.forall₂_map_right_iff]
      exact beside.imp fun _ _ found => mirrorable.branchMatches found
  | conditionCheck checks =>
    have kind : node.kind = .conditionCheck := by rw [Node.kind, shape]; rfl
    rw [kind]
    refine ⟨by simp [Descriptor.toJson, descriptorOf, shape, Descriptor.body, nextField], ?_⟩
    apply stepMatches_of_short
    · simp [Descriptor.toJson, descriptorOf, shape, Descriptor.body, nextField]
    · exact mirrorable.single node member (by rw [kind]; rfl)

/-- What is compiled from such a graph mirrors it. -/
theorem Mirrorable.mirroredIn (mirrorable : graph.Mirrorable) (entry : Option String) :
    graph.MirroredIn ((graph.compile entry).descriptors.map Descriptor.toJson) := by
  refine ⟨forms_distinct mirrorable.unique entry, ?_, ?_⟩
  · intro node member free
    refine ⟨_, List.mem_map_of_mem (mem_plan.mpr ⟨node, member, stands_iff.mpr free, rfl⟩), ?_⟩
    exact mirrorable.mirrors member
  · intro form written
    obtain ⟨descriptor, listed, rfl⟩ := List.mem_map.mp written
    obtain ⟨node, member, _, rfl⟩ := mem_plan.mp listed
    exact ⟨node, member, mirrorable.mirrors member⟩

/-! Edges in what is written -/

theorem StepMatches.of_edge {edge : Edge} {form : Json} (steps : graph.StepMatches edge.source form)
    (member : edge ∈ graph.edges) : form.field? "nextStepId" = some (.str edge.target) := by
  have leads : edge.target ∈ graph.targets edge.source :=
    mem_targets.mpr (List.mem_map_of_mem member)
  have written : Json.str edge.target ∈ (form.field? "nextStepId").toList := by
    rw [steps]
    exact List.mem_map_of_mem leads
  exact Option.mem_toList.mp written

theorem MirroredIn.mirrors_of_describes {forms : List Json} (mirrored : graph.MirroredIn forms)
    (unique : graph.UniqueIds) {form : Json} (written : form ∈ forms) (member : node ∈ graph.nodes)
    (describes : form.Describes node.id) : graph.Mirrors node form := by
  obtain ⟨other, inside, mirrors⟩ := mirrored.only form written
  have same : node.id = other.id :=
    Json.str.inj (Option.some.inj (describes.symm.trans mirrors.1))
  rwa [eq_of_id unique member inside same]

/-- A graph that is mirrored loses no edge. -/
theorem MirroredIn.keeps {forms : List Json} (mirrored : graph.MirroredIn forms)
    (unique : graph.UniqueIds) {edge : Edge} (member : edge ∈ graph.edges)
    {source : Node} (inside : source ∈ graph.nodes) (leaves : source.id = edge.source) :
    graph.Keeps forms edge := by
  refine ⟨source, inside, leaves, ?_⟩
  cases kind : source.kind with
  | action =>
    obtain ⟨form, written, describes, shape⟩ := mirrored.covers source inside (by simp [kind])
    rw [kind] at shape
    obtain ⟨_, child, found, steps⟩ := shape
    rw [leaves] at describes steps
    exact ⟨form, written, describes, child, found, steps.of_edge member⟩
  | condition =>
    obtain ⟨form, written, describes, shape⟩ := mirrored.covers source inside (by simp [kind])
    rw [kind] at shape
    obtain ⟨_, branches, found, beside⟩ := shape
    rw [leaves] at describes beside
    exact ⟨form, written, describes, branches, found, fun _ place => getElem?_of_forall₂ beside place⟩
  | conditionCheck =>
    constructor
    · intro form written describes
      have mirrors := mirrored.mirrors_of_describes unique written inside (leaves ▸ describes)
      rw [Mirrors, kind, leaves] at mirrors
      exact mirrors.2.2.of_edge member
    · intro form written condition inside' kind' describes
      have mirrors := mirrored.mirrors_of_describes unique written inside' describes
      rw [Mirrors, kind'] at mirrors
      obtain ⟨_, _, branches, found, beside⟩ := mirrors
      refine ⟨branches, found, ?_⟩
      intro rank into place arrives
      obtain ⟨branch, placed, _, _, _, _, _, _, steps⟩ := getElem?_of_forall₂ beside place
      rw [arrives] at steps
      exact ⟨branch, placed, steps.of_edge member⟩

end Graph

namespace Session

variable {session : Session}

theorem Consistent.mirrorable (consistent : session.Consistent) : session.graph.Mirrorable := by
  refine ⟨consistent.unique, ?_, ?_⟩
  · intro node member limited
    rw [Graph.length_targets]
    exact consistent.single node.id node.kind (Graph.kindAt?_of_mem consistent.unique member) limited
  · intro node member kind edge leaves
    obtain ⟨listed, source⟩ := List.mem_filter.mp leaves
    have same : edge.source = node.id := by simpa using source
    have condition : session.graph.kindAt? edge.source = some .condition := by
      rw [same, ← kind]
      exact Graph.kindAt?_of_mem consistent.unique member
    exact (Graph.kindAt?_eq_some consistent.unique).mp (consistent.branches edge listed condition)

/-- An export of a session, and the list of written descriptors in it. -/
def Exports (session : Session) (strict : Bool) (forms : List Json) : Prop :=
  ∃ plan, session.exportPlan strict = .ok plan ∧ plan.toJson.field? "nodes" = some (.arr forms)

theorem exports_iff {forms : List Json} :
    session.Exports false forms ↔
      forms = (session.graph.compile session.entry).descriptors.map Descriptor.toJson := by
  constructor
  · rintro ⟨plan, exported, found⟩
    obtain rfl := Except.ok.inj exported
    simpa [Plan.toJson, eq_comm] using found
  · rintro rfl
    exact ⟨_, rfl, by simp [Plan.toJson]⟩

/-- A strict export may be refused, but what it gives is the same. -/
theorem exports_of_strict {forms : List Json} (exported : session.Exports true forms) :
    session.Exports false forms := by
  obtain ⟨plan, exported, found⟩ := exported
  simp only [exportPlan, if_true, bind_eq_ok, pure, Except.pure, Except.ok.injEq] at exported
  obtain ⟨_, _, rfl⟩ := exported
  exact ⟨_, rfl, found⟩

end Session

/-- In a session that can be reached from the empty one the export keeps every edge, and says nothing
of a node but what its edges say. -/
theorem Workspace.runAll_mirrored (ids : Supply) (commands : List Command) :
    let session := (runAll ⟨.empty, ids⟩ commands).session
    (∃ forms, session.Exports false forms) ∧
      ∀ strict forms, session.Exports strict forms →
        (∀ edge ∈ session.graph.edges, session.graph.Keeps forms edge) ∧
          session.graph.MirroredIn forms := by
  intro session
  have consistent : session.Consistent := consistent_of_runAll ids commands
  refine ⟨⟨_, Session.exports_iff.mpr rfl⟩, ?_⟩
  intro strict forms exported
  have same : session.Exports false forms := by
    cases strict with
    | false => exact exported
    | true => exact Session.exports_of_strict exported
  obtain rfl := Session.exports_iff.mp same
  have mirrored := consistent.mirrorable.mirroredIn session.entry
  refine ⟨?_, mirrored⟩
  intro edge member
  obtain ⟨source, inside, leaves⟩ := Graph.has_eq_true.mp (consistent.joined edge member).1
  exact mirrored.keeps consistent.unique member inside leaves

/-- Two conditions share a check, and behind it an action leads back to one of them. -/
def sharedCommands : List Command :=
  [.addNode (.str "condition") (some "ask") none none,
    .addNode (.str "condition") (some "again") none none,
    .addNode (.str "condition_check") (some "met") none none,
    .addNode (.str "action") (some "tell") none none, .connect "ask" "met" none .null .null,
    .connect "again" "met" none .null .null, .connect "met" "tell" none .null .null,
    .connect "tell" "again" none .null .null]

theorem Workspace.runAll_mirrored_sharedCommands :
    ∃ forms, (runAll ⟨.empty, .counted⟩ sharedCommands).session.Exports false forms ∧
      forms.map (fun form => form.field? "id") = ["tell", "ask", "again"].map (some ∘ Json.str) ∧
      (runAll ⟨.empty, .counted⟩ sharedCommands).session.graph.links =
        [("ask", "met"), ("again", "met"), ("met", "tell"), ("tell", "again")] ∧
      (∀ edge ∈ (runAll ⟨.empty, .counted⟩ sharedCommands).session.graph.edges,
        (runAll ⟨.empty, .counted⟩ sharedCommands).session.graph.Keeps forms edge) ∧
      (runAll ⟨.empty, .counted⟩ sharedCommands).session.graph.MirroredIn forms := by
  let session := (runAll ⟨.empty, .counted⟩ sharedCommands).session
  have exported : session.Exports false
      ((session.graph.compile session.entry).descriptors.map Descriptor.toJson) :=
    Session.exports_iff.mpr rfl
  refine ⟨_, exported, by decide +kernel, by decide +kernel, ?_⟩
  exact (runAll_mirrored .counted sharedCommands).2 false _ exported

end OutreachFlow
