import OutreachFlow.Proofs.Plan.Renaming
import OutreachFlow.Proofs.Session.Invariant

/-! Export of a session and import of what was exported. A session without issues can always be
exported, but the plan can be imported only if the ids that import makes up for branches are not
taken, and if every branch has a place. Editing can break both: it moves checks to other branches,
or away from their condition, while they keep their ids. -/
namespace OutreachFlow

namespace Graph

variable {graph : Graph} {entry : Option String}

/-- Every branch has a place, beside its condition or under its made-up id. -/
def BranchesPlaced (graph : Graph) : Prop :=
  ∀ condition ∈ graph.nodes, condition.kind = .condition →
    ∀ index < (graph.outgoing condition.id).length,
      (condition.position.IsNumeric → condition.position.FitsDoubles) ∨
        ∃ node ∈ graph.nodes, node.id = checkNodeId condition.id index ∧ node.position.IsNumeric

theorem admits_iff (unique : graph.UniqueIds) (sound : graph.Sound entry) :
    (∀ condition ∈ graph.nodes, condition.payload = .condition →
      ∀ index < (graph.branches condition.id).length, graph.AdmitsBranch condition index) ↔
        graph.DerivedIdsFree ∧ graph.BranchesPlaced := by
  have count {condition : Node} (member : condition ∈ graph.nodes)
      (shape : condition.payload = .condition) :
      (graph.branches condition.id).length = (graph.outgoing condition.id).length := by
    rw [sound.branches_eq_targets unique member shape, List.length_map, length_targets]
  constructor
  · intro admits
    constructor
    · intro node inside keeps condition member kind index bound
      have shape := Node.kind_eq_condition.mp kind
      exact (admits condition member shape index (count member shape ▸ bound)).free node inside
        (stands_iff.mpr keeps)
    · intro condition member kind index bound
      have shape := Node.kind_eq_condition.mp kind
      exact (admits condition member shape index (count member shape ▸ bound)).room
  · rintro ⟨free, placed⟩ condition member shape index bound
    have kind := Node.kind_eq_condition.mpr shape
    rw [count member shape] at bound
    constructor
    · intro node inside stands
      exact free node inside (stands_iff.mp stands) condition member kind index bound
    · exact placed condition member kind index bound

end Graph

namespace Session

variable {session after : Session}

/-- No node has an empty id. -/
def Named (session : Session) : Prop := "" ∉ session.graph.nodes.map Node.id

theorem named_load {form : Json} {flow : Flow} (imported : Flow.ofJson form = .ok flow) :
    Named ⟨cleaned flow, some flow.entry⟩ := by
  obtain ⟨_, saved, descriptors, _, read, _, rfl⟩ := Flow.ofJson_eq_ok.mp imported
  have ids : (cleaned (Flow.unfold saved descriptors)).nodes.map Node.id = unfoldedIds descriptors := by
    rw [← unfoldedNodes_ids saved 0, ← unfold_nodes]
    rfl
  rw [Named, ids]
  intro member
  obtain ⟨descriptor, listed, inside⟩ := List.mem_flatMap.mp member
  rcases Descriptor.mem_nodeIds.mp inside with own | ⟨entry, _, made⟩
  · exact (Descriptor.named_of_mapM read descriptor listed).id own
  · exact checkNodeId_ne_empty _ _ made

theorem named_step {workspace : Workspace} {command : Command} (before : workspace.session.Named)
    (supplied : workspace.ids.next ≠ "") (change : Step workspace command after) : after.Named := by
  cases change with
  | same | connect | disconnect | start | clear => exact before
  | reset => exact List.not_mem_nil
  | load imported _ => exact named_load imported
  | erase id => exact fun member => before ((List.filter_sublist.map Node.id).mem member)
  | replace =>
    rw [Named, Graph.replace_ids]
    exact before
  | @add node _ named =>
    have nonempty : node.id ≠ "" := named.elim (fun given => given) fun drawn => drawn ▸ supplied
    rw [Named, withNode, List.map_append, List.mem_append, List.map_singleton, List.mem_singleton]
    exact fun either => either.elim before nonempty.symm

end Session

namespace Workspace

theorem runAll_text (workspace : Workspace) (commands : List Command) :
    (workspace.runAll commands).ids.text = workspace.ids.text :=
  runAll_keeps (fun after => after.ids.text = workspace.ids.text) rfl
    fun _ _ same => (run_text _ _).trans same

theorem runAll_named {ids : Supply} (supplied : ∀ count, ids.text count ≠ "")
    (commands : List Command) : (runAll ⟨.empty, ids⟩ commands).session.Named := by
  apply runAll_keeps (fun workspace => workspace.session.Named)
  · exact List.not_mem_nil
  · intro index bound before
    apply Session.named_step before ?_ (step_of_run _ _)
    rw [Supply.next, runAll_text]
    exact supplied _

end Workspace

namespace Session

variable {session : Session}

/-- A session without issues under an entry can be exported strictly. What was exported can be
imported exactly if no id is taken that import makes up and every branch has a place. -/
theorem reimport_iff (consistent : session.Consistent) (named : session.Named) {start : String}
    (entry : session.entry = some start) (valid : session.issues = []) :
    ∃ plan, session.exportPlan true = .ok plan ∧
      ((∃ result, importPlan plan.toJson = .ok result) ↔
        session.graph.DerivedIdsFree ∧ session.graph.BranchesPlaced) := by
  have unique := consistent.unique
  have issues : session.graph.issues (some start) = [] := entry ▸ valid
  have sound := Graph.sound_of_issues unique issues
  obtain ⟨first, inside, rfl, kind⟩ := sound.starts start rfl
  have names : ∀ node ∈ session.graph.nodes, node.id ≠ "" := fun node member empty =>
    named (empty ▸ List.mem_map_of_mem member)
  refine ⟨session.graph.compile (some first.id), ?_, ?_⟩
  · simp [exportPlan, Graph.ensureValid, ensureNone, entry, issues, Except.mapError, bind, Except.bind,
      pure, Except.pure]
  · rw [← Graph.admits_iff unique sound,
      ← Graph.importable_compile unique names (Graph.nonempty_of_links sound names) inside kind]
    simp only [Prod.exists, importPlan_eq_ok]
    constructor
    · rintro ⟨_, _, flow, imported, _⟩
      exact ⟨flow, imported⟩
    · rintro ⟨flow, imported⟩
      exact ⟨_, _, flow, imported, rfl, rfl⟩

end Session

namespace Workspace

/-- The same for every session that can be reached from the empty one, as long as no fresh id is
empty. -/
theorem runAll_reimport {ids : Supply} (supplied : ∀ count, ids.text count ≠ "")
    (commands : List Command) {start : String}
    (entry : (runAll ⟨.empty, ids⟩ commands).session.entry = some start)
    (valid : (runAll ⟨.empty, ids⟩ commands).session.issues = []) :
    ∃ plan, (runAll ⟨.empty, ids⟩ commands).session.exportPlan true = .ok plan ∧
      ((∃ result, Session.importPlan plan.toJson = .ok result) ↔
        (runAll ⟨.empty, ids⟩ commands).session.graph.DerivedIdsFree ∧
          (runAll ⟨.empty, ids⟩ commands).session.graph.BranchesPlaced) :=
  Session.reimport_iff (consistent_of_runAll ids commands) (runAll_named supplied commands) entry valid

theorem counted_nonempty (count : Nat) : Supply.counted.text count ≠ "" := by
  intro empty
  have lengths := congrArg (fun text => text.toList.length) empty
  simp [Supply.counted, String.toList_append] at lengths

theorem runAll_reimport_branchCommands :
    ∃ plan, (runAll ⟨.empty, .counted⟩ branchCommands).session.exportPlan true = .ok plan ∧
      ∃ result, Session.importPlan plan.toJson = .ok result := by
  have entry : (runAll ⟨.empty, .counted⟩ branchCommands).session.entry = some "ask" := by
    decide +kernel
  have valid : (runAll ⟨.empty, .counted⟩ branchCommands).session.issues = [] := by decide +kernel
  obtain ⟨plan, exported, imports⟩ := runAll_reimport counted_nonempty branchCommands entry valid
  refine ⟨plan, exported, imports.mpr ⟨?_, ?_⟩⟩
  · unfold Graph.DerivedIdsFree
    decide +kernel
  · have origins : ∀ node ∈ (runAll ⟨.empty, .counted⟩ branchCommands).session.graph.nodes,
        node.position = .origin := by decide +kernel
    intro condition member _ _ _
    exact .inl fun _ => origins condition member ▸ Position.doubles_fit 0.0 0.0

/-- An imported condition with two branches loses the edge to the first: the check of that branch
keeps its id, which import makes up for the branch that is now the first. -/
def cutCommands : List Command :=
  [.importPlan (.arr [.obj [("id", .str "c"), ("type", .str "CONDITION"), ("child", .arr
      [.obj [("checks", .arr [.obj [("condition", .str "IS_LINKEDIN_CONTACT")]])],
        .obj [("checks", .arr [.obj [("condition", .str "IS_LINKEDIN_CONTACT")]])]])]]),
    .disconnect "edge-0-c-c-check-0"]

theorem runAll_cutCommands :
    (runAll ⟨.empty, .counted⟩ cutCommands).session.entry = some "c" ∧
      (runAll ⟨.empty, .counted⟩ cutCommands).session.issues = [] ∧
      ∃ plan, (runAll ⟨.empty, .counted⟩ cutCommands).session.exportPlan true = .ok plan ∧
        Session.importPlan plan.toJson =
          .error (.importFailed (.invalid (.duplicateNode "c-check-0"))) := by
  refine ⟨by decide +kernel, by decide +kernel,
    (runAll ⟨.empty, .counted⟩ cutCommands).session.graph.compile (some "c"), ?_, ?_⟩
  · decide +kernel
  · decide +kernel

end Workspace

end OutreachFlow
