import OutreachFlow.Proofs.Plan.Interleaving
import OutreachFlow.Proofs.Rules.Defects
import OutreachFlow.Proofs.Session.Preview

/-! Connections in another order. A run of connections adds their links in the order in which they are made,
and an export only asks for the links of each node. So two runs that connect each node to the same targets in
the same order export the same plan, however the connections of different nodes are mixed. A strict export
refuses both or none, although it may list their issues in different orders. -/
namespace OutreachFlow

/-- The link that a connection asks for. -/
def Command.link? : Command → Option (String × String)
  | .connect source target .. => some (source, target)
  | _ => none

/-- Where the connections from a node lead, in the order in which they are made. -/
def Command.targetsFrom (commands : List Command) (id : String) : List String :=
  ((commands.filterMap link?).filter fun link => link.1 = id).map Prod.snd

/-! Strict exports -/

namespace Graph.SameTargets

variable {graph other : Graph} {entry : Option String}

theorem symm (same : graph.SameTargets other) : other.SameTargets graph where
  nodes := same.nodes.symm
  targets node member := (same.targets node (same.nodes ▸ member)).symm

theorem has (same : graph.SameTargets other) (id : String) : graph.has id = other.has id := by
  rw [Graph.has, Graph.has, same.nodes]

theorem mem_links (same : graph.SameTargets other) {source target : String}
    (leaves : graph.has source = true) :
    (source, target) ∈ graph.links ↔ (source, target) ∈ other.links := by
  obtain ⟨node, member, rfl⟩ := has_eq_true.mp leaves
  rw [← mem_targets, ← mem_targets, same.targets node member]

/-- Defects are told by nodes and by which links there are, so they do not come up in another order. -/
theorem flawless (same : graph.SameTargets other)
    (leaves : ∀ edge ∈ other.edges, other.has edge.source = true) (flawless : graph.Flawless entry) :
    other.Flawless entry := by
  have there {edge : Edge} (member : edge ∈ other.edges) :
      ∃ twin ∈ graph.edges, twin.source = edge.source ∧ twin.target = edge.target := by
    have link : (edge.source, edge.target) ∈ other.links := List.mem_map_of_mem member
    have known : graph.has edge.source = true := (same.has _).trans (leaves edge member)
    obtain ⟨twin, inside, ends⟩ := List.mem_map.mp ((same.mem_links known).mpr link)
    exact ⟨twin, inside, Prod.mk.inj ends⟩
  refine ⟨?starts, ?joined, ?roomy, ?checked, ?timed, ?acyclic⟩
  case starts => simpa only [EntryMisplaced, same.nodes, same.has] using flawless.starts
  case joined =>
    intro edge member
    obtain ⟨twin, inside, source, target⟩ := there member
    simpa only [EdgeBroken, EdgeLoose, EdgeUnfit, same.nodes, same.has, source, target] using
      flawless.joined twin inside
  case roomy =>
    intro node member
    have inside : node ∈ graph.nodes := same.nodes ▸ member
    have lengths : (other.outgoing node.id).length = (graph.outgoing node.id).length := by
      simpa [Graph.targets] using (congrArg List.length (same.targets node inside)).symm
    simpa only [Overfull, countP_source, lengths] using flawless.roomy node inside
  case checked => exact same.nodes ▸ flawless.checked
  case timed => exact same.nodes ▸ flawless.timed
  case acyclic =>
    have leads : ∀ source target, other.Leads source target → graph.Leads source target := by
      rintro _ _ ⟨leaves, arrives, edge, member, rfl, rfl⟩
      exact ⟨(same.has _).trans leaves, (same.has _).trans arrives, there member⟩
    rintro ⟨id, walk⟩
    exact flawless.acyclic ⟨id, Relation.TransGen.mono leads _ _ walk⟩

end Graph.SameTargets

theorem Session.exportPlan_strict {session : Session} {plan : Plan}
    (unique : session.graph.UniqueIds) :
    session.exportPlan true = .ok plan ↔
      session.graph.Flawless session.entry ∧ session.graph.compile session.entry = plan := by
  rw [← Graph.issues_eq_nil unique, ← Graph.ensureValid_eq_ok]
  simp [exportPlan, bind_eq_ok, mapError_eq_ok, pure, Except.pure, Unique.exists_iff]

/-! Runs of connections -/

namespace Workspace

variable {workspace first second : Workspace} {command : Command} {commands commands' : List Command}

/-- All commands are connections, and each of them is made. -/
def Connects : Workspace → List Command → Prop
  | _, [] => True
  | workspace, command :: rest =>
    command.link?.isSome = true ∧ workspace.Accepts command ∧ (workspace.run command).1.Connects rest

instance decidableConnects : (workspace : Workspace) → (commands : List Command) →
    Decidable (workspace.Connects commands)
  | _, [] => isTrue trivial
  | workspace, command :: rest =>
    have := decidableConnects (workspace.run command).1 rest
    inferInstanceAs (Decidable (_ ∧ _ ∧ _))

/-- A connection that is made adds one edge behind the others and changes nothing else. -/
theorem run_connection (connection : command.link?.isSome = true) (made : workspace.Accepts command) :
    ∃ edge, command.link? = some (edge.source, edge.target) ∧
      (workspace.run command).1.session = workspace.session.addEdge edge := by
  cases command with
  | connect source target id sourceHandle targetHandle =>
    obtain ⟨⟨⟩, ready⟩ := accepts_connect.mp made
    obtain ⟨ids, edge, rfl, rfl, done⟩ := run_connect_of_ok ready sourceHandle targetHandle
    exact ⟨edge, rfl, by rw [done]⟩
  | _ => contradiction

theorem runAll_connections (connects : workspace.Connects commands) :
    ∃ edges, (edges.map fun edge => (edge.source, edge.target)) = commands.filterMap Command.link? ∧
      (workspace.runAll commands).session =
        ⟨⟨workspace.session.graph.nodes, workspace.session.graph.edges ++ edges⟩,
          workspace.session.entry⟩ := by
  induction commands generalizing workspace with
  | nil => exact ⟨[], rfl, by simp [runAll]⟩
  | cons command rest ih =>
    obtain ⟨connection, made, later⟩ := connects
    obtain ⟨edge, link, after⟩ := run_connection connection made
    obtain ⟨edges, links, reached⟩ := ih later
    refine ⟨edge :: edges, ?_, ?_⟩
    · rw [List.map_cons, links, List.filterMap_cons_some link]
    · rw [runAll, List.foldl_cons]
      rw [runAll] at reached
      rw [reached, after]
      simp [Session.addEdge]

theorem targets_runAll (connects : workspace.Connects commands) (id : String) :
    (workspace.runAll commands).session.graph.targets id =
      workspace.session.graph.targets id ++ Command.targetsFrom commands id := by
  obtain ⟨edges, links, reached⟩ := runAll_connections connects
  rw [reached, Graph.targets_eq_links, Graph.targets_eq_links, Graph.links, Command.targetsFrom, ← links]
  simp [Graph.links]

theorem sameTargets_runAll (same : first.session.graph.SameTargets second.session.graph)
    (connects : first.Connects commands) (connects' : second.Connects commands')
    (order : ∀ node ∈ first.session.graph.nodes,
      Command.targetsFrom commands node.id = Command.targetsFrom commands' node.id) :
    (first.runAll commands).session.graph.SameTargets (second.runAll commands').session.graph := by
  obtain ⟨_, _, reached⟩ := runAll_connections connects
  obtain ⟨_, _, reached'⟩ := runAll_connections connects'
  refine ⟨by rw [reached, reached', same.nodes], ?_⟩
  intro node member
  have inside : node ∈ first.session.graph.nodes := by simpa [reached] using member
  rw [targets_runAll connects, targets_runAll connects', same.targets node inside, order node inside]

end Workspace

/-- Graphs with the same nodes compile to the same plan under every entry, if the edges from each node lead to
the same targets in the same order. So two runs of connections that start from such graphs, and make those of
each node in the same order, lead to the same export; and of sessions that are consistent, a strict export
succeeds on both or on none. -/
theorem exports_of_sameTargets :
    (∀ graph other : Graph, graph.SameTargets other →
        ∀ entry, graph.compile entry = other.compile entry) ∧
      ∀ (first second : Workspace) (commands commands' : List Command),
        first.session.graph.SameTargets second.session.graph →
        first.session.entry = second.session.entry →
        first.Connects commands → second.Connects commands' →
        (∀ node ∈ first.session.graph.nodes,
          Command.targetsFrom commands node.id = Command.targetsFrom commands' node.id) →
          (first.runAll commands).session.exportPlan false =
              (second.runAll commands').session.exportPlan false ∧
            (first.session.Consistent → second.session.Consistent → ∀ plan,
              ((first.runAll commands).session.exportPlan true = .ok plan ↔
                (second.runAll commands').session.exportPlan true = .ok plan)) := by
  refine ⟨fun _ _ same entry => same.compile entry, ?_⟩
  intro first second commands commands' same entry connects connects' order
  have after := Workspace.sameTargets_runAll same connects connects' order
  have entries : (first.runAll commands).session.entry = (second.runAll commands').session.entry := by
    obtain ⟨_, _, reached⟩ := Workspace.runAll_connections connects
    obtain ⟨_, _, reached'⟩ := Workspace.runAll_connections connects'
    rw [reached, reached', entry]
  refine ⟨?_, ?_⟩
  · have plans := after.compile (first.runAll commands).session.entry
    simp only [Session.exportPlan]
    rw [plans, entries]
    rfl
  · intro consistent consistent' plan
    have sound := Workspace.consistent_runAll consistent commands
    have sound' := Workspace.consistent_runAll consistent' commands'
    rw [Session.exportPlan_strict sound.unique, Session.exportPlan_strict sound'.unique, ← entries,
      ← after.compile]
    refine and_congr_left fun _ => ⟨?_, ?_⟩
    · exact after.flawless fun edge member => (sound'.joined edge member).1
    · exact after.symm.flawless fun edge member => (sound.joined edge member).1

/-- A condition, which is the entry, two checks and an action, not connected yet. -/
def fan : Workspace :=
  .runAll ⟨.empty, .counted⟩
    [.addNode (.str "condition") (some "ask") none none, .addNode (.str "condition_check") (some "met") none none,
      .addNode (.str "condition_check") (some "late") none none,
      .addNode (.str "action") (some "tell") none none, .setEntry "ask"]

/-- The edges of the fan one branch after the other. -/
def fanByBranch : List Command :=
  [.connect "ask" "met" none .null .null, .connect "met" "tell" none .null .null,
    .connect "ask" "late" none .null .null, .connect "late" "tell" none .null .null]

/-- The edges of the fan one node after the other, under other ids and with handles. -/
def fanByNode : List Command :=
  [.connect "late" "tell" (some "last") .null (.bool true), .connect "ask" "met" (some "e") (.str "left") .null,
    .connect "ask" "late" none .null .null, .connect "met" "tell" none .null (.int 0)]

/-- A graph with parallel edges, an edge to nowhere and one from nowhere. -/
def strayFan : Graph where
  nodes := [⟨"ask", .condition, .origin⟩, ⟨"met", .conditionCheck [], .origin⟩]
  edges := [.plain "1" "ask" "met", .plain "2" "met" "gone", .plain "3" "ask" "met", .plain "4" "gone" "ask"]

theorem exports_of_sameTargets_fan :
    fan.Connects fanByBranch ∧ fan.Connects fanByNode ∧
      (fan.runAll fanByBranch).session.exportPlan false = (fan.runAll fanByNode).session.exportPlan false ∧
      (∀ plan, (fan.runAll fanByBranch).session.exportPlan true = .ok plan ↔
        (fan.runAll fanByNode).session.exportPlan true = .ok plan) ∧
      strayFan.compile (some "met") =
        Graph.compile ⟨strayFan.nodes, [.plain "b" "met" "gone", .plain "a" "ask" "met",
          ⟨"a", "ask", "met", .int 0, .null⟩]⟩ (some "met") := by
  have connects : fan.Connects fanByBranch := by decide +kernel
  have connects' : fan.Connects fanByNode := by decide +kernel
  have order : ∀ node ∈ fan.session.graph.nodes,
      Command.targetsFrom fanByBranch node.id = Command.targetsFrom fanByNode node.id := by decide +kernel
  have consistent : fan.session.Consistent := Workspace.consistent_of_runAll .counted _
  have runs := exports_of_sameTargets.2 fan fan fanByBranch fanByNode ⟨rfl, fun _ _ => rfl⟩ rfl connects
    connects' order
  refine ⟨connects, connects', runs.1, runs.2 consistent consistent, ?_⟩
  exact exports_of_sameTargets.1 _ _ ⟨rfl, by decide +kernel⟩ _

end OutreachFlow
