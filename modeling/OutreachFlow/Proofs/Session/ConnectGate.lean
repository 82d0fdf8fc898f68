import OutreachFlow.Proofs.Rules.Messages
import OutreachFlow.Proofs.Session.Invariant

/-! The connection rules are written twice: as a gate in front of a single edge, and as passes of
the lint over a whole graph. The two agree on every graph, however broken it is already: an edge
passes the gate exactly if the lint has nothing new to say about the graph with it. -/
namespace OutreachFlow

/-- Behind a part that does not change, what is new shows: a further entry, or another list of the
same length or longer. -/
theorem append_eq_iff_of_length_le {α : Type} {front new before after back : List α}
    (longer : before.length ≤ after.length) :
    front ++ new ++ after ++ back = front ++ before ++ back ↔ new = [] ∧ after = before := by
  rw [List.append_assoc front, List.append_cancel_right_eq, List.append_cancel_left_eq]
  constructor
  · intro same
    have lengths := congrArg List.length same
    rw [List.length_append] at lengths
    obtain rfl : new = [] := List.eq_nil_of_length_eq_zero (by omega)
    exact ⟨rfl, same⟩
  · rintro ⟨rfl, rfl⟩
    rfl

namespace Graph

variable {graph : Graph} {entry : Option String} {edge : Edge} {source target : Node}

def withEdge (graph : Graph) (edge : Edge) : Graph := { graph with edges := graph.edges ++ [edge] }

theorem outgoing_withEdge (graph : Graph) (edge : Edge) (id : String) :
    (graph.withEdge edge).outgoing id =
      graph.outgoing id ++ if edge.source = id then [edge] else [] := by
  simp [withEdge, outgoing, List.filter_append, List.filter_singleton]

/-- Only the pass over edges sees a new edge as such, and it reports on it last. -/
theorem edgeIssues_withEdge (graph : Graph) (entry : Option String) (edge : Edge) :
    (graph.withEdge edge).edgeIssues entry =
      graph.edgeIssues entry ++ (graph.edgeIssue? entry edge).toList := by
  have same : (graph.withEdge edge).edgeIssue? entry = graph.edgeIssue? entry := rfl
  have single : [edge].filterMap (graph.edgeIssue? entry) = (graph.edgeIssue? entry edge).toList := by
    cases found : graph.edgeIssue? entry edge <;> simp [found]
  rw [edgeIssues, edgeIssues, same, ← single, ← List.filterMap_append]
  rfl

theorem edgeIssue?_of_joined (leaves : graph.node? edge.source = some source)
    (arrives : graph.node? edge.target = some target) :
    graph.edgeIssue? entry edge = none ↔ refusal? source target entry = none := by
  simp [edgeIssue?, leaves, arrives]

theorem nextStepIssue?_withEdge_of_ne {node : Node} (other : node.id ≠ edge.source) :
    (graph.withEdge edge).nextStepIssue? node = graph.nextStepIssue? node := by
  simp [nextStepIssue?, outgoing_withEdge, Ne.symm other]

/-- Of the pass over next steps, a new edge changes only what is said about its source. -/
theorem nextStepIssues_withEdge (unique : graph.UniqueIds) (member : source ∈ graph.nodes)
    (own : source.id = edge.source) :
    ∃ front back, graph.nextStepIssues = front ++ (graph.nextStepIssue? source).toList ++ back ∧
      (graph.withEdge edge).nextStepIssues =
        front ++ ((graph.withEdge edge).nextStepIssue? source).toList ++ back := by
  obtain ⟨front, back, split⟩ := List.append_of_mem member
  have others : ∀ node ∈ front ++ back, node.id ≠ edge.source := by
    have distinct : ((front ++ source :: back).map Node.id).Nodup := split ▸ unique
    rw [List.map_append, List.map_cons, List.nodup_middle, ← List.map_append] at distinct
    intro node inside same
    exact (List.nodup_cons.mp distinct).1 (own.trans same.symm ▸ List.mem_map_of_mem inside)
  have kept (list : List Node) (part : ∀ node ∈ list, node ∈ front ++ back) :
      list.filterMap (graph.withEdge edge).nextStepIssue? = list.filterMap graph.nextStepIssue? :=
    List.filterMap_congr fun node inside => nextStepIssue?_withEdge_of_ne (others node (part node inside))
  have parts (other : Graph) (same : other.nodes = graph.nodes) :
      other.nextStepIssues = front.filterMap other.nextStepIssue? ++
        (other.nextStepIssue? source).toList ++ back.filterMap other.nextStepIssue? := by
    have single : [source].filterMap other.nextStepIssue? = (other.nextStepIssue? source).toList := by
      cases found : other.nextStepIssue? source <;> simp [found]
    rw [nextStepIssues, same, split, ← List.singleton_append, List.filterMap_append,
      List.filterMap_append, single, List.append_assoc]
  refine ⟨_, _, parts graph rfl, ?_⟩
  rw [parts (graph.withEdge edge) rfl, kept front fun _ => List.mem_append_left _,
    kept back fun _ => List.mem_append_right _]

/-- About its source the pass says nothing new exactly if there was room for the edge. Where there
were too many edges before, the message has another number. -/
theorem nextStepIssue?_source (own : source.id = edge.source) :
    ((graph.withEdge edge).nextStepIssue? source).map Issue.message =
        (graph.nextStepIssue? source).map Issue.message ↔
      (source.kind.singleSuccessor = true → graph.outgoing source.id = []) := by
  have grown : ((graph.withEdge edge).outgoing source.id).length =
      (graph.outgoing source.id).length + 1 := by
    simp [outgoing_withEdge, own]
  simp only [nextStepIssue?, grown]
  cases limited : source.kind.singleSuccessor with
  | false => simp
  | true =>
    cases found : graph.outgoing source.id with
    | nil => simp
    | cons first rest =>
      cases rest with
      | nil => simp
      | cons second rest =>
        have many : ¬ (Issue.tooManyNextSteps source.id source.kind (rest.length + 2 + 1)).message =
            (Issue.tooManyNextSteps source.id source.kind (rest.length + 2)).message := by
          intro same
          have := Issue.count_of_message same
          omega
        simpa using many

theorem nextStepIssues_length_le (unique : graph.UniqueIds) (member : source ∈ graph.nodes)
    (own : source.id = edge.source) :
    graph.nextStepIssues.length ≤ (graph.withEdge edge).nextStepIssues.length := by
  obtain ⟨front, back, before, after⟩ := nextStepIssues_withEdge unique member own
  have grown : (graph.nextStepIssue? source).toList.length ≤
      ((graph.withEdge edge).nextStepIssue? source).toList.length := by
    simp only [nextStepIssue?, outgoing_withEdge, own, if_true, List.length_append,
      List.length_singleton]
    split <;> split <;> simp_all
  rw [before, after]
  simp only [List.length_append]
  omega

theorem nextStepMessages_withEdge (unique : graph.UniqueIds) (member : source ∈ graph.nodes)
    (own : source.id = edge.source) :
    (graph.withEdge edge).nextStepIssues.map Issue.message =
        graph.nextStepIssues.map Issue.message ↔
      (source.kind.singleSuccessor = true → graph.outgoing source.id = []) := by
  obtain ⟨front, back, before, after⟩ := nextStepIssues_withEdge unique member own
  rw [← nextStepIssue?_source own, before, after]
  simp only [List.map_append, List.append_cancel_left_eq, List.append_cancel_right_eq,
    ← Option.toList_map]
  constructor
  · intro same
    simpa using congrArg List.head? same
  · exact congrArg Option.toList

/-- The lint has nothing new to say exactly if no rule is broken between the two ends and the source
has room. -/
theorem localMessages_withEdge (unique : graph.UniqueIds)
    (leaves : graph.node? edge.source = some source) (arrives : graph.node? edge.target = some target) :
    (graph.withEdge edge).localMessages entry = graph.localMessages entry ↔
      refusal? source target entry = none ∧
        (source.kind.singleSuccessor = true → graph.outgoing source.id = []) := by
  obtain ⟨member, own⟩ := (node?_eq_some unique).mp leaves
  have entries : (graph.withEdge edge).entryIssues entry = graph.entryIssues entry := rfl
  have payloads : (graph.withEdge edge).payloadIssues = graph.payloadIssues := rfl
  have longer := nextStepIssues_length_le unique member own
  rw [localMessages_eq, localMessages_eq, localIssues, localIssues, entries, payloads,
    edgeIssues_withEdge, ← nextStepMessages_withEdge unique member own,
    ← edgeIssue?_of_joined leaves arrives]
  simp only [List.map_append, ← List.append_assoc]
  rw [append_eq_iff_of_length_le (by simpa using longer)]
  simp

theorem localPasses_withEdge (unique : graph.UniqueIds)
    (leaves : graph.node? edge.source = some source) (arrives : graph.node? edge.target = some target) :
    (∀ pass ∈ localPasses entry,
        (pass (graph.withEdge edge)).map Issue.message = (pass graph).map Issue.message) ↔
      refusal? source target entry = none ∧
        (source.kind.singleSuccessor = true → graph.outgoing source.id = []) := by
  obtain ⟨member, own⟩ := (node?_eq_some unique).mp leaves
  have entries : (graph.withEdge edge).entryIssues entry = graph.entryIssues entry := rfl
  have payloads : (graph.withEdge edge).payloadIssues = graph.payloadIssues := rfl
  rw [← nextStepMessages_withEdge unique member own, ← edgeIssue?_of_joined leaves arrives]
  simp [localPasses, entries, payloads, edgeIssues_withEdge]

end Graph

/-! The gate -/

namespace Workspace

variable {workspace : Workspace}

/-- A command is accepted if it is answered without a fault. -/
def Accepts (workspace : Workspace) (command : Command) : Prop :=
  ∃ answer, (workspace.run command).2 = .ok answer

theorem accepts_iff {command : Command} :
    workspace.Accepts command ↔ ∃ result, workspace.perform command = .ok result := by
  unfold Accepts run
  cases workspace.perform command <;> simp

instance (command : Command) : Decidable (workspace.Accepts command) :=
  decidable_of_iff ((workspace.perform command).isOk = true) <| by
    rw [accepts_iff]
    cases workspace.perform command <;> simp [Except.isOk, Except.toBool]

theorem accepts_connect {source target : String} {id : Option String}
    {sourceHandle targetHandle : Json} :
    workspace.Accepts (.connect source target id sourceHandle targetHandle) ↔
      ∃ done, workspace.session.ensureConnectable source target id = .ok done := by
  rw [accepts_iff, perform, connect]
  cases workspace.session.ensureConnectable source target id <;>
    simp [bind, Except.bind, pure, Except.pure]

/-- In every session, two nodes that no edge joins yet can be connected exactly if the lint, cycles
apart, reports the same before and after the edge is there; that is, if no pass reports anything
new. -/
theorem connect_agrees_with_lint {edge : Edge} (unique : workspace.session.graph.UniqueIds)
    (leaves : workspace.session.graph.has edge.source = true)
    (arrives : workspace.session.graph.has edge.target = true)
    (new : (edge.source, edge.target) ∉ workspace.session.graph.links)
    (sourceHandle targetHandle : Json) :
    (workspace.Accepts (.connect edge.source edge.target none sourceHandle targetHandle) ↔
        (workspace.session.graph.withEdge edge).localMessages workspace.session.entry =
          workspace.session.graph.localMessages workspace.session.entry) ∧
      (workspace.Accepts (.connect edge.source edge.target none sourceHandle targetHandle) ↔
        ∀ pass ∈ Graph.localPasses workspace.session.entry,
          (pass (workspace.session.graph.withEdge edge)).map Issue.message =
            (pass workspace.session.graph).map Issue.message) := by
  obtain ⟨source, leaves⟩ : ∃ node, workspace.session.graph.node? edge.source = some node := by
    simpa [Graph.has_iff_kindAt?, Graph.kindAt?] using leaves
  obtain ⟨target, arrives⟩ : ∃ node, workspace.session.graph.node? edge.target = some node := by
    simpa [Graph.has_iff_kindAt?, Graph.kindAt?] using arrives
  have own : source.id = edge.source := Session.id_of_node? leaves
  have other : target.id = edge.target := Session.id_of_node? arrives
  have apart : ∀ old ∈ workspace.session.graph.outgoing source.id, old.target ≠ target.id := by
    intro old member same
    obtain ⟨inside, start⟩ := List.mem_filter.mp member
    refine new (List.mem_map.mpr ⟨old, inside, ?_⟩)
    rw [decide_eq_true_eq.mp start, same, own, other]
  have gate : workspace.Accepts (.connect edge.source edge.target none sourceHandle targetHandle) ↔
      refusal? source target workspace.session.entry = none ∧
        (source.kind.singleSuccessor = true → workspace.session.graph.outgoing source.id = []) := by
    rw [accepts_connect]
    constructor
    · rintro ⟨_, ready⟩
      obtain ⟨first, second, found, found', allowed, room, _⟩ := Session.ensureConnectable_eq_ok.mp ready
      obtain rfl := Option.some.inj (leaves.symm.trans found)
      obtain rfl := Option.some.inj (arrives.symm.trans found')
      exact ⟨allowed, (Session.conflict?_eq_none.mp room).2⟩
    · rintro ⟨allowed, free⟩
      have room := Session.conflict?_eq_none.mpr ⟨apart, free⟩
      exact ⟨(), Session.ensureConnectable_eq_ok.mpr
        ⟨source, target, leaves, arrives, allowed, room, rfl⟩⟩
  exact ⟨gate.trans (Graph.localMessages_withEdge unique leaves arrives).symm,
    gate.trans (Graph.localPasses_withEdge unique leaves arrives).symm⟩

/-- A session that is broken already: too many next steps, an edge to nowhere and one into the entry. -/
def overfullWorkspace : Workspace where
  session :=
    { graph :=
        { nodes := [⟨"tell", Payload.default .action, .origin⟩, ⟨"ask", .condition, .origin⟩,
            ⟨"doubt", .condition, .origin⟩, ⟨"guard", .conditionCheck [], .origin⟩]
          edges := [.plain "e" "tell" "ask", .plain "f" "tell" "ask", .plain "g" "ask" "gone",
            .plain "h" "guard" "tell"] }
      entry := some "tell" }
  ids := .counted

/-- One more next step where there are too many is refused, and changes a number in the lint. -/
theorem connect_agrees_with_lint_overfull :
    overfullWorkspace.Accepts (.connect "ask" "guard" none .null .null) ∧
      ¬ overfullWorkspace.Accepts (.connect "tell" "doubt" none .null .null) := by
  have unique : overfullWorkspace.session.graph.UniqueIds := by
    unfold Graph.UniqueIds
    decide
  have branch := @connect_agrees_with_lint overfullWorkspace (.plain "new" "ask" "guard") unique
    (by decide) (by decide) (by decide) .null .null
  have step := @connect_agrees_with_lint overfullWorkspace (.plain "new" "tell" "doubt") unique
    (by decide) (by decide) (by decide) .null .null
  exact ⟨branch.1.mpr (by decide +kernel), fun accepted => absurd (step.1.mp accepted) (by decide +kernel)⟩

end Workspace

end OutreachFlow
