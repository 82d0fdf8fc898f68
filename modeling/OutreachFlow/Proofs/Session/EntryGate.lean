import OutreachFlow.Proofs.Service.Answers
import OutreachFlow.Proofs.Service.PostedGraphs
import OutreachFlow.Proofs.Session.ConnectGate

/-! Whether a node can be the entry is decided in three places: by the gate of a session, by the
service for a graph that it is sent, and by the lint of a graph under that entry. All three agree.
What the gate has let in, the connection rules keep: as long as the entry stands, nothing can be
connected to it. -/
namespace OutreachFlow

namespace Graph

variable {graph : Graph} {id : String} {node : Node}

/-- A node that is no check and that no edge leads to. -/
structure CanStart (graph : Graph) (id : String) : Prop where
  kind : ∃ kind, graph.kindAt? id = some kind ∧ kind ≠ .conditionCheck
  untargeted : ∀ link ∈ graph.links, link.2 ≠ id

theorem canStart_iff (found : graph.node? id = some node) :
    graph.CanStart id ↔ ineligibility? node graph.edges = none := by
  have own : node.id = id := Session.id_of_node? found
  have kind : graph.kindAt? id = some node.kind := congrArg _ found
  rw [Session.ineligibility?_eq_none, own]
  constructor
  · rintro ⟨⟨_, same, other⟩, free⟩
    obtain rfl := Option.some.inj (kind.symm.trans same)
    exact ⟨other, fun edge member => free _ (List.mem_map_of_mem member)⟩
  · rintro ⟨other, free⟩
    refine ⟨⟨_, kind, other⟩, ?_⟩
    intro link member
    obtain ⟨edge, inside, rfl⟩ := List.mem_map.mp member
    exact free edge inside

/-- Only the edges that lead to a node have a say in whether it can start. -/
theorem ineligibility?_incoming (found : graph.node? id = some node) :
    ineligibility? node (graph.incoming id) = none ↔ ineligibility? node graph.edges = none := by
  have own : node.id = id := Session.id_of_node? found
  simp only [Session.ineligibility?_eq_none, incoming, List.mem_filter, decide_eq_true_eq, own]
  constructor
  · rintro ⟨other, free⟩
    exact ⟨other, fun edge member same => free edge ⟨member, same⟩ same⟩
  · rintro ⟨other, free⟩
    exact ⟨other, fun edge both => free edge both.1⟩

/-! The lint -/

/-- An entry that can start leaves no trace in the lint. -/
theorem issues_of_canStart (starts : graph.CanStart id) : graph.issues (some id) = graph.issues none := by
  obtain ⟨⟨kind, found, other⟩, free⟩ := starts
  obtain ⟨node, here, rfl⟩ := Option.map_eq_some_iff.mp found
  have entries : graph.entryIssues (some id) = graph.entryIssues none := by
    simp [entryIssues, here, other]
  have edges : graph.edgeIssues (some id) = graph.edgeIssues none := by
    apply List.filterMap_congr
    intro edge member
    have apart : edge.target ≠ id := free (edge.source, edge.target) (List.mem_map_of_mem member)
    unfold edgeIssue?
    split
    · rename_i source target _ arrives
      have own : id ≠ target.id := fun same => apart (Session.id_of_node? arrives ▸ same.symm)
      simp [refusal?, own]
    · rfl
  rw [issues, issues, localIssues, localIssues, entries, edges]

/-- An entry that cannot start is blamed. -/
theorem blamed_of_not_canStart (present : graph.has id = true)
    (joined : ∀ edge ∈ graph.edges, graph.has edge.source = true ∧ graph.has edge.target = true)
    (bars : ¬ graph.CanStart id) : ∃ issue ∈ graph.issues (some id), issue.blamesEntry = true := by
  obtain ⟨node, here⟩ := has_iff_node?.mp present
  by_cases check : node.kind = .conditionCheck
  · refine ⟨.entryIsCheck id, ?_, rfl⟩
    simp [issues, localIssues, entryIssues, here, check]
  · have targeted : ∃ edge ∈ graph.edges, edge.target = id := by
      by_contra none
      refine bars ⟨⟨node.kind, congrArg _ here, check⟩, ?_⟩
      intro link member
      obtain ⟨edge, inside, rfl⟩ := List.mem_map.mp member
      exact fun same => none ⟨edge, inside, same⟩
    obtain ⟨edge, member, same⟩ := targeted
    obtain ⟨source, leaves⟩ := has_iff_node?.mp (joined edge member).1
    have own : node.id = id := Session.id_of_node? here
    have refused : graph.edgeIssue? (some id) edge = some (.edgeRefused edge.id .intoEntry) := by
      simp [edgeIssue?, leaves, same, here, refusal?, own]
    refine ⟨.edgeRefused edge.id .intoEntry, ?_, rfl⟩
    have reported : Issue.edgeRefused edge.id .intoEntry ∈ graph.edgeIssues (some id) :=
      List.mem_filterMap.mpr ⟨edge, member, refused⟩
    simp [issues, localIssues, reported]

theorem messages_eq_iff (present : graph.has id = true)
    (joined : ∀ edge ∈ graph.edges, graph.has edge.source = true ∧ graph.has edge.target = true) :
    graph.messages (some id) = graph.messages none ↔ graph.CanStart id := by
  constructor
  · intro same
    by_contra bars
    obtain ⟨issue, member, blames⟩ := blamed_of_not_canStart present joined bars
    have shown : issue.message ∈ graph.messages none := same ▸ List.mem_map_of_mem member
    obtain ⟨other, inside, text⟩ := List.mem_map.mp shown
    have free := blamesEntry_of_mem_issues inside
    rw [Issue.blamesEntry_congr text, blames] at free
    contradiction
  · exact fun starts => congrArg (List.map Issue.message) (issues_of_canStart starts)

/-! Graphs of one shape -/

/-- The same nodes, apart from what they hold and where they stand, and the same links. -/
structure SameShape (graph other : Graph) : Prop where
  kinds : graph.nodes.map (fun node => (node.id, node.kind)) =
    other.nodes.map fun node => (node.id, node.kind)
  links : graph.links = other.links

theorem kindAt?_eq_find (graph : Graph) (id : String) :
    graph.kindAt? id =
      ((graph.nodes.map fun node => (node.id, node.kind)).find? fun entry => entry.1 = id).map
        Prod.snd := by
  rw [kindAt?, node?, List.find?_map, Option.map_map]
  rfl

theorem SameShape.kindAt? {other : Graph} (same : graph.SameShape other) (id : String) :
    graph.kindAt? id = other.kindAt? id := by
  rw [kindAt?_eq_find, kindAt?_eq_find, same.kinds]

theorem SameShape.canStart {other : Graph} (same : graph.SameShape other) :
    graph.CanStart id ↔ other.CanStart id := by
  have kinds := same.kindAt? id
  constructor
  · rintro ⟨kind, free⟩
    exact ⟨kinds ▸ kind, same.links ▸ free⟩
  · rintro ⟨kind, free⟩
    exact ⟨kinds ▸ kind, same.links ▸ free⟩

theorem doubles_sameShape (graph : Graph) : graph.doubles.SameShape graph where
  kinds := by
    rw [doubles, List.map_map]
    rfl
  links := rfl

end Graph

/-! The service -/

namespace Service

/-- A request that asks whether a node can start a graph, in whatever form it describes the graph. -/
structure AsksEntry (framework : Framework) (request : Request) (graph : Graph) (id : String) : Prop where
  method : request.method = "POST"
  path : request.target.path = ["", "api", "entry", "check"]
  body : ∃ question posted,
    request.read framework (checkBody (Schema.record EntryQuestion.read)) = .ok question ∧
      question.graph.toGraph = .ok posted ∧ posted.SameShape graph ∧ question.node = id

/-- The question in the editor form. -/
def entryForm (graph : Graph) (id : String) : Json :=
  .obj [("nodes", .arr graph.nodeForms), ("edges", .arr graph.edgeForms), ("nodeId", .str id)]

/-- A postable graph can be asked about in its editor form. -/
theorem asksEntry_of_document {framework : Framework} {request : Request} {graph : Graph} {id : String}
    (postable : graph.Postable) (method : request.method = "POST")
    (path : request.target.path = ["", "api", "entry", "check"])
    (document : request.document framework = .ok (some (entryForm graph id))) :
    AsksEntry framework request graph id := by
  refine ⟨method, path, ⟨graph.form, id⟩, graph.doubles, ?_, Graph.toGraph_form postable,
    graph.doubles_sameShape, rfl⟩
  have read : EntryQuestion.read [("nodes", .arr graph.nodeForms), ("edges", .arr graph.edgeForms),
      ("nodeId", .str id)] = .valid ⟨graph.form, id⟩ := by
    simp [EntryQuestion.read, Graph.read_forms postable, FieldName.required, FieldName.find?,
      FieldName.nodeId, Schema.text]
  simp [Request.read, document, checkBody, entryForm, Schema.record, read]

/-- The answer to such a request says whether the node can start, and leaves the store alone. -/
theorem serve_of_asksEntry {framework : Framework} {request : Request} {graph : Graph} {id : String}
    (asks : AsksEntry framework request graph id) (present : graph.has id = true) (store : Store) :
    ∃ eligible reason, serve framework store request =
        (store, ⟨200, .document (.obj [("eligible", .bool eligible), ("reason", reason)])⟩) ∧
      (eligible = true ↔ graph.CanStart id) := by
  obtain ⟨method, path, question, posted, read, built, same, rfl⟩ := asks
  have known : posted.has question.node = true := by
    rw [Graph.has_iff_kindAt?, same.kindAt?, ← Graph.has_iff_kindAt?]
    exact present
  obtain ⟨node, found⟩ := Graph.has_iff_node?.mp known
  have offered : request.AsksFor .checkEntry := by
    rw [Request.AsksFor, method, path]
    decide
  have replied : replyAt framework store request .checkEntry = (store, verdict "eligible"
      ((ineligibility? node posted.edges).map Ineligibility.message)) := by
    simp [replyAt, answering, read, answerEntry, withGraph, built, found]
  refine ⟨(ineligibility? node posted.edges).isNone,
    textOrNull ((ineligibility? node posted.edges).map Ineligibility.message), ?_, ?_⟩
  · have whole : ∀ text ∈ (ineligibility? node posted.edges).map Ineligibility.message,
        Text.hasStandIn text = false := by
      intro text told
      obtain ⟨reason, _, rfl⟩ := Option.map_eq_some_iff.mp told
      exact hasStandIn_ineligibility reason
    rw [serve_of_asks offered, replied, deliver_verdict framework (by decide +kernel) whole, Option.isNone_map]
  · rw [Option.isNone_iff_eq_none, ← same.canStart, Graph.canStart_iff found]

end Service

/-! The gate of a session -/

namespace Workspace

variable {workspace : Workspace} {id : String}

theorem accepts_setEntry : workspace.Accepts (.setEntry id) ↔ workspace.session.graph.CanStart id := by
  rw [accepts_iff, perform]
  constructor
  · rintro ⟨_, done⟩
    obtain ⟨after, done, _⟩ := map_eq_ok.mp done
    obtain ⟨node, found, eligible, _⟩ := Session.setEntry_eq_ok done
    exact (Graph.canStart_iff found).mpr ((Graph.ineligibility?_incoming found).mp eligible)
  · intro starts
    obtain ⟨_, present, _⟩ := starts.kind
    obtain ⟨node, found, _⟩ := Option.map_eq_some_iff.mp present
    have eligible := (Graph.ineligibility?_incoming found).mpr ((Graph.canStart_iff found).mp starts)
    simp [Session.setEntry, Session.node, found, entryAt, eligible, Except.map, Except.mapError, bind,
      Except.bind, pure, Except.pure]

end Workspace

/-! While the entry stands -/

/-- A command that takes the entry away from a node, if it is accepted. -/
def Command.unseats (id : String) : Command → Bool
  | .setEntry other => other ≠ id
  | .deleteNode other => other = id
  | .clearEntry | .reset | .importPlan _ | .reimport => true
  | _ => false

namespace Session

variable {session : Session} {id : String}

/-- The entry is a node, and it is there. -/
structure StartsAt (session : Session) (id : String) : Prop where
  entry : session.entry = some id
  present : session.graph.has id = true

/-- Changes that keep the entry and the kind of its node keep it standing. -/
theorem StartsAt.of_same {after : Session} (starts : session.StartsAt id)
    (entry : after.entry = session.entry)
    (kind : after.graph.kindAt? id = session.graph.kindAt? id) : after.StartsAt id where
  entry := entry.trans starts.entry
  present := by
    rw [Graph.has_iff_kindAt?, kind, ← Graph.has_iff_kindAt?]
    exact starts.present

theorem StartsAt.withNode {node : Node} (starts : session.StartsAt id)
    (fresh : session.graph.has node.id = false) : (session.withNode node).StartsAt id := by
  have apart : id ≠ node.id := by
    rintro rfl
    exact Bool.false_ne_true (fresh.symm.trans starts.present)
  exact starts.of_same rfl ((Graph.kindAt?_append fresh).trans (if_neg apart))

theorem StartsAt.withoutNode {other : String} (starts : session.StartsAt id) (apart : other ≠ id) :
    (session.withoutNode other).StartsAt id := by
  refine starts.of_same ?_ (Graph.kindAt?_erase.trans (if_neg apart.symm))
  simp [Session.withoutNode, isEntry, starts.entry, apart.symm]

theorem startsAt_of_setEntry {after : Session} (done : session.setEntry id = .ok after) :
    after.StartsAt id := by
  obtain ⟨node, found, _, rfl⟩ := setEntry_eq_ok done
  exact ⟨congrArg some (id_of_node? found), Graph.has_iff_kindAt?.mpr ⟨node.kind, congrArg _ found⟩⟩

/-- Nothing can be connected to the entry. -/
theorem ensureConnectable_of_startsAt (starts : session.StartsAt id) (source : String)
    (edgeId : Option String) :
    session.ensureConnectable source id edgeId =
      .error (if session.graph.has source then .refused source id .intoEntry else .unknownNode source) := by
  obtain ⟨target, arrives⟩ := Graph.has_iff_node?.mp starts.present
  have own : target.id = id := id_of_node? arrives
  have has : session.graph.has source = (session.graph.node? source).isSome := by
    rw [Bool.eq_iff_iff, Graph.has_iff_node?, Option.isSome_iff_exists]
  cases leaves : session.graph.node? source with
  | none => simp [ensureConnectable, Session.node, leaves, has, bind, Except.bind]
  | some node =>
    simp [ensureConnectable, ensureAllowed, Session.node, leaves, arrives, refusal?, starts.entry, own, has,
      id_of_node? leaves, bind, Except.bind]

end Session

namespace Workspace

variable {workspace : Workspace} {id : String}

/-- What is accepted and does not take the entry away keeps it standing. -/
theorem startsAt_of_perform {command : Command} {after : Session} {answer : Answer}
    (starts : workspace.session.StartsAt id) (keeps : command.unseats id = false)
    (done : workspace.perform command = .ok (after, answer)) : after.StartsAt id := by
  cases command with
  | addNode kind given position data =>
    simp only [perform, addRead, addNode, bind_eq_ok, Session.addNode_eq_ok, pure, Except.pure,
      Except.ok.injEq, Prod.mk.injEq] at done
    obtain ⟨_, _, _, _, _, ⟨fresh, rfl⟩, rfl, _⟩ := done
    exact starts.withNode fresh
  | connect source target given sourceHandle targetHandle =>
    simp only [perform, connect, bind_eq_ok, pure, Except.pure, Except.ok.injEq, Prod.mk.injEq] at done
    obtain ⟨_, _, rfl, _⟩ := done
    exact starts.of_same rfl rfl
  | updateData other data =>
    obtain ⟨⟨session, node⟩, changed, same⟩ := map_eq_ok.mp done
    obtain ⟨old, found, own, kind, rfl⟩ := Session.updateData_eq_ok changed
    obtain ⟨rfl, _⟩ := Prod.mk.inj same
    exact starts.of_same rfl (Graph.kindAt?_replace (by rwa [Session.id_of_node? found]) own kind)
  | moveNode other position =>
    obtain ⟨⟨session, node⟩, changed, same⟩ := map_eq_ok.mp done
    obtain ⟨old, found, own, kind, rfl⟩ := Session.moveNode_eq_ok changed
    obtain ⟨rfl, _⟩ := Prod.mk.inj same
    exact starts.of_same rfl (Graph.kindAt?_replace (by rwa [Session.id_of_node? found]) own kind)
  | deleteNode other =>
    obtain ⟨session, changed, same⟩ := map_eq_ok.mp done
    obtain rfl := Session.deleteNode_eq_ok changed
    obtain ⟨rfl, _⟩ := Prod.mk.inj same
    exact starts.withoutNode (by simpa [Command.unseats] using keeps)
  | disconnect other =>
    obtain ⟨⟨session, edge⟩, changed, same⟩ := map_eq_ok.mp done
    obtain rfl := Session.disconnect_eq_ok changed
    obtain ⟨rfl, _⟩ := Prod.mk.inj same
    exact starts.of_same rfl rfl
  | setEntry other =>
    obtain ⟨session, changed, same⟩ := map_eq_ok.mp done
    obtain ⟨rfl, _⟩ := Prod.mk.inj same
    obtain rfl : other = id := by simpa [Command.unseats] using keeps
    exact Session.startsAt_of_setEntry changed
  | clearEntry | reset | importPlan _ | reimport => simp [Command.unseats] at keeps
  | getNode _ | connectionRefusal _ _ | exportPlan _ =>
    obtain ⟨_, _, same⟩ := map_eq_ok.mp done
    obtain ⟨rfl, _⟩ := Prod.mk.inj same
    exact starts
  | nextStep _ | issues | dump =>
    obtain ⟨rfl, _⟩ := Prod.mk.inj (Except.ok.inj done)
    exact starts

theorem startsAt_run {command : Command} (starts : workspace.session.StartsAt id)
    (keeps : command.unseats id = true → ¬ workspace.Accepts command) :
    (workspace.run command).1.session.StartsAt id := by
  cases done : workspace.perform command with
  | error fault =>
    rw [run, done]
    exact starts
  | ok result =>
    have kept : command.unseats id = false := by
      rw [← Bool.not_eq_true]
      exact fun unseats => keeps unseats (accepts_iff.mpr ⟨result, done⟩)
    rw [run, done]
    exact startsAt_of_perform starts kept done

/-- No command of a run that would take the entry away is accepted where it comes. -/
def LeavesEntry (workspace : Workspace) (id : String) (commands : List Command) : Prop :=
  ∀ index (bound : index < commands.length), commands[index].unseats id = true →
    ¬ (workspace.runAll (commands.take index)).Accepts commands[index]

instance (commands : List Command) : Decidable (workspace.LeavesEntry id commands) :=
  inferInstanceAs (Decidable (∀ index (_ : index < commands.length), _ → ¬ _))

theorem startsAt_runAll {commands : List Command} (starts : workspace.session.StartsAt id)
    (leaves : workspace.LeavesEntry id commands) :
    (workspace.runAll commands).session.StartsAt id :=
  runAll_keeps (fun workspace => workspace.session.StartsAt id) starts
    fun index bound still => startsAt_run still (leaves index bound)

theorem startsAt_of_accepts (accepted : workspace.Accepts (.setEntry id)) :
    (workspace.run (.setEntry id)).1.session.StartsAt id := by
  obtain ⟨⟨after, answer⟩, done⟩ := accepts_iff.mp accepted
  obtain ⟨session, changed, same⟩ := map_eq_ok.mp done
  obtain ⟨rfl, _⟩ := Prod.mk.inj same
  rw [run, done]
  exact Session.startsAt_of_setEntry changed

/-- Where a connection is refused nothing changes, not even the supply of ids. -/
theorem run_connect_of_error {source target : String} {edgeId : Option String} {fault : SessionFault}
    (refused : workspace.session.ensureConnectable source target edgeId = .error fault)
    (sourceHandle targetHandle : Json) :
    workspace.run (.connect source target edgeId sourceHandle targetHandle) = (workspace, .error fault) := by
  simp [run, perform, connect, draws, refused, bind, Except.bind, Except.toOption]

/-- A connection to the entry is refused. -/
theorem run_connect_of_startsAt (starts : workspace.session.StartsAt id) (source : String)
    (edgeId : Option String) (sourceHandle targetHandle : Json) :
    workspace.run (.connect source id edgeId sourceHandle targetHandle) =
      (workspace, .error (if workspace.session.graph.has source then .refused source id .intoEntry
        else .unknownNode source)) :=
  run_connect_of_error (Session.ensureConnectable_of_startsAt starts source edgeId) sourceHandle targetHandle

/-- In a session whose edges all have their ends, a node can be made the entry exactly if the lint
says the same with and without that entry, and exactly if the service says so. Once it is the entry,
every connection to it is refused and changes nothing, whatever else is done, until a command takes
the entry away. -/
theorem setEntry_agrees_with_lint (present : workspace.session.graph.has id = true)
    (joined : ∀ edge ∈ workspace.session.graph.edges,
      workspace.session.graph.has edge.source = true ∧ workspace.session.graph.has edge.target = true) :
    (workspace.Accepts (.setEntry id) ↔
        workspace.session.graph.messages (some id) = workspace.session.graph.messages none) ∧
      (∀ (framework : Service.Framework) (store : Store) (request : Service.Request),
        Service.AsksEntry framework request workspace.session.graph id →
          ∃ eligible reason, Service.serve framework store request =
              (store, ⟨200, .document (.obj [("eligible", .bool eligible), ("reason", reason)])⟩) ∧
            (eligible = true ↔ workspace.Accepts (.setEntry id))) ∧
      (workspace.Accepts (.setEntry id) → ∀ later : List Command,
        (workspace.run (.setEntry id)).1.LeavesEntry id later →
          ∀ source edgeId sourceHandle targetHandle,
            let reached := (workspace.run (.setEntry id)).1.runAll later
            reached.run (.connect source id edgeId sourceHandle targetHandle) =
              (reached, .error (if reached.session.graph.has source then .refused source id .intoEntry
                else .unknownNode source))) := by
  refine ⟨?_, ?_, ?_⟩
  · rw [accepts_setEntry, Graph.messages_eq_iff present joined]
  · intro framework store request asks
    obtain ⟨eligible, reason, served, agrees⟩ := Service.serve_of_asksEntry asks present store
    exact ⟨eligible, reason, served, agrees.trans accepts_setEntry.symm⟩
  · intro accepted later leaves source edgeId sourceHandle targetHandle
    exact run_connect_of_startsAt (startsAt_runAll (startsAt_of_accepts accepted) leaves) source edgeId
      sourceHandle targetHandle

/-- A session where a check follows a condition, and could not come first itself. -/
def pairedWorkspace : Workspace where
  session :=
    { graph :=
        { nodes := [⟨"ask", .condition, .origin⟩, ⟨"guard", .conditionCheck [], .origin⟩]
          edges := [.plain "e" "ask" "guard"] }
      entry := none }
  ids := .counted

/-- Which of the condition and the check could come first, in the editor form. -/
def pairedRequest : Service.Request :=
  .ofTexts "post" "/api/entry/check" (Service.entryForm pairedWorkspace.session.graph "ask").compact

/-- Attempts at another entry, all in vain, around a node more. -/
def pairedCommands : List Command :=
  [.setEntry "guard", .importPlan .null, .addNode (.str "action") (some "tell") none none,
    .deleteNode "gone", .setEntry "ask"]

theorem setEntry_agrees_with_lint_paired :
    (∃ reason, Service.serve .usual ⟨.empty, .counted, .counted, ⟨900, 900⟩⟩ pairedRequest =
        (⟨.empty, .counted, .counted, ⟨900, 900⟩⟩,
          ⟨200, .document (.obj [("eligible", .bool true), ("reason", reason)])⟩)) ∧
      (((pairedWorkspace.run (.setEntry "ask")).1.runAll pairedCommands).run
        (.connect "tell" "ask" none .null .null)).2 = .error (.refused "tell" "ask" .intoEntry) := by
  have document : (pairedRequest.document .usual).toOption =
      some (some (Service.entryForm pairedWorkspace.session.graph "ask")) := by
    decide +kernel
  have postable : pairedWorkspace.session.graph.Postable :=
    Graph.postable_of_plain (by unfold Graph.UniqueIds; decide +kernel) (by decide +kernel) (by decide +kernel)
      (by decide +kernel)
  have asks : Service.AsksEntry .usual pairedRequest pairedWorkspace.session.graph "ask" :=
    Service.asksEntry_of_document postable (by decide +kernel) (by decide +kernel) (toOption_eq_some.mp document)
  obtain ⟨gate, service, later⟩ :=
    @setEntry_agrees_with_lint pairedWorkspace "ask" (by decide) (by decide)
  have accepted := gate.mpr (by decide +kernel)
  refine ⟨?_, ?_⟩
  · obtain ⟨eligible, reason, served, agrees⟩ := service .usual ⟨.empty, .counted, .counted, ⟨900, 900⟩⟩ _ asks
    exact ⟨reason, agrees.mpr accepted ▸ served⟩
  · have refused := later accepted pairedCommands (by decide +kernel) "tell" none .null .null
    have there : ((pairedWorkspace.run (.setEntry "ask")).1.runAll pairedCommands).session.graph.has
        "tell" = true := by
      decide +kernel
    rw [refused, if_pos there]

end Workspace

end OutreachFlow
