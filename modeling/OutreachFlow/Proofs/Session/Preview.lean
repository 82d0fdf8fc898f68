import OutreachFlow.Proofs.Session.EntryGate

/-! A session can be asked whether it would connect two nodes before it is told to. The two go through the same
rules in different ways: the preview looks for the first objection and gives it as its answer, while a connection
stops at the first rule that refuses it and has one rule more, on ids. Where the requested id is not in use, the
preview foretells what becomes of the connection, and the service says the same about a graph that it is sent. -/
namespace OutreachFlow

namespace Session

variable {session : Session} {source target : String} {edgeId : Option String}

theorem edgeIdConflict?_eq_none (unused : ∀ edge ∈ session.graph.edges, edgeId ≠ some edge.id) :
    session.edgeIdConflict? edgeId = none := by
  cases edgeId with
  | none => rfl
  | some id =>
    have free : ∀ edge ∈ session.graph.edges, edge.id ≠ id :=
      fun edge member same => unused edge member (congrArg some same.symm)
    simpa [edgeIdConflict?] using free

/-- The preview has an answer for nodes that are there, and else names the first that is missing. -/
theorem connectionRefusal_eq (session : Session) (source target : String) :
    session.connectionRefusal source target =
      match session.graph.node? source, session.graph.node? target with
      | none, _ => .error (.unknownNode source)
      | some _, none => .error (.unknownNode target)
      | some first, some second =>
        .ok ((refusal? first second session.entry).or (session.conflict? first second)) := by
  unfold connectionRefusal Session.node
  cases session.graph.node? source <;> cases session.graph.node? target <;> rfl

/-- Nothing but a missing node keeps the preview from an answer. -/
theorem connectionRefusal_eq_error {fault : SessionFault}
    (failed : session.connectionRefusal source target = .error fault) : ∃ node, fault = .unknownNode node := by
  rw [connectionRefusal_eq] at failed
  split at failed <;> cases failed <;> exact ⟨_, rfl⟩

/-- The preview knows of no edge ids. -/
theorem unnamed_of_connectionRefusal {reason : Refusal}
    (foretold : session.connectionRefusal source target = .ok (some reason)) (id : String) :
    reason ≠ .edgeIdInUse id := by
  rintro rfl
  rw [connectionRefusal_eq] at foretold
  split at foretold
  · contradiction
  · contradiction
  · rcases Option.or_eq_some_iff.mp (Except.ok.inj foretold) with kind | ⟨_, other⟩
    · simp only [refusal?] at kind
      repeat' split at kind
      all_goals simp at kind
    · simp only [conflict?] at other
      repeat' split at other
      all_goals simp at other

theorem connectionRefusal_of_present (leaves : session.graph.has source = true)
    (arrives : session.graph.has target = true) :
    ∃ reason, session.connectionRefusal source target = .ok reason := by
  obtain ⟨first, leaves⟩ := Graph.has_iff_node?.mp leaves
  obtain ⟨second, arrives⟩ := Graph.has_iff_node?.mp arrives
  rw [connectionRefusal_eq, leaves, arrives]
  exact ⟨_, rfl⟩

/-- A connection stops where the preview finds something. -/
theorem ensureConnectable_eq (free : session.edgeIdConflict? edgeId = none) :
    session.ensureConnectable source target edgeId =
      match session.connectionRefusal source target with
      | .error fault => .error fault
      | .ok (some reason) => .error (.refused source target reason)
      | .ok none => .ok () := by
  rw [connectionRefusal_eq]
  cases leaves : session.graph.node? source with
  | none => simp [ensureConnectable, Session.node, leaves, bind, Except.bind]
  | some first =>
    cases arrives : session.graph.node? target with
    | none => simp [ensureConnectable, Session.node, leaves, arrives, bind, Except.bind]
    | some second =>
      simp only [ensureConnectable, ensureAllowed, Session.node, leaves, arrives, bind, Except.bind,
        id_of_node? leaves, id_of_node? arrives, free, Option.or_none]
      cases refusal? first second session.entry <;> cases session.conflict? first second <;> rfl

end Session

/-! What counts is the shape of the graph -/

/-- Graphs of one shape have nodes of the same kind under an id, or both have none. -/
theorem Graph.SameShape.node?_cases {graph other : Graph} (same : graph.SameShape other) (id : String) :
    (graph.node? id = none ∧ other.node? id = none) ∨
      ∃ node node', graph.node? id = some node ∧ other.node? id = some node' ∧ node.id = node'.id ∧
        node.kind = node'.kind := by
  have kinds : (graph.node? id).map Node.kind = (other.node? id).map Node.kind := same.kindAt? id
  cases found : graph.node? id with
  | none =>
    rw [found] at kinds
    exact .inl ⟨rfl, Option.map_eq_none_iff.mp kinds.symm⟩
  | some node =>
    rw [found] at kinds
    obtain ⟨node', found', kind⟩ := Option.map_eq_some_iff.mp kinds.symm
    have ids : node.id = node'.id := (Session.id_of_node? found).trans (Session.id_of_node? found').symm
    exact .inr ⟨node, node', rfl, found', ids, kind.symm⟩

namespace Session

theorem conflict?_eq_targets (session : Session) (source target : Node) :
    session.conflict? source target =
      if target.id ∈ session.graph.targets source.id then some .alreadyConnected
      else if source.kind.singleSuccessor ∧ session.graph.targets source.id ≠ [] then
        some (.secondNextStep source.kind)
      else none := by
  simp [conflict?, Graph.targets]

theorem connectionRefusal_of_sameShape {graph other : Graph} (same : graph.SameShape other)
    (entry : Option String) (source target : String) :
    (Session.mk graph entry).connectionRefusal source target =
      (Session.mk other entry).connectionRefusal source target := by
  have targets (id : String) : graph.targets id = other.targets id := by
    rw [Graph.targets_eq_links, Graph.targets_eq_links, same.links]
  simp only [connectionRefusal_eq]
  rcases same.node?_cases source with ⟨gone, gone'⟩ | ⟨first, first', leaves, leaves', own, kind⟩
  · simp only [gone, gone']
  · rcases same.node?_cases target with ⟨gone, gone'⟩ | ⟨second, second', arrives, arrives', own', kind'⟩
    · simp only [leaves, leaves', gone, gone']
    · simp only [leaves, leaves', arrives, arrives', refusal?, conflict?_eq_targets, own, own', kind, kind',
        targets]

end Session

/-! The service -/

namespace Service

/-- A request that asks whether two nodes of a session could be connected, in whatever form it describes the
graph. -/
structure AsksConnection (framework : Framework) (request : Request) (session : Session)
    (source target : String) : Prop where
  method : request.method = "POST"
  path : request.target.path = ["", "api", "connections", "check"]
  body : ∃ question posted,
    request.read framework (checkBody (Schema.record ConnectionQuestion.read)) = .ok question ∧
      question.marked.graph.toGraph = .ok posted ∧ posted.SameShape session.graph ∧
      question.marked.entry = session.entry ∧ question.source = source ∧ question.target = target

/-- The question in the editor form. -/
def connectionForm (session : Session) (source target : String) : Json :=
  .obj [("nodes", .arr session.graph.nodeForms), ("edges", .arr session.graph.edgeForms),
    ("firstNodeId", textOrNull session.entry), ("source", .str source), ("target", .str target)]

/-- A session on a postable graph can be asked about in its editor form. -/
theorem asksConnection_of_document {framework : Framework} {request : Request} {session : Session}
    {source target : String} (postable : session.graph.Postable) (method : request.method = "POST")
    (path : request.target.path = ["", "api", "connections", "check"])
    (document : request.document framework = .ok (some (connectionForm session source target))) :
    AsksConnection framework request session source target := by
  refine ⟨method, path, ⟨⟨session.graph.form, session.entry⟩, source, target⟩, session.graph.doubles, ?_,
    Graph.toGraph_form postable, session.graph.doubles_sameShape, rfl, rfl, rfl⟩
  have entry : Schema.optional Schema.text (textOrNull session.entry) = .valid session.entry := by
    cases session.entry <;> rfl
  have read : ConnectionQuestion.read [("nodes", .arr session.graph.nodeForms),
      ("edges", .arr session.graph.edgeForms), ("firstNodeId", textOrNull session.entry),
      ("source", .str source), ("target", .str target)] =
        .valid ⟨⟨session.graph.form, session.entry⟩, source, target⟩ := by
    simp [ConnectionQuestion.read, MarkedGraph.read, Graph.read_forms postable, FieldName.required,
      FieldName.orElse, FieldName.orNull, FieldName.optional?, FieldName.find?, FieldName.firstNodeId, entry,
      Schema.text]
  simp [Request.read, document, checkBody, connectionForm, Schema.record, read]

/-- What the service answers about a connection. -/
def connectionVerdict (reason : Option Refusal) : Json :=
  .obj [("allowed", .bool reason.isNone), ("reason", textOrNull (reason.map Refusal.message))]

theorem serve_of_asksConnection {framework : Framework} {request : Request} {session : Session}
    {source target : String} {reason : Option Refusal}
    (asks : AsksConnection framework request session source target)
    (foretold : session.connectionRefusal source target = .ok reason) (store : Store) :
    serve framework store request = (store, ⟨200, .document (connectionVerdict reason)⟩) := by
  obtain ⟨method, path, question, posted, read, built, same, entry, rfl, rfl⟩ := asks
  have offered : request.AsksFor .checkConnection := by
    rw [Request.AsksFor, method, path]
    decide
  have replied : replyAt framework store request .checkConnection =
      (store, verdict "allowed" (reason.map Refusal.message)) := by
    simp [replyAt, answering, read, answerConnection, withGraph, built, entry,
      Session.connectionRefusal_of_sameShape same, foretold]
  have whole : ∀ text ∈ reason.map Refusal.message, Text.hasStandIn text = false := by
    intro text told
    obtain ⟨inner, rfl, rfl⟩ := Option.map_eq_some_iff.mp told
    exact hasStandIn_refusal (Session.unnamed_of_connectionRefusal foretold)
  rw [serve_of_asks offered, replied, deliver_verdict framework (by decide +kernel) whole, Option.isNone_map,
    connectionVerdict]

end Service

namespace Workspace

variable {workspace : Workspace} {source target : String} {id : Option String}

/-- What the preview says about a connection, and what becomes of it. -/
inductive Foretold (workspace : Workspace) (source target : String) :
    Except SessionFault Answer → Workspace × Except SessionFault Answer → Prop where
  | connected {after : Workspace} {edge : Edge} (leaves : edge.source = source) (arrives : edge.target = target)
      (added : after.session = workspace.session.addEdge edge) :
      Foretold workspace source target (.ok (.refusal none)) (after, .ok (.edge edge))
  | refused (reason : Refusal) : Foretold workspace source target (.ok (.refusal (some reason)))
      (workspace, .error (.refused source target reason))
  | unknown (node : String) : Foretold workspace source target (.error (.unknownNode node))
      (workspace, .error (.unknownNode node))

namespace Foretold

variable {answered : Except SessionFault Answer} {outcome : Workspace × Except SessionFault Answer}

theorem accepts_iff (told : Foretold workspace source target answered outcome) :
    answered = .ok (.refusal none) ↔ ∃ answer, outcome.2 = .ok answer := by
  cases told <;> simp

theorem refused_iff (told : Foretold workspace source target answered outcome) (reason : Refusal) :
    answered = .ok (.refusal (some reason)) ↔ outcome.2 = .error (.refused source target reason) := by
  cases told <;> simp

theorem unknown_iff (told : Foretold workspace source target answered outcome) (node : String) :
    answered = .error (.unknownNode node) ↔ outcome.2 = .error (.unknownNode node) := by
  cases told <;> simp

theorem edge_of_ok (told : Foretold workspace source target answered outcome) {answer : Answer}
    (done : outcome.2 = .ok answer) :
    ∃ edge, answer = .edge edge ∧ edge.source = source ∧ edge.target = target ∧
      outcome.1.session = workspace.session.addEdge edge := by
  cases told with
  | connected leaves arrives added => exact ⟨_, (Except.ok.inj done).symm, leaves, arrives, added⟩
  | refused _ | unknown _ => contradiction

theorem of_error (told : Foretold workspace source target answered outcome) {fault : SessionFault}
    (failed : outcome.2 = .error fault) :
    outcome.1 = workspace ∧
      ((∃ reason, fault = .refused source target reason) ∨ ∃ node, fault = .unknownNode node) := by
  cases told with
  | connected => contradiction
  | refused reason => exact ⟨rfl, .inl ⟨reason, (Except.error.inj failed).symm⟩⟩
  | unknown node => exact ⟨rfl, .inr ⟨node, (Except.error.inj failed).symm⟩⟩

end Foretold

theorem run_connectionRefusal (workspace : Workspace) (source target : String) :
    workspace.run (.connectionRefusal source target) =
      (workspace, (workspace.session.connectionRefusal source target).map Answer.refusal) := by
  rw [run, perform]
  cases workspace.session.connectionRefusal source target <;> rfl

theorem run_connect_of_ok (ready : workspace.session.ensureConnectable source target id = .ok ())
    (sourceHandle targetHandle : Json) :
    ∃ ids edge, edge.source = source ∧ edge.target = target ∧
      workspace.run (.connect source target id sourceHandle targetHandle) =
        (⟨workspace.session.addEdge edge, ids⟩, .ok (.edge edge)) := by
  rw [run, perform, connect, ready]
  exact ⟨_, _, rfl, rfl, rfl⟩

theorem connect_foretold (free : workspace.session.edgeIdConflict? id = none)
    (sourceHandle targetHandle : Json) :
    Foretold workspace source target (workspace.run (.connectionRefusal source target)).2
      (workspace.run (.connect source target id sourceHandle targetHandle)) := by
  have settled : workspace.session.ensureConnectable source target id = _ := Session.ensureConnectable_eq free
  rw [run_connectionRefusal]
  cases preview : workspace.session.connectionRefusal source target with
  | error fault =>
    obtain ⟨node, rfl⟩ := Session.connectionRefusal_eq_error preview
    rw [preview] at settled
    rw [run_connect_of_error settled]
    exact .unknown node
  | ok reason =>
    rw [preview] at settled
    cases reason with
    | some reason =>
      rw [run_connect_of_error settled]
      exact .refused reason
    | none =>
      obtain ⟨ids, edge, leaves, arrives, same⟩ := run_connect_of_ok settled sourceHandle targetHandle
      rw [same]
      exact .connected leaves arrives rfl

/-- The preview changes nothing and foretells the connection under any id that is not in use: it finds nothing
exactly if the nodes are connected, by one edge behind all others, it gives a reason exactly if the connection
is refused for that reason, and it misses a node exactly if the connection does. For nodes that are there the
service gives the same answer. -/
theorem connect_as_previewed (unused : ∀ edge ∈ workspace.session.graph.edges, id ≠ some edge.id)
    (sourceHandle targetHandle : Json) :
    let preview := workspace.run (.connectionRefusal source target)
    let outcome := workspace.run (.connect source target id sourceHandle targetHandle)
    preview.1 = workspace ∧
      (preview.2 = .ok (.refusal none) ↔ ∃ answer, outcome.2 = .ok answer) ∧
      (∀ answer, outcome.2 = .ok answer → ∃ edge, answer = .edge edge ∧ edge.source = source ∧
        edge.target = target ∧ outcome.1.session = { workspace.session with
          graph := { workspace.session.graph with edges := workspace.session.graph.edges ++ [edge] } }) ∧
      (∀ reason, preview.2 = .ok (.refusal (some reason)) ↔
        outcome.2 = .error (.refused source target reason)) ∧
      (∀ node, preview.2 = .error (.unknownNode node) ↔ outcome.2 = .error (.unknownNode node)) ∧
      (∀ fault, outcome.2 = .error fault → outcome.1 = workspace ∧
        ((∃ reason, fault = .refused source target reason) ∨ ∃ node, fault = .unknownNode node)) ∧
      (workspace.session.graph.has source = true → workspace.session.graph.has target = true →
        ∃ reason, preview.2 = .ok (.refusal reason) ∧
          ∀ (framework : Service.Framework) (store : Store) (request : Service.Request),
            Service.AsksConnection framework request workspace.session source target →
              Service.serve framework store request =
                (store, ⟨200, .document (Service.connectionVerdict reason)⟩)) := by
  intro preview outcome
  have told : Foretold workspace source target preview.2 outcome :=
    connect_foretold (Session.edgeIdConflict?_eq_none unused) sourceHandle targetHandle
  have still : preview = (workspace, (workspace.session.connectionRefusal source target).map Answer.refusal) :=
    run_connectionRefusal workspace source target
  refine ⟨congrArg Prod.fst still, told.accepts_iff, fun _ => told.edge_of_ok, told.refused_iff,
    told.unknown_iff, fun _ => told.of_error, ?_⟩
  intro leaves arrives
  obtain ⟨reason, foretold⟩ := Session.connectionRefusal_of_present leaves arrives
  refine ⟨reason, ?_, fun _ store _ asks => Service.serve_of_asksConnection asks foretold store⟩
  rw [still, foretold]
  rfl

/-- A session that starts at a condition with one branch, beside a condition more. -/
def stagedWorkspace : Workspace where
  session :=
    { graph :=
        { nodes := [⟨"ask", .condition, .origin⟩, ⟨"guard", .conditionCheck [], .origin⟩,
            ⟨"more", .condition, .origin⟩]
          edges := [.plain "e" "ask" "guard"] }
      entry := some "ask" }
  ids := .counted

/-- The question whether the branch may lead back to the start, in the editor form. -/
def stagedRequest : Service.Request :=
  .ofTexts "post" "/api/connections/check" (Service.connectionForm stagedWorkspace.session "guard" "ask").compact

theorem connect_as_previewed_staged :
    (∃ edge, edge.source = "guard" ∧ edge.target = "more" ∧
        (stagedWorkspace.run (.connect "guard" "more" (some "f") .null .null)).1.session.graph.edges =
          [.plain "e" "ask" "guard", edge]) ∧
      (stagedWorkspace.run (.connect "guard" "ask" none .null .null)).2 =
        .error (.refused "guard" "ask" .intoEntry) ∧
      Service.serve .usual ⟨.empty, .counted, .counted, ⟨900, 900⟩⟩ stagedRequest =
        (⟨.empty, .counted, .counted, ⟨900, 900⟩⟩,
          ⟨200, .document (Service.connectionVerdict (some .intoEntry))⟩) := by
  have document : (stagedRequest.document .usual).toOption =
      some (some (Service.connectionForm stagedWorkspace.session "guard" "ask")) := by
    decide +kernel
  have postable : stagedWorkspace.session.graph.Postable :=
    Graph.postable_of_plain (by unfold Graph.UniqueIds; decide +kernel) (by decide +kernel) (by decide +kernel)
      (by decide +kernel)
  have asks : Service.AsksConnection .usual stagedRequest stagedWorkspace.session "guard" "ask" :=
    Service.asksConnection_of_document postable (by decide +kernel) (by decide +kernel)
      (toOption_eq_some.mp document)
  obtain ⟨_, allows, appends, _⟩ :=
    @connect_as_previewed stagedWorkspace "guard" "more" (some "f") (by decide) .null .null
  obtain ⟨_, _, _, refuses, _, _, serves⟩ :=
    @connect_as_previewed stagedWorkspace "guard" "ask" none (by decide) .null .null
  obtain ⟨answer, done⟩ := allows.mp rfl
  obtain ⟨edge, _, leaves, arrives, after⟩ := appends answer done
  obtain ⟨reason, foretold, served⟩ := serves (by decide) (by decide)
  have preview : (stagedWorkspace.run (.connectionRefusal "guard" "ask")).2 = .ok (.refusal (some .intoEntry)) := rfl
  obtain rfl : some Refusal.intoEntry = reason := by
    rw [preview] at foretold
    exact Answer.refusal.inj (Except.ok.inj foretold)
  refine ⟨⟨edge, leaves, arrives, ?_⟩, (refuses _).mp foretold, served _ _ _ asks⟩
  rw [after]
  rfl

end Workspace

end OutreachFlow
