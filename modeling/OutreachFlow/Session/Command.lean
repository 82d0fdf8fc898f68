import OutreachFlow.Session.Basic
import OutreachFlow.Supply

/-! Commands to an editing session. A workspace is a session with a supply of fresh ids; a
command gives its answer or a fault together with the workspace after it. Fresh ids are drawn
where a command names none: for a node before its kind is looked at, for an edge only once
nothing is left to refuse it. -/
namespace OutreachFlow

inductive Command where
  | addNode (kind : Json) (id : Option String) (position data : Option Json)
  | getNode (id : String)
  | updateData (id : String) (data : Json)
  | moveNode (id : String) (position : Json)
  | deleteNode (id : String)
  | connectionRefusal (source target : String)
  | connect (source target : String) (id : Option String) (sourceHandle targetHandle : Json)
  | disconnect (id : String)
  | nextStep (id : String)
  | setEntry (id : String)
  | clearEntry
  | reset
  | issues
  | exportPlan (strict : Bool)
  | importPlan (form : Json)
  | reimport
  | dump

inductive Answer where
  | nothing
  | node (node : Node)
  | edge (edge : Edge)
  | refusal (reason : Option Refusal)
  | nextStep (id : Option String)
  | issues (issues : List Issue)
  | plan (plan : Plan)
  | warnings (warnings : List Warning)
  | graph (graph : Graph)

structure Workspace where
  session : Session
  ids : Supply

namespace Workspace

/-- An id that names something: the empty text does not. -/
def givenId? : Option String → Option String
  | some id => if id = "" then none else some id
  | none => none

/-- The payload that a command brings for a new node, if it brings data. They are read for the
kind, and a value that is no kind is then reported as a type. -/
def givenPayload (kind : Json) : Option Json → Except SessionFault (Option Payload)
  | some data =>
    match Vocabulary.ofJson? (α := NodeKind) kind with
    | some kind => (Session.readData kind data).map some
    | none => .error (.unknownType kind)
  | none => .ok none

/-- The payload of a new node: the given one, else what its kind starts with. -/
def newPayload (kind : Json) : Option Payload → Except SessionFault Payload
  | some payload => .ok payload
  | none =>
    match Vocabulary.ofJson? (α := NodeKind) kind with
    | some kind => .ok (Payload.default kind)
    | none => .error (.notKind kind)

/-- Whether a fresh id is drawn for a new node: none is named, and its data can be read. -/
def drawsNodeId (kind : Json) (id : Option String) (data : Option Json) : Bool :=
  (givenId? id).isNone && (givenPayload kind data).toOption.isSome

def addNode (workspace : Workspace) (kind : Json) (id : Option String)
    (position : Option Position) (payload : Option Payload) :
    Except SessionFault (Session × Answer) := do
  let payload ← newPayload kind payload
  let node := ⟨(givenId? id).getD workspace.ids.next, payload, position.getD Position.origin⟩
  let session ← workspace.session.addNode node
  return (session, .node node)

/-- Adds a node with the payload that is read from its data. -/
def addRead (workspace : Workspace) (kind : Json) (id : Option String)
    (position data : Option Json) : Except SessionFault (Session × Answer) := do
  let payload ← givenPayload kind data
  workspace.addNode kind id (position.map Position.ofJson) payload

/-- An edge as it is requested; without an id it gets a fresh one. -/
def requestedEdge (ids : Supply) (source target : String) (id : Option String)
    (sourceHandle targetHandle : Json) : Edge :=
  ⟨(givenId? id).getD ("edge-" ++ ids.next), source, target, sourceHandle, targetHandle⟩

def connect (workspace : Workspace) (source target : String) (id : Option String)
    (sourceHandle targetHandle : Json) : Except SessionFault (Session × Answer) := do
  workspace.session.ensureConnectable source target id
  let edge := requestedEdge workspace.ids source target id sourceHandle targetHandle
  return (workspace.session.addEdge edge, .edge edge)

def perform (workspace : Workspace) : Command → Except SessionFault (Session × Answer)
  | .addNode kind id position data => workspace.addRead kind id position data
  | .getNode id => (workspace.session.node id).map fun node => (workspace.session, .node node)
  | .updateData id data =>
    (workspace.session.updateData id data).map fun (session, node) => (session, .node node)
  | .moveNode id position =>
    (workspace.session.moveNode id (Position.ofJson position)).map fun (session, node) =>
      (session, .node node)
  | .deleteNode id => (workspace.session.deleteNode id).map fun session => (session, .nothing)
  | .connectionRefusal source target =>
    (workspace.session.connectionRefusal source target).map fun reason =>
      (workspace.session, .refusal reason)
  | .connect source target id sourceHandle targetHandle =>
    workspace.connect source target id sourceHandle targetHandle
  | .disconnect id =>
    (workspace.session.disconnect id).map fun (session, edge) => (session, .edge edge)
  | .nextStep id => .ok (workspace.session, .nextStep (workspace.session.nextStep? id))
  | .setEntry id => (workspace.session.setEntry id).map fun session => (session, .nothing)
  | .clearEntry => .ok (workspace.session.clearEntry, .nothing)
  | .reset => .ok (.empty, .nothing)
  | .issues => .ok (workspace.session, .issues workspace.session.issues)
  | .exportPlan strict =>
    (workspace.session.exportPlan strict).map fun plan => (workspace.session, .plan plan)
  | .importPlan form =>
    (Session.importPlan form).map fun (session, warnings) => (session, .warnings warnings)
  | .reimport =>
    (Session.importPlan (workspace.session.graph.compile workspace.session.entry).toJson).map
      fun (session, warnings) => (session, .warnings warnings)
  | .dump => .ok (workspace.session, .graph workspace.session.graph)

def draws (workspace : Workspace) : Command → Bool
  | .addNode kind id _ data => drawsNodeId kind id data
  | .connect source target id _ _ =>
    (givenId? id).isNone && (workspace.session.ensureConnectable source target id).toOption.isSome
  | _ => false

/-- Carries out a command. After a fault the session is as it was. -/
def run (workspace : Workspace) (command : Command) : Workspace × Except SessionFault Answer :=
  let ids := if workspace.draws command then workspace.ids.advance else workspace.ids
  match workspace.perform command with
  | .ok (session, answer) => (⟨session, ids⟩, .ok answer)
  | .error fault => (⟨workspace.session, ids⟩, .error fault)

end Workspace

end OutreachFlow
