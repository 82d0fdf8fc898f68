import OutreachFlow.Import.Flow
import OutreachFlow.Plan.Compile
import OutreachFlow.Rules.Entry
import OutreachFlow.Rules.Lint

/-! Editing sessions: one graph and its entry, changed only in ways that keep them consistent.
Every operation either gives the new session or a fault, and a fault leaves the session as it
was. -/
namespace OutreachFlow

structure Session where
  graph : Graph
  entry : Option String
deriving DecidableEq, Repr

inductive SessionFault where
  | unknownNode (id : String)
  | refused (source target : String) (reason : Refusal)
  | ineligible (fault : IneligibleNode)
  | importFailed (fault : ImportError)
  | invalidGraph (fault : InvalidGraph)
  | nodeExists (id : String)
  | notKind (value : Json)
  | unknownType (value : Json)
  | payload (fault : PayloadFault)
  | dataNotObject (value : Json)
  | unknownEdge (id : String)
deriving DecidableEq, Repr

def notKindText (value : Json) : String := value.literal ++ " is not a valid NodeKind"

def unknownNodeText (id : String) : String := "Unknown node: " ++ id

def SessionFault.message : SessionFault → String
  | unknownNode id => unknownNodeText id
  | refused source target reason =>
    "Cannot connect " ++ source ++ " -> " ++ target ++ ": " ++ reason.message
  | ineligible fault => fault.message
  | importFailed fault => fault.message
  | invalidGraph fault => fault.message
  | nodeExists id => "Node '" ++ id ++ "' already exists"
  | notKind value => notKindText value
  | unknownType value => unknownTypeText value
  | payload fault => fault.message
  | dataNotObject value => "data must be an object, got " ++ value.typeName
  | unknownEdge id => "Unknown edge: " ++ id

namespace Session

def empty : Session := ⟨Graph.empty, none⟩

def node (session : Session) (id : String) : Except SessionFault Node :=
  match session.graph.node? id with
  | some node => .ok node
  | none => .error (.unknownNode id)

/-! Nodes -/

def addNode (session : Session) (node : Node) : Except SessionFault Session :=
  if session.graph.has node.id then .error (.nodeExists node.id)
  else .ok { session with graph := { session.graph with nodes := session.graph.nodes ++ [node] } }

/-- Reads the data of a node of a kind. Conditions take any value, the others an object. -/
def readData (kind : NodeKind) : Json → Except SessionFault Payload
  | .obj data => (Payload.ofData data kind).mapError .payload
  | value => if kind = .condition then .ok .condition else .error (.dataNotObject value)

def setPayload (session : Session) (id : String) (payload : Payload) :
    Except SessionFault (Session × Node) := do
  let node ← session.node id
  let node := { node with payload := payload }
  return ({ session with graph := session.graph.replace node }, node)

/-- Gives a node the payload that is read from data for its kind. The data come before the question
whether the node is there, and are then read as those of an action. -/
def updateData (session : Session) (id : String) (data : Json) :
    Except SessionFault (Session × Node) := do
  let kind := ((session.graph.node? id).map Node.kind).getD .action
  let payload ← readData kind data
  session.setPayload id payload

def moveNode (session : Session) (id : String) (position : Position) :
    Except SessionFault (Session × Node) := do
  let node ← session.node id
  let node := { node with position := position }
  return ({ session with graph := session.graph.replace node }, node)

/-- Removes a node with its edges; with the entry the session loses its entry. -/
def deleteNode (session : Session) (id : String) : Except SessionFault Session := do
  let _ ← session.node id
  return ⟨session.graph.erase id, if isEntry session.entry id then none else session.entry⟩

/-! Edges -/

/-- What the edges already there have against a further one. -/
def conflict? (session : Session) (source target : Node) : Option Refusal :=
  let outgoing := session.graph.outgoing source.id
  if outgoing.any fun edge => edge.target = target.id then some .alreadyConnected
  else if source.kind.singleSuccessor ∧ outgoing ≠ [] then some (.secondNextStep source.kind)
  else none

def connectionRefusal (session : Session) (source target : String) :
    Except SessionFault (Option Refusal) := do
  let source ← session.node source
  let target ← session.node target
  return (refusal? source target session.entry).or (session.conflict? source target)

/-- The edge id that a request names may not be in use. -/
def edgeIdConflict? (session : Session) : Option String → Option Refusal
  | some id =>
    if session.graph.edges.any fun edge => edge.id = id then some (.edgeIdInUse id) else none
  | none => none

/-- Refuses an edge between two nodes that would break one of the rules. -/
def ensureAllowed (source target : Node) (entry : Option String) : Except SessionFault Unit :=
  match refusal? source target entry with
  | some reason => .error (.refused source.id target.id reason)
  | none => .ok ()

def ensureConnectable (session : Session) (source target : String) (edgeId : Option String) :
    Except SessionFault Unit := do
  let first ← session.node source
  let second ← session.node target
  ensureAllowed first second session.entry
  match (session.conflict? first second).or (session.edgeIdConflict? edgeId) with
  | some reason => .error (.refused source target reason)
  | none => return ()

def addEdge (session : Session) (edge : Edge) : Session :=
  { session with graph := { session.graph with edges := session.graph.edges ++ [edge] } }

def disconnect (session : Session) (id : String) : Except SessionFault (Session × Edge) :=
  match session.graph.edges.find? fun edge => edge.id = id with
  | none => .error (.unknownEdge id)
  | some edge =>
    let edges := session.graph.edges.eraseP fun edge => edge.id = id
    .ok ({ session with graph := { session.graph with edges := edges } }, edge)

def nextStep? (session : Session) (id : String) : Option String := session.graph.nextStep? id

/-! The entry -/

def setEntry (session : Session) (id : String) : Except SessionFault Session := do
  let node ← session.node id
  let entry ← (entryAt node (session.graph.incoming id)).mapError .ineligible
  return { session with entry := entry }

def clearEntry (session : Session) : Session := { session with entry := none }

/-! The whole flow -/

def issues (session : Session) : List Issue := session.graph.issues session.entry

/-- The plan of the session. A strict export refuses a graph with issues. -/
def exportPlan (session : Session) (strict : Bool) : Except SessionFault Plan := do
  if strict then (session.graph.ensureValid session.entry).mapError .invalidGraph
  return session.graph.compile session.entry

/-- The graph of an imported flow without the edges into its entry and to nowhere. -/
def cleaned (flow : Flow) : Graph :=
  { flow.toGraph with
    edges := flow.edges.filter fun edge =>
      edge.target ≠ flow.entry ∧ flow.toGraph.has edge.target }

/-- Replaces everything by an imported plan. The warnings tell of the edges to nowhere. -/
def importPlan (form : Json) : Except SessionFault (Session × List Warning) := do
  let flow ← (Flow.ofJson form).mapError .importFailed
  return (⟨cleaned flow, some flow.entry⟩, flow.warnings)

end Session

end OutreachFlow
