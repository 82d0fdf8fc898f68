import OutreachFlow.Service.Canvas
import OutreachFlow.Service.Endpoint
import OutreachFlow.Service.Record
import OutreachFlow.Store.Basic

/-! The service: each request gets a response and may change the store. Stored files can hold
anything; what does not fit where it is needed makes the service fail, and what was written
before stays, also if the answer cannot be sent. -/
namespace OutreachFlow.Service

def notFound : Reply := .refusalText 404 "Not Found"

def wrongMethod : Reply := .refusalText 405 "Method Not Allowed"

def flowNotFound : Reply := .refusalText 404 "Flow sequence not found"

def answerRecord (status : Nat) (value : Json) : Reply :=
  match FlowRecord.schema value with
  | .valid record => .modelled status record.toJson
  | .invalid _ => .failure

def answerRecords (values : List Json) : Reply :=
  match Schema.list FlowRecord.schema (.arr values) with
  | .valid records => .modelled 200 (.arr (records.map FlowRecord.toJson))
  | .invalid _ => .failure

def listFlows (store : Store) : Reply :=
  match store.list with
  | .ok values => answerRecords values
  | .error _ => .failure

def getFlow (store : Store) (id : String) : Reply :=
  match store.get? id with
  | .ok (some value) => answerRecord 200 value
  | .ok none => flowNotFound
  | .error _ => .failure

/-- Saves a flow whose graph can be built. -/
def createFlow (depth : Nat) (store : Store) (flow : NewFlow) : Store × Reply :=
  match GraphForm.toGraph ⟨flow.nodes, flow.edges⟩ with
  | .error fault => (store, refuseGraph depth fault)
  | .ok _ =>
    match store.create (.str flow.name) (textOrNull flow.description)
      (.arr (GraphForm.nodeDumps flow.nodes)) (.arr (GraphForm.edgeDumps flow.edges)) with
    | (store, .ok record) => (store, answerRecord 201 record)
    | (store, .error _) => (store, .failure)

/-- The graph that a stored document would hold after changes, as far as it has one: the changed
half or the stored one, both of which must be stored. -/
def changedGraph? (changes : Fields) : Json → Option (Json × Json)
  | .obj record => do
    let nodes ← Fields.get? record "nodes"
    let edges ← Fields.get? record "edges"
    return ((changes.get? "nodes").getD nodes, (changes.get? "edges").getD edges)
  | _ => none

/-- Saves changes to a flow after which its graph can still be built. -/
def saveChanges (store : Store) (id : String) (changes : Fields) : Store × Reply :=
  match store.update id changes with
  | (store, .ok (some record)) => (store, answerRecord 200 record)
  | (store, _) => (store, .failure)

def changeFlow (depth : Nat) (store : Store) (id : String) (change : FlowChange) : Store × Reply :=
  match store.get? id with
  | .error _ => (store, .failure)
  | .ok none => (store, flowNotFound)
  | .ok (some current) =>
    match changedGraph? change.toFields current with
    | none => (store, .failure)
    | some (nodes, edges) =>
      match Graph.ofValues nodes edges with
      | .ok _ => saveChanges store id change.toFields
      | .error (.malformed fault) => (store, refuseGraph depth fault)
      | .error .notWalkable => (store, .failure)

def deleteFlow (store : Store) (id : String) : Store × Reply :=
  match store.delete id with
  | (store, .ok true) => (store, .noContent)
  | (store, .ok false) => (store, flowNotFound)
  | (store, .error _) => (store, .failure)

variable (framework : Framework)

/-- Answers what needs a body and no store. -/
def answering {α : Type} (request : Request) (check : Option Json → Checked α)
    (answer : α → Reply) : Reply :=
  match request.read framework check with
  | .ok value => answer value
  | .error reply => reply

/-- Carries out what needs a body and the store. -/
def storing {α : Type} (store : Store) (request : Request) (check : Option Json → Checked α)
    (act : α → Store × Reply) : Store × Reply :=
  match request.read framework check with
  | .ok value => act value
  | .error reply => (store, reply)

def replyAt (store : Store) (request : Request) : Endpoint → Store × Reply
  | .palette => (store, answerPalette)
  | .compile =>
    let check content :=
      Prod.mk <$> checkFlag request.target "strict"
        <*> checkBody (Schema.record MarkedGraph.read) content
    (store, answering framework request check fun (strict, form) =>
      answerCompile framework.messageDepth strict form)
  | .decompile =>
    (store, answering framework request (checkBody Checked.valid)
      (answerDecompile framework.messageDepth))
  | .validate =>
    (store, answering framework request (checkBody (Schema.record MarkedGraph.read))
      (answerValidate framework.messageDepth))
  | .checkConnection =>
    (store, answering framework request (checkBody (Schema.record ConnectionQuestion.read))
      (answerConnection framework.messageDepth))
  | .checkEntry =>
    (store, answering framework request (checkBody (Schema.record EntryQuestion.read))
      (answerEntry framework.messageDepth))
  | .listFlows => (store, listFlows store)
  | .createFlow =>
    storing framework store request (checkBody (Schema.record NewFlow.read))
      (createFlow framework.messageDepth store)
  | .getFlow id => (store, getFlow store id)
  | .changeFlow id =>
    storing framework store request (checkBody (Schema.record FlowChange.read))
      (changeFlow framework.messageDepth store id)
  | .deleteFlow id => deleteFlow store id

/-- What the service says to a request, and what it does. -/
def reply (store : Store) (request : Request) : Store × Reply :=
  match destination request.method request.target.path with
  | .endpoint endpoint => replyAt framework store request endpoint
  | .wrongMethod => (store, wrongMethod)
  | .elsewhere => (store, .elsewhere)
  | .unknown => (store, notFound)

/-- Answers a request. What asks for the head of a response only gets no body. -/
def serve (store : Store) (request : Request) : Store × Response :=
  let (store, reply) := reply framework store request
  let response := framework.deliver reply
  (store, if request.method = "HEAD" then response.withoutBody else response)

end OutreachFlow.Service
