import OutreachFlow.Palette
import OutreachFlow.Service.Request
import OutreachFlow.Session.Basic

/-! What the service answers about a graph that a request holds or a plan describes. Nothing is
stored. Where a message may show a value, `depth` is the number of levels that are left for it. -/
namespace OutreachFlow.Service

def definitionForm (definition : Definition) : Json :=
  .obj [("kind", .str definition.kind.word), ("displayName", .str definition.displayName),
    ("category", .str definition.category), ("description", .str definition.description),
    ("defaultData", .obj definition.defaultData)]

def answerPalette : Reply :=
  .modelled 200
    (.obj (palette.map fun definition => (definition.kind.word, definitionForm definition)))

/-- Refuses a graph with what is wrong with it, if that can be told. -/
def refuseGraph (depth : Nat) (fault : GraphFault) : Reply :=
  match fault.told? depth with
  | some text => .refusalText 400 text
  | none => .failure

/-- Answers from the graph that a form describes, if it describes one. -/
def withGraph (depth : Nat) (form : GraphForm) (answer : Graph → Reply) : Reply :=
  match form.toGraph with
  | .ok graph => answer graph
  | .error fault => refuseGraph depth fault

def texts (items : List String) : Json := .arr (items.map .str)

/-- The plan of a graph; a strict request for a graph with issues is answered with them. -/
def answerCompile (depth : Nat) (strict : Bool) (form : MarkedGraph) : Reply :=
  withGraph depth form.graph fun graph =>
    match if strict then graph.ensureValid form.entry else .ok () with
    | .ok _ => .document .plain 200 (graph.compile form.entry).toJson
    | .error fault => .refusal 400 (texts (fault.issues.map Issue.message))

/-- The document about an imported session, unless it does not fit the schema of answers. -/
def sessionForm? (session : Session) (warnings : List Warning) : Option Json :=
  match GraphForm.mk <$> GraphForm.nodesSchema (.arr session.graph.nodeForms)
    <*> GraphForm.edgesSchema (.arr session.graph.edgeForms) with
  | .valid graph =>
    some (.obj [("nodes", .arr (graph.nodes.map NodeForm.toJson)),
      ("edges", .arr (graph.edges.map EdgeForm.toJson)),
      ("firstNodeId", textOrNull session.entry),
      ("warnings", texts (warnings.map Warning.message))])
  | .invalid _ => none

def answerDecompile (depth : Nat) (form : Json) : Reply :=
  match Session.importPlan form with
  | .ok (session, warnings) =>
    match sessionForm? session warnings with
    | some content => .modelled 200 content
    | none => .failure
  | .error (.importFailed fault) =>
    match fault.failure depth with
    | .invalid reason => .refusalText 400 reason
    | _ => .failure
  | .error _ => .failure

def answerValidate (depth : Nat) (form : MarkedGraph) : Reply :=
  withGraph depth form.graph fun graph =>
    let issues := graph.issues form.entry
    .modelled 200
      (.obj [("valid", .bool issues.isEmpty), ("errors", texts (issues.map Issue.message))])

/-- A verdict, with the reason if it is against. -/
def verdict (name : String) (reason : Option String) : Reply :=
  .modelled 200 (.obj [(name, .bool reason.isNone), ("reason", textOrNull reason)])

def answerConnection (depth : Nat) (question : ConnectionQuestion) : Reply :=
  withGraph depth question.marked.graph fun graph =>
    let session : Session := ⟨graph, question.marked.entry⟩
    match session.connectionRefusal question.source question.target with
    | .ok reason => verdict "allowed" (reason.map Refusal.message)
    | .error fault => .refusalText 400 fault.message

def answerEntry (depth : Nat) (question : EntryQuestion) : Reply :=
  withGraph depth question.graph fun graph =>
    match graph.node? question.node with
    | none => .refusalText 400 (unknownNodeText question.node)
    | some node => verdict "eligible" ((ineligibility? node graph.edges).map Ineligibility.message)

end OutreachFlow.Service
