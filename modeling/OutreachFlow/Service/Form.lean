import OutreachFlow.Graph.Form
import OutreachFlow.Service.Schema

/-! The forms in which the service takes and answers graphs. Coordinates are doubles, handles
are texts, and the data of a node pass through as they are. A dump leaves out what is null and
is what a graph is built from and what is stored; an answer writes every field. -/
namespace OutreachFlow.Service

structure Point where
  x : Float
  y : Float
deriving DecidableEq, Repr

structure NodeForm where
  id : String
  kind : NodeKind
  position : Point
  data : Fields
deriving DecidableEq, Repr

structure EdgeForm where
  id : String
  source : String
  target : String
  sourceHandle : Option String
  targetHandle : Option String
deriving DecidableEq, Repr

structure GraphForm where
  nodes : List NodeForm
  edges : List EdgeForm
deriving DecidableEq, Repr

def textOrNull : Option String → Json
  | some text => .str text
  | none => .null

namespace FieldName

def sourceHandle : FieldName := ⟨"sourceHandle", "source_handle"⟩
def targetHandle : FieldName := ⟨"targetHandle", "target_handle"⟩
def firstNodeId : FieldName := ⟨"firstNodeId", "first_node_id"⟩
def nodeId : FieldName := ⟨"nodeId", "node_id"⟩
def createdAt : FieldName := ⟨"createdAt", "created_at"⟩
def updatedAt : FieldName := ⟨"updatedAt", "updated_at"⟩

end FieldName

namespace Point

def origin : Point := ⟨0.0, 0.0⟩

def schema : Schema Point := Schema.record fun fields =>
  Point.mk <$> FieldName.orElse "x" Schema.double origin.x fields
    <*> FieldName.orElse "y" Schema.double origin.y fields

def toJson (point : Point) : Json := .obj [("x", .double point.x), ("y", .double point.y)]

end Point

namespace NodeForm

def kindSchema : Schema NodeKind := fun value =>
  match Vocabulary.ofJson? (α := NodeKind) value with
  | some kind => .valid kind
  | none => .refuse .notChoice value

def schema : Schema NodeForm := Schema.record fun fields =>
  NodeForm.mk <$> FieldName.required "id" Schema.text fields
    <*> FieldName.required "type" kindSchema fields
    <*> FieldName.orElse "position" Point.schema Point.origin fields
    <*> FieldName.orElse "data" Schema.dictionary [] fields

/-- Nodes have no field that could be null, so a dump and an answer are the same. -/
def toJson (node : NodeForm) : Json :=
  .obj [("id", .str node.id), ("type", .str node.kind.word), ("position", node.position.toJson),
    ("data", .obj node.data)]

end NodeForm

namespace EdgeForm

def schema : Schema EdgeForm := Schema.record fun fields =>
  EdgeForm.mk <$> FieldName.required "id" Schema.text fields
    <*> FieldName.required "source" Schema.text fields
    <*> FieldName.required "target" Schema.text fields
    <*> FieldName.sourceHandle.orNull Schema.text fields
    <*> FieldName.targetHandle.orNull Schema.text fields

def ends (edge : EdgeForm) : Fields :=
  [("id", .str edge.id), ("source", .str edge.source), ("target", .str edge.target)]

def dump (edge : EdgeForm) : Json :=
  .obj (edge.ends ++ Json.optional "sourceHandle" (edge.sourceHandle.map .str) ++
    Json.optional "targetHandle" (edge.targetHandle.map .str))

def toJson (edge : EdgeForm) : Json :=
  .obj (edge.ends ++
    [("sourceHandle", textOrNull edge.sourceHandle),
      ("targetHandle", textOrNull edge.targetHandle)])

end EdgeForm

namespace GraphForm

def nodesSchema : Schema (List NodeForm) := Schema.list NodeForm.schema

def edgesSchema : Schema (List EdgeForm) := Schema.list EdgeForm.schema

/-- A graph in a request: its edges may be left out. -/
def read (fields : Fields) : Checked GraphForm :=
  GraphForm.mk <$> FieldName.required "nodes" nodesSchema fields
    <*> FieldName.orElse "edges" edgesSchema [] fields

def nodeDumps (nodes : List NodeForm) : List Json := nodes.map NodeForm.toJson

def edgeDumps (edges : List EdgeForm) : List Json := edges.map EdgeForm.dump

def toGraph (form : GraphForm) : Except GraphFault Graph :=
  Graph.ofLists (nodeDumps form.nodes) (edgeDumps form.edges)

end GraphForm

structure MarkedGraph where
  graph : GraphForm
  entry : Option String
deriving DecidableEq, Repr

def MarkedGraph.read (fields : Fields) : Checked MarkedGraph :=
  MarkedGraph.mk <$> GraphForm.read fields <*> FieldName.firstNodeId.orNull Schema.text fields

structure ConnectionQuestion where
  marked : MarkedGraph
  source : String
  target : String
deriving DecidableEq, Repr

def ConnectionQuestion.read (fields : Fields) : Checked ConnectionQuestion :=
  ConnectionQuestion.mk <$> MarkedGraph.read fields
    <*> FieldName.required "source" Schema.text fields
    <*> FieldName.required "target" Schema.text fields

structure EntryQuestion where
  graph : GraphForm
  node : String
deriving DecidableEq, Repr

def EntryQuestion.read (fields : Fields) : Checked EntryQuestion :=
  EntryQuestion.mk <$> GraphForm.read fields <*> FieldName.nodeId.required Schema.text fields

end OutreachFlow.Service
