import OutreachFlow.Service.Form

/-! Saved flows as the service takes and answers them. A change tells apart what is left out
from what is null for name and description, which may be null, and does not for the graph,
where both leave things as they are. -/
namespace OutreachFlow.Service

structure NewFlow where
  name : String
  description : Option String
  nodes : List NodeForm
  edges : List EdgeForm
deriving DecidableEq, Repr

def NewFlow.read (fields : Fields) : Checked NewFlow :=
  NewFlow.mk <$> FieldName.required "name" Schema.text fields
    <*> FieldName.orNull "description" Schema.text fields
    <*> FieldName.orElse "nodes" GraphForm.nodesSchema [] fields
    <*> FieldName.orElse "edges" GraphForm.edgesSchema [] fields

structure FlowChange where
  name : Option (Option String)
  description : Option (Option String)
  nodes : Option (List NodeForm)
  edges : Option (List EdgeForm)
deriving DecidableEq, Repr

namespace FlowChange

def read (fields : Fields) : Checked FlowChange :=
  FlowChange.mk <$> FieldName.optional? "name" (Schema.optional Schema.text) fields
    <*> FieldName.optional? "description" (Schema.optional Schema.text) fields
    <*> FieldName.orNull "nodes" GraphForm.nodesSchema fields
    <*> FieldName.orNull "edges" GraphForm.edgesSchema fields

def toFields (change : FlowChange) : Fields :=
  Json.optional "name" (change.name.map textOrNull) ++
    Json.optional "description" (change.description.map textOrNull) ++
    Json.optional "nodes" (change.nodes.map fun nodes => .arr (GraphForm.nodeDumps nodes)) ++
    Json.optional "edges" (change.edges.map fun edges => .arr (GraphForm.edgeDumps edges))

end FlowChange

structure FlowRecord where
  id : String
  name : String
  description : Option String
  nodes : List NodeForm
  edges : List EdgeForm
  createdAt : String
  updatedAt : String
deriving DecidableEq, Repr

namespace FlowRecord

/-- Reads a stored record; what it holds beyond a flow is passed over. -/
def schema : Schema FlowRecord := Schema.record fun fields =>
  FlowRecord.mk <$> FieldName.required "id" Schema.text fields
    <*> FieldName.required "name" Schema.text fields
    <*> FieldName.orNull "description" Schema.text fields
    <*> FieldName.required "nodes" GraphForm.nodesSchema fields
    <*> FieldName.required "edges" GraphForm.edgesSchema fields
    <*> FieldName.createdAt.required Schema.text fields
    <*> FieldName.updatedAt.required Schema.text fields

def toJson (record : FlowRecord) : Json :=
  .obj [("id", .str record.id), ("name", .str record.name),
    ("description", textOrNull record.description),
    ("nodes", .arr (record.nodes.map NodeForm.toJson)),
    ("edges", .arr (record.edges.map EdgeForm.toJson)),
    ("createdAt", .str record.createdAt), ("updatedAt", .str record.updatedAt)]

end FlowRecord

end OutreachFlow.Service
