import OutreachFlow.Json.Literal

/-! Edges of a flow and their editor form. The handles name ports of the two nodes; they may be
any values, and null says that there is none. -/
namespace OutreachFlow

structure Edge where
  id : String
  source : String
  target : String
  sourceHandle : Json
  targetHandle : Json
deriving DecidableEq, Repr

inductive EdgeFault where
  | notObject (value : Json)
  | missing (key : String)
deriving DecidableEq, Repr

def EdgeFault.message : EdgeFault → String
  | notObject value => "edge must be an object, got " ++ value.typeName
  | missing key => "edge is missing '" ++ key ++ "'"

namespace Edge

/-- An edge between two nodes, without handles. -/
def plain (id source target : String) : Edge := ⟨id, source, target, .null, .null⟩

def textOf (fields : Fields) (key : String) : Except EdgeFault String :=
  match fields.valueOf key with
  | .str text => .ok text
  | _ => .error (.missing key)

def ofFields (fields : Fields) : Except EdgeFault Edge := do
  let id ← textOf fields "id"
  let source ← textOf fields "source"
  let target ← textOf fields "target"
  return ⟨id, source, target, fields.valueOf "sourceHandle", fields.valueOf "targetHandle"⟩

def ofJson : Json → Except EdgeFault Edge
  | .obj fields => ofFields fields
  | value => .error (.notObject value)

/-- A handle as a field; null is not written. -/
def handleField (key : String) : Json → Fields
  | .null => []
  | handle => [(key, handle)]

def toJson (edge : Edge) : Json :=
  .obj ([("id", .str edge.id), ("source", .str edge.source), ("target", .str edge.target)] ++
    handleField "sourceHandle" edge.sourceHandle ++ handleField "targetHandle" edge.targetHandle)

end Edge

end OutreachFlow
