import OutreachFlow.Payload.Basic

/-! Nodes of a flow and their editor form `{id, type, position, data}`. A position may hold any
values as coordinates: an editor stores what it is given, and only the layout of imported
flows asks for numbers. -/
namespace OutreachFlow

structure Position where
  x : Json
  y : Json
deriving DecidableEq, Repr

namespace Position

def origin : Position := ⟨.double 0.0, .double 0.0⟩

/-- Reads a position; a missing coordinate is zero, and so are both where there is no object. -/
def ofJson : Json → Position
  | .obj fields =>
    ⟨(Fields.get? fields "x").getD origin.x, (Fields.get? fields "y").getD origin.y⟩
  | _ => origin

def toJson (position : Position) : Json := .obj [("x", position.x), ("y", position.y)]

end Position

structure Node where
  id : String
  payload : Payload
  position : Position
deriving DecidableEq, Repr

/-- Why a value is no node. Faults behind the id carry it. -/
inductive NodeFault where
  | notObject (value : Json)
  | withoutId
  | unknownType (id : String) (value : Json)
  | dataNotObject (id : String)
  | payload (id : String) (fault : PayloadFault)
deriving DecidableEq, Repr

def unknownTypeText (value : Json) : String := "Unknown node type: " ++ value.bare

def NodeFault.message : NodeFault → String
  | notObject value => "node must be an object, got " ++ value.typeName
  | withoutId => "node is missing an 'id'"
  | unknownType id value => "node '" ++ id ++ "': " ++ unknownTypeText value
  | dataNotObject id => "node '" ++ id ++ "': data must be an object"
  | payload id fault => "node '" ++ id ++ "': " ++ fault.message

/-- The text of a fault, if its message can be made with `limit` levels left. Only a payload is read
where the id is put in front of whatever is wrong. -/
def NodeFault.told? (limit : Nat) : NodeFault → Option String
  | unknownType id value => Json.told? limit value.printed? (unknownType id value).message
  | payload id fault => (fault.told? limit).map fun text => "node '" ++ id ++ "': " ++ text
  | fault => some fault.message

namespace Node

def kind (node : Node) : NodeKind := node.payload.kind

/-- The id under the key `id`, which must be a text and not empty. -/
def idOf? (fields : Fields) : Option String :=
  match fields.valueOf "id" with
  | .str id => if id = "" then none else some id
  | _ => none

/-- The data object of a node; whatever is blank stands for an empty one. -/
def dataOf? (fields : Fields) : Option Fields :=
  let data := fields.valueOf "data"
  if data.isBlank then some [] else data.asFields?

def ofFields (fields : Fields) : Except NodeFault Node := do
  let some id := idOf? fields | .error .withoutId
  let type := fields.valueOf "type"
  let some kind := Vocabulary.ofJson? (α := NodeKind) type | .error (.unknownType id type)
  let some data := dataOf? fields | .error (.dataNotObject id)
  let payload ← (Payload.ofData data kind).mapError (.payload id)
  return ⟨id, payload, Position.ofJson (fields.valueOf "position")⟩

def ofJson : Json → Except NodeFault Node
  | .obj fields => ofFields fields
  | value => .error (.notObject value)

def toJson (node : Node) : Json :=
  .obj [("id", .str node.id), ("type", .str node.kind.word), ("position", node.position.toJson),
    ("data", .obj node.payload.toData)]

end Node

end OutreachFlow
