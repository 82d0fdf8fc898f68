import OutreachFlow.Json.Reader
import OutreachFlow.Service.Form
import OutreachFlow.Service.Response
import OutreachFlow.Service.Target

/-! Requests and how they are read. A body is JSON text in any encoding that shows in its first
bytes; headers are left out, and a body is taken to be announced as JSON. Text that is no JSON is
refused before anything else; otherwise the parameters and the body are checked together. -/
namespace OutreachFlow.Service

structure Request where
  method : String
  target : Target
  body : List UInt8

namespace Request

/-- A request from its written parts; methods are in capitals. -/
def ofTexts (method target body : String) : Request :=
  ⟨String.ofList (method.toList.map Char.toUpper), Target.ofText target, body.toUTF8.data.toList⟩

/-- The document in a body; an empty body holds none. -/
def document (framework : Framework) (request : Request) : Except Reply (Option Json) :=
  if request.body = [] then .ok none
  else match Json.ofBytes framework.bodyDepth request.body with
    | .ok content => .ok (some content)
    | .error (.malformed _ place) =>
      .error (.invalid [⟨[.field "body", .item place.offset], .notJson, .obj []⟩])
    | .error _ => .error (.refusalText 400 "There was an error parsing the body")

/-- Reads a request by a check of its body, with the reply to one that does not pass. -/
def read {α : Type} (framework : Framework) (request : Request) (check : Option Json → Checked α) :
    Except Reply α :=
  match request.document framework with
  | .error reply => .error reply
  | .ok content =>
    match check content with
    | .valid value => .ok value
    | .invalid violations => .error (.invalid violations)

end Request

/-- Checks the document in a body against a schema; there must be one. -/
def checkBody {α : Type} (schema : Schema α) : Option Json → Checked α
  | some content => (schema content).under (.field "body")
  | none => (Checked.refuse .missing .null).under (.field "body")

/-- The words for true and false, in any case. -/
def truthValue? (text : String) : Option Bool :=
  let word := String.ofList (text.toList.map Char.toLower)
  if word ∈ ["1", "on", "t", "true", "y", "yes"] then some true
  else if word ∈ ["0", "off", "f", "false", "n", "no"] then some false
  else none

/-- A parameter that is a truth value, false unless it is given. -/
def checkFlag (target : Target) (name : String) : Checked Bool :=
  match target.parameter? name with
  | none => .valid false
  | some text =>
    match truthValue? text with
    | some value => .valid value
    | none =>
      ((Checked.refuse .notTruthValue (.str text)).under (.field name)).under (.field "query")

end OutreachFlow.Service
