import OutreachFlow.Service.Framework
import OutreachFlow.Service.Schema

/-! Replies and responses. A reply is what the service wants to say. The framework makes a response
of it, which is an internal error if the reply cannot be sent. -/
namespace OutreachFlow.Service

inductive Reply where
  | failure
  | empty (status : Nat)
  | document (manner : Manner) (status : Nat) (content : Json)
  | invalid (violations : List Violation)

namespace Reply

def modelled (status : Nat) (content : Json) : Reply := document .modelled status content

def refusal (status : Nat) (detail : Json) : Reply :=
  document .plain status (.obj [("detail", detail)])

def refusalText (status : Nat) (detail : String) : Reply := refusal status (.str detail)

def noContent : Reply := empty 204

def elsewhere : Reply := empty 307

end Reply

inductive Body where
  | empty
  | document (content : Json)
  | violations (content : List Violation)
  | text (content : String)

structure Response where
  status : Nat
  body : Body

namespace Response

def failure : Response := ⟨500, .text "Internal Server Error"⟩

def withoutBody (response : Response) : Response := { response with body := .empty }

end Response

namespace Framework

/-- A request that does not fit its schema is answered with what was found, which must be possible
to send back. -/
def deliver (framework : Framework) : Reply → Response
  | .failure => .failure
  | .empty status => ⟨status, .empty⟩
  | .document manner status content =>
    match framework.sent manner content with
    | some sent => ⟨status, .document sent⟩
    | none => .failure
  | .invalid violations =>
    if violations.all fun violation => (framework.sent .echoed violation.found).isSome then
      ⟨422, .violations violations⟩
    else .failure

end Framework

end OutreachFlow.Service
