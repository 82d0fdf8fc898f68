import OutreachFlow.Json.Literal

/-! The closed vocabularies of a flow: what kinds of nodes there are, what an action does and
through whom, and what a check asks. Each member has one word, and a value is a member exactly
if it is that word. -/
namespace OutreachFlow

/-- A finite set of words, in the order in which messages list them. -/
class Vocabulary (α : Type) where
  all : List α
  word : α → String

/-- A value that is no word of the vocabulary that a field draws from. -/
structure WordFault where
  field : String
  value : Json
  expected : List String
deriving DecidableEq, Repr

def WordFault.message (fault : WordFault) : String :=
  "invalid " ++ fault.field ++ " " ++ fault.value.literal ++ " (expected one of: " ++
    String.intercalate ", " fault.expected ++ ")"

namespace Vocabulary

variable {α : Type} [Vocabulary α]

def ofWord? (text : String) : Option α := (all (α := α)).find? fun member => word member = text

def ofJson? (value : Json) : Option α := value.asString?.bind ofWord?

def read (field : String) (value : Json) : Except WordFault α :=
  match ofJson? value with
  | some member => .ok member
  | none => .error ⟨field, value, (all (α := α)).map word⟩

end Vocabulary

/-- Actions reach out, conditions branch, and condition checks guard one branch each. -/
inductive NodeKind where
  | action
  | condition
  | conditionCheck
deriving DecidableEq, Repr

namespace NodeKind

def word : NodeKind → String
  | action => "action"
  | condition => "condition"
  | conditionCheck => "condition_check"

instance : Vocabulary NodeKind := ⟨[action, condition, conditionCheck], word⟩

/-- The type tag of a kind in an execution plan. -/
def tag : NodeKind → String
  | action => "ACTION"
  | condition => "CONDITION"
  | conditionCheck => "CONDITION_CHECK"

def ofTag? (text : String) : Option NodeKind :=
  [action, condition, conditionCheck].find? fun kind => kind.tag = text

def ofTagValue? (value : Json) : Option NodeKind := value.asString?.bind ofTag?

end NodeKind

inductive ActionKind where
  | sendContactRequest
  | sendMessage
deriving DecidableEq, Repr

instance : Vocabulary ActionKind where
  all := [.sendContactRequest, .sendMessage]
  word
    | .sendContactRequest => "SEND_CONTACT_REQUEST"
    | .sendMessage => "SEND_MESSAGE"

inductive Provider where
  | nova
  | linkedIn
deriving DecidableEq, Repr

instance : Vocabulary Provider where
  all := [.nova, .linkedIn]
  word
    | .nova => "NOVA"
    | .linkedIn => "LINKEDIN"

inductive Predicate where
  | isNova
  | isNovaContact
  | isLinkedInContact
  | hasTimePassed
  | hasRejectedContactNova
  | hasRejectedContactLinkedIn
deriving DecidableEq, Repr

instance : Vocabulary Predicate where
  all := [.isNova, .isNovaContact, .isLinkedInContact, .hasTimePassed, .hasRejectedContactNova,
    .hasRejectedContactLinkedIn]
  word
    | .isNova => "IS_NOVA"
    | .isNovaContact => "IS_NOVA_CONTACT"
    | .isLinkedInContact => "IS_LINKEDIN_CONTACT"
    | .hasTimePassed => "HAS_TIME_PASSED"
    | .hasRejectedContactNova => "HAS_REJECTED_CONTACT_NOVA"
    | .hasRejectedContactLinkedIn => "HAS_REJECTED_CONTACT_LINKEDIN"

end OutreachFlow
