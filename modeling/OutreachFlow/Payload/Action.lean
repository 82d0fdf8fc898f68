import OutreachFlow.Vocabulary

/-! What an action node does: a contact request or a message, through one provider. Old records
hold a list of actions, of which the first counts. -/
namespace OutreachFlow

inductive PayloadFault where
  | actionNotObject (value : Json)
  | messageNotText (value : Json)
  | checkNotObject (value : Json)
  | outcomeNotTruthValue (value : Json)
  | hoursNotNumber (value : Json)
  | checksNotList (value : Json)
  | unknownWord (fault : WordFault)
deriving DecidableEq, Repr

def PayloadFault.message : PayloadFault → String
  | actionNotObject value => "action must be an object, got " ++ value.typeName
  | messageNotText value => "message must be a string, got " ++ value.typeName
  | checkNotObject value => "check must be an object, got " ++ value.typeName
  | outcomeNotTruthValue value => "check value must be a boolean, got " ++ value.literal
  | hoursNotNumber value => "timeInHours must be a number, got " ++ value.literal
  | checksNotList value => "conditions must be a list, got " ++ value.typeName
  | unknownWord fault => fault.message

/-- The value that the message of a fault shows. -/
def PayloadFault.shown? : PayloadFault → Option Json
  | outcomeNotTruthValue value | hoursNotNumber value => some value
  | unknownWord fault => some fault.value
  | _ => none

/-- The text of a fault, if its message can be made with `limit` levels left. -/
def PayloadFault.told? (limit : Nat) (fault : PayloadFault) : Option String :=
  Json.told? limit fault.shown? fault.message

def readWord {α : Type} [Vocabulary α] (field : String) (value : Json) : Except PayloadFault α :=
  (Vocabulary.read field value).mapError .unknownWord

/-- An action. The message matters for sending messages only, which nothing enforces. -/
structure ActionStep where
  action : ActionKind
  provider : Provider
  message : Option String
deriving DecidableEq, Repr

namespace ActionStep

def default : ActionStep := ⟨.sendContactRequest, .linkedIn, none⟩

/-- A message field: null and missing alike mean that there is none. -/
def readMessage : Json → Except PayloadFault (Option String)
  | .null => .ok none
  | .str text => .ok (some text)
  | value => .error (.messageNotText value)

def ofFields (fields : Fields) : Except PayloadFault ActionStep := do
  let message ← readMessage (fields.valueOf "message")
  let action ← readWord "action" (fields.valueOf "action")
  let provider ← readWord "provider" (fields.valueOf "provider")
  return ⟨action, provider, message⟩

def ofJson : Json → Except PayloadFault ActionStep
  | .obj fields => ofFields fields
  | value => .error (.actionNotObject value)

/-- Reads the data of an action node. A list of actions stands for its first one, an empty
list for the default action. -/
def ofData (data : Fields) : Except PayloadFault ActionStep :=
  match data.valueOf "actions" with
  | .arr [] => .ok default
  | .arr (first :: _) => ofJson first
  | _ => ofFields data

def words (step : ActionStep) : Fields :=
  [("action", .str (Vocabulary.word step.action)),
    ("provider", .str (Vocabulary.word step.provider))]

def toFields (step : ActionStep) : Fields :=
  step.words ++ Json.optional "message" (step.message.map .str)

end ActionStep

end OutreachFlow
