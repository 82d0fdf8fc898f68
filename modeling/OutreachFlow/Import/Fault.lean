import OutreachFlow.Graph.Node
import OutreachFlow.Json.Reader

/-! What can be wrong with an imported plan. A fault inside a descriptor carries its id. Apart
from malformed plans there is one more way to fail: a saved coordinate that no double can hold
next to a branch without a saved position. A malformed plan is reported by a message, which may
show a value that cannot be printed; the failure is then no longer that of the plan. -/
namespace OutreachFlow

inductive DescriptorFault where
  | payload (fault : PayloadFault)
  | nextStepNotText (value : Json)
  | branchesNotList
  | branchNotObject (index : Nat)
deriving DecidableEq, Repr

def DescriptorFault.message : DescriptorFault → String
  | payload fault => fault.message
  | nextStepNotText value => "nextStepId must be a string, got " ++ value.literal
  | branchesNotList => "condition 'child' must be a list of branches"
  | branchNotObject index => "branch #" ++ toString index ++ " is not an object"

/-- The value that the message of a fault shows. -/
def DescriptorFault.shown? : DescriptorFault → Option Json
  | payload fault => fault.shown?
  | nextStepNotText value => some value
  | _ => none

/-- The text of a fault, if its message can be made with `limit` levels left. -/
def DescriptorFault.told? (limit : Nat) (fault : DescriptorFault) : Option String :=
  Json.told? limit fault.shown? fault.message

/-- Why a value or a text is no plan. -/
inductive ImportFault where
  | unreadable (fault : Json.ReadFault)
  | notPlan
  | unsupportedVersion (value : Json)
  | nodesNotList
  | positionsNotObject
  | noNodes
  | descriptorNotObject (index : Nat)
  | descriptorWithoutId (index : Nat)
  | unknownType (id : String) (tag : Json)
  | firstNotEntry (tag : Json)
  | descriptor (id : String) (fault : DescriptorFault)
  | duplicateNode (id : String)
deriving DecidableEq, Repr

def ImportFault.reason : ImportFault → String
  | unreadable fault => "not valid JSON (" ++ fault.message ++ ")"
  | notPlan => "expected a list of nodes or an object with a 'nodes' list"
  | unsupportedVersion value => "unsupported schema version " ++ value.literal
  | nodesNotList => "'nodes' must be a list"
  | positionsNotObject => "'positions' must be an object"
  | noNodes => "flow has no nodes"
  | descriptorNotObject index => "node #" ++ toString index ++ " is not an object"
  | descriptorWithoutId index => "node #" ++ toString index ++ " is missing an 'id'"
  | unknownType id tag => "node '" ++ id ++ "' has unknown type " ++ tag.literal
  | firstNotEntry tag => "first node must be an ACTION or CONDITION, got " ++ tag.bare
  | descriptor id fault => "node '" ++ id ++ "': " ++ fault.message
  | duplicateNode id => "duplicate node id '" ++ id ++ "'"

def ImportFault.message (fault : ImportFault) : String := "Invalid import: " ++ fault.reason

inductive ImportError where
  | invalid (fault : ImportFault)
  | coordinateTooLarge
deriving DecidableEq, Repr

def ImportError.message : ImportError → String
  | invalid fault => fault.message
  | coordinateTooLarge => "int too large to convert to float"

/-- How an import is seen to fail. Only an invalid plan is reported as one. -/
inductive ImportFailure where
  | invalid (reason : String)
  | coordinateTooLarge
  | integerTooLong
  | tooDeep
deriving DecidableEq, Repr

/-- The failure with a reason that shows a value on its own. -/
def ImportFailure.showing (limit : Nat) (value : Json) (reason : String) : ImportFailure :=
  match value.printFault? limit with
  | none => .invalid reason
  | some .integerTooLong => .integerTooLong
  | some .tooDeep => .tooDeep

/-- What becomes of a fault when its message is made with `limit` levels left. Inside a descriptor
even the integer that is too long is reported, as what is wrong with the descriptor. -/
def ImportFault.failure (limit : Nat) : ImportFault → ImportFailure
  | unreadable (.tooDeep _) => .tooDeep
  | unsupportedVersion value => .showing limit value (unsupportedVersion value).reason
  | unknownType id tag => .showing limit tag (unknownType id tag).reason
  | descriptor id fault =>
    match fault.told? limit with
    | some text => .invalid ("node '" ++ id ++ "': " ++ text)
    | none => .tooDeep
  | fault => .invalid fault.reason

def ImportError.failure (limit : Nat) : ImportError → ImportFailure
  | invalid fault => fault.failure limit
  | coordinateTooLarge => .coordinateTooLarge

end OutreachFlow
