import OutreachFlow.Import.Draft
import OutreachFlow.Plan.Basic

/-! Importing a plan: from the written form back to a flow that an editor can show. Accepted are
an object with a version, a list of descriptors and saved positions, and a bare list of
descriptors. Import is all or nothing; next steps that name no node are kept as edges and
reported. -/
namespace OutreachFlow

/-- A next step that names no node of the flow. -/
structure Warning where
  node : String
  nextStep : String
deriving DecidableEq, Repr

def Warning.message (warning : Warning) : String :=
  "Node '" ++ warning.node ++ "' references unknown next step '" ++ warning.nextStep ++ "'"

/-- An imported flow. The entry is its first descriptor. -/
structure Flow where
  nodes : List Node
  edges : List Edge
  entry : String
  warnings : List Warning
deriving DecidableEq, Repr

namespace Flow

def toGraph (flow : Flow) : Graph := ⟨flow.nodes, flow.edges⟩

/-- The version field admits every number that equals the version, a truth value included. -/
def isSupported (version : Json) : Bool :=
  version.asNumber?.any fun number => number.sameValue (.int Plan.version)

/-- The descriptors and the saved positions of a written plan. -/
def unwrap : Json → Except ImportFault (List Json × Fields)
  | .arr descriptors => .ok (descriptors, [])
  | .obj fields => do
    let some nodes := Fields.get? fields "nodes" | .error .notPlan
    let version := (Fields.get? fields "version").getD (.int Plan.version)
    if !isSupported version then .error (.unsupportedVersion version)
    let .arr descriptors := nodes | .error .nodesNotList
    match Fields.valueOf fields "positions" with
    | .null => return (descriptors, [])
    | .obj saved => return (descriptors, saved)
    | _ => .error .positionsNotObject
  | _ => .error .notPlan

/-- The edges of a draft whose target it does not have. -/
def danglingEdges (draft : Draft) : List Edge :=
  draft.edges.filter fun edge => !draft.has edge.target

def ofDraft (draft : Draft) (entry : String) : Flow where
  nodes := draft.nodes
  edges := draft.edges
  entry := entry
  warnings := (danglingEdges draft).map fun edge => ⟨edge.source, edge.target⟩

def ofJson (form : Json) : Except ImportError Flow := do
  let (descriptors, saved) ← (unwrap form).mapError .invalid
  let draft ← Draft.empty.addDescriptors saved 0 descriptors
  match draft.nodes with
  | [] => .error (.invalid .noNodes)
  | first :: _ => return ofDraft draft first.id

/-- Imports what a text is read as, if it is read. -/
def ofRead (form : Except Json.ReadFault Json) : Except ImportError Flow := do
  let form ← form.mapError fun fault => .invalid (.unreadable fault)
  ofJson form

def ofText (limit : Nat) (text : String) : Except ImportError Flow :=
  ofRead (Json.ofText limit text)

def ofBytes (limit : Nat) (bytes : List UInt8) : Except ImportError Flow :=
  ofRead (Json.ofBytes limit bytes)

end Flow

end OutreachFlow
