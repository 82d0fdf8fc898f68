import OutreachFlow.Import.Source
import OutreachFlow.Layout
import OutreachFlow.Graph.Basic

/-! A flow while it is being imported. Descriptors are added in order; each brings a primary
node, and a condition brings one check node for each of its branches, under an id made from its
own id and the branch's index. Whatever an id names already may not be added again, while a
next step may name any node, also one still to come or none at all. -/
namespace OutreachFlow

/-- What stands between the id of a condition and the index of one of its branches. -/
def checkIdSeparator : String := "-check-"

/-- The id of the check that guards a branch of a condition. -/
def checkNodeId (condition : String) (index : Nat) : String :=
  condition ++ checkIdSeparator ++ toString index

structure Draft where
  nodes : List Node
  edges : List Edge

namespace Draft

def empty : Draft := ⟨[], []⟩

def has (draft : Draft) (id : String) : Bool := draft.nodes.any fun node => node.id = id

def add (draft : Draft) (node : Node) : Except ImportError Draft :=
  if draft.has node.id then .error (.invalid (.duplicateNode node.id))
  else .ok { draft with nodes := draft.nodes ++ [node] }

/-- The id of an edge: its place in the list keeps it apart from every other. -/
def edgeId (place : Nat) (source target : String) : String :=
  "edge-" ++ toString place ++ "-" ++ source ++ "-" ++ target

def link (draft : Draft) (source target : String) : Draft :=
  { draft with
    edges := draft.edges ++
      [Edge.plain (edgeId draft.edges.length source target) source target] }

def linkNext (draft : Draft) (source : String) : Option String → Draft
  | some target => draft.link source target
  | none => draft

end Draft

/-- The position saved for a node: an object with two numbers. -/
def savedPosition? (saved : Fields) (id : String) : Option Position :=
  match saved.valueOf id with
  | .obj fields =>
    let x := Fields.valueOf fields "x"
    let y := Fields.valueOf fields "y"
    if x.isNumeric ∧ y.isNumeric then some ⟨x, y⟩ else none
  | _ => none

/-- The position of a primary node: the saved one, else the place of its slot. -/
def primaryPosition (saved : Fields) (id : String) (slot : Nat) : Position :=
  (savedPosition? saved id).getD (Layout.primary slot)

/-- The position of a branch's check: the saved one, else its place beside the condition. -/
def childPosition (saved : Fields) (id : String) (parent : Position) (index : Nat) :
    Except ImportError Position :=
  match savedPosition? saved id, Layout.child? parent index with
  | some position, _ => .ok position
  | none, some position => .ok position
  | none, none => .error .coordinateTooLarge

namespace Draft

/-- Attaches the id of the descriptor to a fault inside it. -/
def within {α : Type} (id : String) (part : Except DescriptorFault α) : Except ImportError α :=
  part.mapError fun fault => .invalid (.descriptor id fault)

def addAction (saved : Fields) (slot : Nat) (id : String) (descriptor : Fields) (draft : Draft) :
    Except ImportError Draft := do
  let step ← within id (Source.actionStep descriptor)
  let next ← within id (Source.actionNext descriptor)
  let draft ← draft.add ⟨id, .action step, primaryPosition saved id slot⟩
  return draft.linkNext id next

/-- Adds the check of one branch of the condition under `id`. -/
def addBranch (saved : Fields) (id : String) (parent : Position) (index : Nat) (branch : Json)
    (draft : Draft) : Except ImportError Draft := do
  let .obj fields := branch | within id (.error (.branchNotObject index))
  let check := checkNodeId id index
  let checks ← within id (Source.branchChecks fields)
  let position ← childPosition saved check parent index
  let draft ← draft.add ⟨check, .conditionCheck checks, position⟩
  let next ← within id (Source.nextStep fields)
  return (draft.link id check).linkNext check next

def addBranches (saved : Fields) (id : String) (parent : Position) :
    Nat → List Json → Draft → Except ImportError Draft
  | _, [], draft => .ok draft
  | index, branch :: rest, draft => do
    let draft ← draft.addBranch saved id parent index branch
    addBranches saved id parent (index + 1) rest draft

def addCondition (saved : Fields) (slot : Nat) (id : String) (descriptor : Fields) (draft : Draft) :
    Except ImportError Draft := do
  let branches ← within id (Source.branches descriptor)
  let position := primaryPosition saved id slot
  let draft ← draft.add ⟨id, .condition, position⟩
  draft.addBranches saved id position 0 branches

def addStandaloneCheck (saved : Fields) (slot : Nat) (id : String) (descriptor : Fields)
    (draft : Draft) : Except ImportError Draft := do
  let checks ← within id (Source.standaloneChecks descriptor)
  let draft ← draft.add ⟨id, .conditionCheck checks, primaryPosition saved id slot⟩
  let next ← within id (Source.nextStep descriptor)
  return draft.linkNext id next

/-- Reads the descriptor in a slot and adds what it describes. Only an action or a condition
may come first. -/
def addDescriptor (saved : Fields) (slot : Nat) (value : Json) (draft : Draft) :
    Except ImportError Draft := do
  let .obj fields := value | .error (.invalid (.descriptorNotObject slot))
  let some id := Node.idOf? fields | .error (.invalid (.descriptorWithoutId slot))
  let tag := Fields.valueOf fields "type"
  match NodeKind.ofTagValue? tag with
  | none => .error (.invalid (.unknownType id tag))
  | some .action => draft.addAction saved slot id fields
  | some .condition => draft.addCondition saved slot id fields
  | some .conditionCheck =>
    if slot = 0 then .error (.invalid (.firstNotEntry tag))
    else draft.addStandaloneCheck saved slot id fields

def addDescriptors (saved : Fields) : Nat → List Json → Draft → Except ImportError Draft
  | _, [], draft => .ok draft
  | slot, value :: rest, draft => do
    let draft ← draft.addDescriptor saved slot value
    addDescriptors saved (slot + 1) rest draft

end Draft

end OutreachFlow
