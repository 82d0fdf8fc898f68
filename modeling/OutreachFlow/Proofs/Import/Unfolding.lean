import Mathlib.Data.List.Nodup
import Mathlib.Data.List.Perm.Basic
import OutreachFlow.Proofs.Import.DerivedIds
import OutreachFlow.Import.Flow

/-! What descriptors unfold to. Every descriptor gives one primary node, every branch of a
condition one check more, and the next steps and branches give the links between them. Nothing
here reads documents: the descriptors are known, and only saved positions are looked up. -/
namespace OutreachFlow

/-! Places -/

/-- The place of a branch's check. The origin stands in where there is none. -/
def branchPosition (saved : Fields) (condition : String) (parent : Position) (index : Nat) :
    Position :=
  (savedPosition? saved (checkNodeId condition index)).getD
    ((Layout.child? parent index).getD Position.origin)

/-- A branch's check has a place: a saved one, or one beside its condition. -/
def BranchPlaced (saved : Fields) (condition : String) (parent : Position) (index : Nat) : Prop :=
  (savedPosition? saved (checkNodeId condition index)).isSome ∨
    (Layout.child? parent index).isSome

theorem childPosition_eq_ok {saved : Fields} {condition : String} {parent position : Position}
    {index : Nat} :
    childPosition saved (checkNodeId condition index) parent index = .ok position ↔
      BranchPlaced saved condition parent index ∧
        branchPosition saved condition parent index = position := by
  unfold childPosition BranchPlaced branchPosition
  cases savedPosition? saved (checkNodeId condition index) with
  | some position => simp
  | none => cases Layout.child? parent index <;> simp

/-! Descriptors -/

namespace Branch

def node (saved : Fields) (condition : String) (parent : Position) (index : Nat)
    (branch : Branch) : Node :=
  ⟨checkNodeId condition index, .conditionCheck branch.checks,
    branchPosition saved condition parent index⟩

/-- The link from the condition to the branch's check, and the one to the step behind it. -/
def links (condition : String) (index : Nat) (branch : Branch) : List (String × String) :=
  (condition, checkNodeId condition index) ::
    branch.next.toList.map fun next => (checkNodeId condition index, next)

end Branch

namespace Descriptor

def payload : Descriptor → Payload
  | action _ step _ => .action step
  | condition .. => .condition
  | conditionCheck _ checks _ => .conditionCheck checks

def branches : Descriptor → List Branch
  | condition _ branches => branches
  | _ => []

/-- The step behind the primary node; a condition has steps behind its branches only. -/
def next : Descriptor → Option String
  | action _ _ next | conditionCheck _ _ next => next
  | condition .. => none

theorem payload_kind (descriptor : Descriptor) : descriptor.payload.kind = descriptor.kind := by
  cases descriptor <;> rfl

def primary (saved : Fields) (slot : Nat) (descriptor : Descriptor) : Node :=
  ⟨descriptor.id, descriptor.payload, primaryPosition saved descriptor.id slot⟩

def branchNodes (saved : Fields) (slot : Nat) (descriptor : Descriptor) : List Node :=
  descriptor.branches.zipIdx.map fun entry =>
    entry.1.node saved descriptor.id (primaryPosition saved descriptor.id slot) entry.2

def nodes (saved : Fields) (slot : Nat) (descriptor : Descriptor) : List Node :=
  descriptor.primary saved slot :: descriptor.branchNodes saved slot

/-- The ids of the checks that guard the branches. -/
def branchIds (descriptor : Descriptor) : List String :=
  descriptor.branches.zipIdx.map fun entry => checkNodeId descriptor.id entry.2

def nodeIds (descriptor : Descriptor) : List String := descriptor.id :: descriptor.branchIds

def links (descriptor : Descriptor) : List (String × String) :=
  (descriptor.next.toList.map fun next => (descriptor.id, next)) ++
    descriptor.branches.zipIdx.flatMap fun entry => entry.1.links descriptor.id entry.2

/-- All branches have a place. -/
def Placed (saved : Fields) (slot : Nat) (descriptor : Descriptor) : Prop :=
  ∀ entry ∈ descriptor.branches.zipIdx,
    BranchPlaced saved descriptor.id (primaryPosition saved descriptor.id slot) entry.2

theorem branchNodes_ids (saved : Fields) (slot : Nat) (descriptor : Descriptor) :
    (descriptor.branchNodes saved slot).map Node.id = descriptor.branchIds := by
  simp [branchNodes, branchIds, Branch.node]

theorem nodes_ids (saved : Fields) (slot : Nat) (descriptor : Descriptor) :
    (descriptor.nodes saved slot).map Node.id = descriptor.nodeIds := by
  rw [nodes, List.map_cons, branchNodes_ids]
  rfl

theorem branchIds_eq (descriptor : Descriptor) :
    descriptor.branchIds =
      (List.range descriptor.branches.length).map (checkNodeId descriptor.id) := by
  rw [List.range_eq_range', ← List.zipIdx_map_snd 0 descriptor.branches, List.map_map]
  rfl

theorem mem_branchIds {descriptor : Descriptor} {id : String} :
    id ∈ descriptor.branchIds ↔
      ∃ index < descriptor.branches.length, checkNodeId descriptor.id index = id := by
  simp [branchIds_eq]

theorem branchIds_nodup (descriptor : Descriptor) : descriptor.branchIds.Nodup := by
  rw [branchIds_eq]
  exact List.nodup_range.map fun _ _ same => (checkNodeId_inj.mp same).2

/-- A link starts at a node of its descriptor. -/
theorem source_mem_nodeIds {descriptor : Descriptor} {link : String × String}
    (member : link ∈ descriptor.links) : link.1 ∈ descriptor.nodeIds := by
  rw [links, List.mem_append, List.mem_map, List.mem_flatMap] at member
  rcases member with ⟨next, _, rfl⟩ | ⟨entry, branch, member⟩
  · exact List.mem_cons_self
  · rw [Branch.links, List.mem_cons, List.mem_map] at member
    rcases member with rfl | ⟨next, _, rfl⟩
    · exact List.mem_cons_self
    · exact List.mem_cons_of_mem _ (List.mem_map.mpr ⟨entry, branch, rfl⟩)

end Descriptor

/-! Drafts -/

/-- Edges made from links, the first of them at a place. -/
def numbered (place : Nat) (links : List (String × String)) : List Edge :=
  (links.zipIdx place).map fun entry =>
    Edge.plain (Draft.edgeId entry.2 entry.1.1 entry.1.2) entry.1.1 entry.1.2

theorem numbered_append (place : Nat) (links more : List (String × String)) :
    numbered place (links ++ more) =
      numbered place links ++ numbered (place + links.length) more := by
  simp [numbered, List.zipIdx_append]

theorem numbered_length (place : Nat) (links : List (String × String)) :
    (numbered place links).length = links.length := by
  simp [numbered]

namespace Draft

/-- A draft with further nodes and links. -/
def extend (draft : Draft) (nodes : List Node) (links : List (String × String)) : Draft :=
  ⟨draft.nodes ++ nodes, draft.edges ++ numbered draft.edges.length links⟩

/-- Nodes may be added: no id comes twice among them, nor one that is known already. -/
def Admits (draft : Draft) (nodes : List Node) : Prop :=
  (nodes.map Node.id).Nodup ∧ ∀ node ∈ nodes, draft.has node.id = false

theorem extend_nil (draft : Draft) : draft.extend [] [] = draft := by
  simp [extend, numbered]

theorem extend_extend (draft : Draft) (nodes more : List Node)
    (links further : List (String × String)) :
    (draft.extend nodes links).extend more further =
      draft.extend (nodes ++ more) (links ++ further) := by
  simp [extend, numbered_append, numbered_length]

theorem link_eq_extend (draft : Draft) (source target : String) :
    draft.link source target = draft.extend [] [(source, target)] := by
  simp [link, extend, numbered]

theorem linkNext_eq_extend (draft : Draft) (source : String) (next : Option String) :
    draft.linkNext source next =
      draft.extend [] (next.toList.map fun target => (source, target)) := by
  cases next with
  | none => simp [linkNext, extend_nil]
  | some target => simp [linkNext, link_eq_extend]

theorem has_iff {draft : Draft} {id : String} :
    draft.has id = true ↔ id ∈ draft.nodes.map Node.id := by
  simp [has]

theorem admits_singleton {draft : Draft} {node : Node} :
    draft.Admits [node] ↔ draft.has node.id = false := by
  simp [Admits]

theorem admits_append {draft : Draft} {nodes more : List Node}
    (links : List (String × String)) :
    draft.Admits (nodes ++ more) ↔
      draft.Admits nodes ∧ (draft.extend nodes links).Admits more := by
  have fresh (id : String) : (draft.extend nodes links).has id = false ↔
      draft.has id = false ∧ ∀ node ∈ nodes, node.id ≠ id := by
    simp [has, extend]
  simp only [Admits, List.map_append, List.nodup_append, List.forall_mem_append,
    List.forall_mem_map, fresh]
  constructor
  · rintro ⟨⟨distinct, others, apart⟩, known, unknown⟩
    exact ⟨⟨distinct, known⟩, others, fun node member =>
      ⟨unknown node member, fun other earlier => apart other earlier node member⟩⟩
  · rintro ⟨⟨distinct, known⟩, others, unknown⟩
    exact ⟨⟨distinct, others, fun other earlier node member => (unknown node member).2 other earlier⟩,
      known, fun node member => (unknown node member).1⟩

theorem add_eq_ok {draft after : Draft} {node : Node} :
    draft.add node = .ok after ↔ draft.Admits [node] ∧ draft.extend [node] [] = after := by
  rw [admits_singleton, add]
  cases draft.has node.id <;> simp [extend, numbered]

end Draft

/-! Whole plans -/

def unfoldedNodes (saved : Fields) (slot : Nat) (descriptors : List Descriptor) : List Node :=
  (descriptors.zipIdx slot).flatMap fun entry => entry.1.nodes saved entry.2

def unfoldedLinks (descriptors : List Descriptor) : List (String × String) :=
  descriptors.flatMap Descriptor.links

def unfoldedIds (descriptors : List Descriptor) : List String :=
  descriptors.flatMap Descriptor.nodeIds

/-- What nodes have in every slot, they have wherever their descriptors come. -/
theorem unfoldedNodes_map {β : Type} {saved : Fields} {view : Node → β} {views : Descriptor → List β}
    (same : ∀ slot descriptor, (descriptor.nodes saved slot).map view = views descriptor) (slot : Nat)
    (descriptors : List Descriptor) :
    (unfoldedNodes saved slot descriptors).map view = descriptors.flatMap views := by
  simp only [unfoldedNodes, List.map_flatMap, same]
  conv_rhs => rw [← List.zipIdx_map_fst slot descriptors, List.flatMap_map]

theorem unfoldedNodes_ids (saved : Fields) (slot : Nat) (descriptors : List Descriptor) :
    (unfoldedNodes saved slot descriptors).map Node.id = unfoldedIds descriptors :=
  unfoldedNodes_map (Descriptor.nodes_ids saved) slot descriptors

/-- Ids that are made up for different branches differ, so only the descriptors' own ids can be in
their way. -/
theorem unfoldedIds_nodup {descriptors : List Descriptor}
    (distinct : (descriptors.map Descriptor.id).Nodup) :
    (unfoldedIds descriptors).Nodup ↔
      ∀ descriptor ∈ descriptors, ∀ id ∈ descriptor.branchIds,
        id ∉ descriptors.map Descriptor.id := by
  have parts : (descriptors.map Descriptor.id ++ descriptors.flatMap Descriptor.branchIds).Perm
      (unfoldedIds descriptors) := List.map_append_flatMap_perm descriptors _ _
  have made : (descriptors.flatMap Descriptor.branchIds).Nodup := by
    refine List.nodup_flatMap.mpr ⟨fun descriptor _ => descriptor.branchIds_nodup, ?_⟩
    refine (List.pairwise_map.mp distinct).imp fun {a b} apart id inside inside' => ?_
    obtain ⟨_, _, rfl⟩ := Descriptor.mem_branchIds.mp inside
    obtain ⟨_, _, same⟩ := Descriptor.mem_branchIds.mp inside'
    exact apart (checkNodeId_inj.mp same).1.symm
  rw [← parts.nodup_iff, List.nodup_append']
  constructor
  · rintro ⟨_, _, disjoint⟩ descriptor member id inside own
    exact disjoint own (List.mem_flatMap.mpr ⟨descriptor, member, inside⟩)
  · intro free
    refine ⟨distinct, made, ?_⟩
    intro id own inside
    obtain ⟨descriptor, member, inside⟩ := List.mem_flatMap.mp inside
    exact free descriptor member id inside own

/-- The flow that descriptors unfold to. Its entry is the first of them. -/
def Flow.unfold (saved : Fields) (descriptors : List Descriptor) : Flow :=
  ofDraft (Draft.empty.extend (unfoldedNodes saved 0 descriptors) (unfoldedLinks descriptors))
    ((descriptors.head?.map Descriptor.id).getD "")

/-- What descriptors must meet to be a flow: the first may start it, no id comes twice, made-up
ids included, and every branch has a place. -/
structure Unfoldable (saved : Fields) (descriptors : List Descriptor) : Prop where
  start : ∃ first ∈ descriptors.head?, first.kind ≠ .conditionCheck
  distinct : (unfoldedIds descriptors).Nodup
  placed : ∀ entry ∈ descriptors.zipIdx, entry.1.Placed saved entry.2

theorem Unfoldable.eq_cons {saved : Fields} {descriptors : List Descriptor}
    (unfoldable : Unfoldable saved descriptors) :
    ∃ first rest, descriptors = first :: rest ∧ first.kind ≠ .conditionCheck := by
  obtain ⟨first, leads, kind⟩ := unfoldable.start
  obtain ⟨rest, rfl⟩ := List.head?_eq_some_iff.mp leads
  exact ⟨first, rest, rfl, kind⟩

end OutreachFlow
