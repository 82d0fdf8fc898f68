import OutreachFlow.Proofs.Plan.Places
import OutreachFlow.Proofs.Plan.Refolding

/-! What compiling gives on any graph: one descriptor for every node that stands on its own, that
is for all but the checks that a condition leads to. From this follows when the compiled plan can
be imported. -/
namespace OutreachFlow

namespace Graph

variable {graph : Graph} {node : Node} {entry : String}

/-- Whether a node has a descriptor of its own. -/
def stands (graph : Graph) (node : Node) : Bool :=
  node.kind ≠ .conditionCheck || !graph.isOwned node.id

/-- The descriptor of a node that stands on its own. -/
def descriptorOf (graph : Graph) (node : Node) : Descriptor :=
  match node.payload with
  | .action step => .action node.id step (graph.nextStep? node.id)
  | .condition => .condition node.id (graph.branches node.id)
  | .conditionCheck checks => .conditionCheck node.id checks (graph.nextStep? node.id)

theorem descriptor?_eq (graph : Graph) (node : Node) :
    graph.descriptor? node =
      if graph.stands node then some (graph.descriptorOf node) else none := by
  unfold descriptor? descriptorOf stands Node.kind
  cases node.payload with
  | conditionCheck checks => cases graph.isOwned node.id <;> simp [Payload.kind]
  | _ => simp [Payload.kind]

@[simp]
theorem descriptorOf_id (graph : Graph) (node : Node) : (graph.descriptorOf node).id = node.id := by
  unfold descriptorOf
  cases node.payload <;> rfl

@[simp]
theorem descriptorOf_payload (graph : Graph) (node : Node) :
    (graph.descriptorOf node).payload = node.payload := by
  unfold descriptorOf
  cases node.payload <;> rfl

@[simp]
theorem descriptorOf_kind (graph : Graph) (node : Node) :
    (graph.descriptorOf node).kind = node.kind := by
  rw [← Descriptor.payload_kind, descriptorOf_payload, Node.kind]

theorem descriptorOf_branches (graph : Graph) (node : Node) :
    (graph.descriptorOf node).branches =
      if node.payload = .condition then graph.branches node.id else [] := by
  unfold descriptorOf
  cases node.payload <;> simp [Descriptor.branches]

theorem descriptorOf_next (graph : Graph) (node : Node) :
    (graph.descriptorOf node).next =
      if node.payload = .condition then none else graph.nextStep? node.id := by
  unfold descriptorOf
  cases node.payload <;> simp [Descriptor.next]

theorem filterMap_descriptor? (graph : Graph) (nodes : List Node) :
    nodes.filterMap graph.descriptor? = (nodes.filter graph.stands).map graph.descriptorOf := by
  rw [← List.filterMap_eq_map', List.filterMap_filter]
  exact List.filterMap_congr fun node _ => graph.descriptor?_eq node

/-- Sorted by kind, the nodes that stand on their own give the descriptors. -/
theorem descriptors_perm (graph : Graph) :
    graph.descriptors.Perm ((graph.nodes.filter graph.stands).map graph.descriptorOf) := by
  let kinds : List NodeKind := [.action, .condition, .conditionCheck]
  have sorted : (kinds.flatMap fun kind => graph.nodes.filter fun node => node.kind = kind).Perm
      graph.nodes :=
    flatMap_filter_perm (by decide) fun node _ => by cases node.kind <;> decide
  have described : graph.descriptors =
      (kinds.flatMap fun kind => graph.nodes.filter fun node => node.kind = kind).filterMap
        graph.descriptor? := by
    simp [kinds, descriptors, descriptorsOfKind, ofKind, List.filterMap_append]
  rw [described, ← filterMap_descriptor?]
  exact sorted.filterMap _

end Graph

/-- Where no id comes twice, the descriptors around one have other ids. -/
theorem ids_apart {front back : List Descriptor} {first : Descriptor}
    (distinct : ((front ++ first :: back).map Descriptor.id).Nodup) :
    ∀ other ∈ front ++ back, other.id ≠ first.id := by
  intro other inside same
  have ids := (List.perm_middle.map Descriptor.id).nodup_iff.mp distinct
  rw [List.map_cons, List.nodup_cons] at ids
  exact ids.1 (List.mem_map.mpr ⟨other, inside, same⟩)

theorem entryFirst_perm (entry : String) (descriptors : List Descriptor) :
    (entryFirst entry descriptors).Perm descriptors := by
  cases found : descriptors.find? fun descriptor => descriptor.id = entry with
  | none => rw [entryFirst, found]
  | some first =>
    obtain ⟨leads, front, back, rfl, skipped⟩ := List.find?_eq_some_iff_append.mp found
    have same : first.id = entry := by simpa using leads
    have fresh : ∀ other ∈ front, other.id ≠ first.id := by simpa [same] using skipped
    rw [← same, entryFirst_append back fresh]
    exact List.perm_middle.symm

theorem entryFirst_leads {descriptors : List Descriptor} {first : Descriptor}
    (distinct : (descriptors.map Descriptor.id).Nodup) (member : first ∈ descriptors) :
    (entryFirst first.id descriptors).head? = some first := by
  have found := (find?_key_eq_some distinct).mpr ⟨member, rfl⟩
  rw [entryFirst, found]
  rfl

namespace Graph

variable {graph : Graph} {node : Node} {entry : String}

theorem compile_perm (graph : Graph) (entry : String) :
    (graph.compile (some entry)).descriptors.Perm
      ((graph.nodes.filter graph.stands).map graph.descriptorOf) :=
  (entryFirst_perm entry _).trans graph.descriptors_perm

theorem mem_compile {descriptor : Descriptor} :
    descriptor ∈ (graph.compile (some entry)).descriptors ↔
      ∃ node ∈ graph.nodes, graph.stands node = true ∧ graph.descriptorOf node = descriptor := by
  rw [(graph.compile_perm entry).mem_iff]
  simp [and_assoc]

theorem mem_compile_ids {id : String} :
    id ∈ (graph.compile (some entry)).descriptors.map Descriptor.id ↔
      ∃ node ∈ graph.nodes, graph.stands node = true ∧ node.id = id := by
  simp only [List.mem_map, mem_compile]
  constructor
  · rintro ⟨_, ⟨node, member, stands, rfl⟩, rfl⟩
    exact ⟨node, member, stands, (descriptorOf_id graph node).symm⟩
  · rintro ⟨node, member, stands, rfl⟩
    exact ⟨_, ⟨node, member, stands, rfl⟩, descriptorOf_id graph node⟩

theorem compile_distinct (unique : graph.UniqueIds) :
    ((graph.compile (some entry)).descriptors.map Descriptor.id).Nodup := by
  rw [((graph.compile_perm entry).map Descriptor.id).nodup_iff, List.map_map]
  have ids : Descriptor.id ∘ graph.descriptorOf = Node.id := funext graph.descriptorOf_id
  rw [ids]
  exact unique.sublist (List.filter_sublist.map Node.id)

theorem stands_iff :
    graph.stands node = true ↔ (node.kind = .conditionCheck → graph.isOwned node.id = false) := by
  cases kind : node.kind <;> simp [stands, kind]

theorem stands_of_kind (kind : node.kind ≠ .conditionCheck) : graph.stands node = true := by
  simp [stands, kind]

theorem stands_of_condition (shape : node.payload = .condition) : graph.stands node = true :=
  stands_of_kind (by simp [Node.kind, shape, Payload.kind])

/-- The plan starts with the descriptor of the entry. -/
theorem compile_leads (unique : graph.UniqueIds) (member : node ∈ graph.nodes)
    (stands : graph.stands node = true) :
    (graph.compile (some node.id)).descriptors.head? = some (graph.descriptorOf node) := by
  have distinct : (graph.descriptors.map Descriptor.id).Nodup :=
    ((entryFirst_perm node.id graph.descriptors).map Descriptor.id).nodup_iff.mp
      (compile_distinct unique)
  have inside : graph.descriptorOf node ∈ graph.descriptors :=
    graph.descriptors_perm.mem_iff.mpr
      (List.mem_map_of_mem (List.mem_filter.mpr ⟨member, stands⟩))
  have first := entryFirst_leads distinct inside
  rwa [descriptorOf_id] at first

/-- No node is unnamed, and no edge leads to the empty id. -/
theorem compile_named (named : ∀ node ∈ graph.nodes, node.id ≠ "")
    (targets : ∀ link ∈ graph.links, link.2 ≠ "") {descriptor : Descriptor}
    (member : descriptor ∈ (graph.compile (some entry)).descriptors) : descriptor.Named := by
  obtain ⟨node, inside, _, rfl⟩ := mem_compile.mp member
  have steps (id : String) : graph.nextStep? id ≠ some "" := by
    rw [nextStep?_eq]
    intro empty
    exact targets _ (mem_targets.mp (List.mem_of_mem_head? empty)) rfl
  refine ⟨?_, ?_, ?_⟩
  · rw [descriptorOf_id]
    exact named node inside
  · rw [descriptorOf_next]
    split
    · simp
    · exact steps node.id
  · rw [descriptorOf_branches]
    split
    · intro branch within
      obtain ⟨edge, _, found⟩ := List.mem_filterMap.mp within
      obtain ⟨_, _, rfl⟩ := Option.map_eq_some_iff.mp found
      exact steps edge.target
    · simp

/-! Importing a compiled plan -/

/-- A branch of a condition can be imported: no node that stands on its own has its id, and its
check has a place. -/
structure AdmitsBranch (graph : Graph) (condition : Node) (index : Nat) : Prop where
  free : ∀ node ∈ graph.nodes, graph.stands node = true → node.id ≠ checkNodeId condition.id index
  room : (condition.position.IsNumeric → condition.position.FitsDoubles) ∨
    ∃ node ∈ graph.nodes, node.id = checkNodeId condition.id index ∧ node.position.IsNumeric

theorem mem_branchIds_descriptorOf {id : String} :
    id ∈ (graph.descriptorOf node).branchIds ↔
      node.payload = .condition ∧
        ∃ index < (graph.branches node.id).length, checkNodeId node.id index = id := by
  rw [Descriptor.mem_branchIds, descriptorOf_branches, descriptorOf_id]
  split <;> simp_all

/-- The plan of a graph can be unfolded exactly if all branches of its conditions can be
imported. -/
theorem unfoldable_compile (unique : graph.UniqueIds) (member : node ∈ graph.nodes)
    (kind : node.kind ≠ .conditionCheck) :
    Unfoldable (graph.compile (some node.id)).saved (graph.compile (some node.id)).descriptors ↔
      ∀ condition ∈ graph.nodes, condition.payload = .condition →
        ∀ index < (graph.branches condition.id).length, graph.AdmitsBranch condition index := by
  constructor
  · -- A taken id would come twice in the plan.
    rintro ⟨_, distinct, placed⟩ condition inside shape index bound
    have listed : graph.descriptorOf condition ∈ (graph.compile (some node.id)).descriptors :=
      mem_compile.mpr ⟨condition, inside, stands_of_condition shape, rfl⟩
    constructor
    · intro other inside' stands same
      refine (unfoldedIds_nodup (compile_distinct unique)).mp distinct _ listed
        (checkNodeId condition.id index) (mem_branchIds_descriptorOf.mpr ⟨shape, index, bound, rfl⟩) ?_
      exact mem_compile_ids.mpr ⟨other, inside', stands, same⟩
    · obtain ⟨slot, slotted⟩ := mem_slot listed
      have branches := descriptorOf_branches graph condition
      rw [if_pos shape] at branches
      have branch : ((graph.branches condition.id)[index], index) ∈
          (graph.descriptorOf condition).branches.zipIdx := by
        rw [branches]
        exact List.mem_zipIdx_iff_getElem?.mpr (List.getElem?_eq_getElem bound)
      have place := placed _ slotted _ branch
      rw [descriptorOf_id] at place
      exact (branchPlaced_compile unique inside).mp place
  · intro admits
    refine ⟨⟨_, compile_leads unique member (stands_of_kind kind), by rwa [descriptorOf_kind]⟩, ?_, ?_⟩
    · rw [unfoldedIds_nodup (compile_distinct unique)]
      intro descriptor listed id made own
      obtain ⟨condition, inside, _, rfl⟩ := mem_compile.mp listed
      obtain ⟨shape, index, bound, rfl⟩ := mem_branchIds_descriptorOf.mp made
      obtain ⟨other, inside', stands, same⟩ := mem_compile_ids.mp own
      exact (admits condition inside shape index bound).free other inside' stands same
    · rintro ⟨descriptor, slot⟩ slotted ⟨branch, index⟩ within
      obtain ⟨condition, inside, _, rfl⟩ := mem_compile.mp (List.fst_mem_of_mem_zipIdx slotted)
      have made : checkNodeId (graph.descriptorOf condition).id index ∈
          (graph.descriptorOf condition).branchIds := List.mem_map.mpr ⟨_, within, rfl⟩
      rw [descriptorOf_id] at made ⊢
      obtain ⟨shape, place, bound, same⟩ := mem_branchIds_descriptorOf.mp made
      obtain rfl := (checkNodeId_inj.mp same).2
      exact (branchPlaced_compile unique inside).mpr (admits condition inside shape place bound).room

/-- When the plan of a graph can be imported, as long as nothing in the graph has an empty id. -/
theorem importable_compile (unique : graph.UniqueIds) (named : ∀ node ∈ graph.nodes, node.id ≠ "")
    (targets : ∀ link ∈ graph.links, link.2 ≠ "") (member : node ∈ graph.nodes)
    (kind : node.kind ≠ .conditionCheck) :
    (∃ flow, Flow.ofJson (graph.compile (some node.id)).toJson = .ok flow) ↔
      ∀ condition ∈ graph.nodes, condition.payload = .condition →
        ∀ index < (graph.branches condition.id).length, graph.AdmitsBranch condition index := by
  rw [← unfoldable_compile unique member kind]
  have readable : ∀ descriptor ∈ (graph.compile (some node.id)).descriptors, descriptor.Named :=
    fun _ inside => compile_named named targets inside
  simp only [Flow.ofJson_toJson readable, exists_and_left, exists_eq', and_true]

end Graph

end OutreachFlow
