import OutreachFlow.Proofs.Plan.WrittenForm
import OutreachFlow.Proofs.Plan.Refolding

/-! Descriptors without stray next steps, those that name the entry or no node at all. Dropping them
touches no node and no branch: exactly the other links are left. So an imported flow without its
stray edges has the nodes and the links of a flow that never had any, and compiling, which asks for
nothing else, cannot tell them apart. -/
namespace OutreachFlow

/-! Dropping next steps -/

section Dropped

variable (keep : String → Bool)

/-- The branch with its next step only if that is to be kept. -/
def Branch.pruned (branch : Branch) : Branch := { branch with next := branch.next.filter keep }

/-- The descriptor with only those next steps that are to be kept. -/
def Descriptor.pruned : Descriptor → Descriptor
  | .action id step next => .action id step (next.filter keep)
  | .condition id branches => .condition id (branches.map (Branch.pruned keep))
  | .conditionCheck id checks next => .conditionCheck id checks (next.filter keep)

variable {keep}

theorem links_of_filter (source : String) (next : Option String) :
    ((next.filter keep).toList.map fun target => (source, target)) =
      (next.toList.map fun target => (source, target)).filter fun link => keep link.2 := by
  cases next with
  | none => rfl
  | some target => cases kept : keep target <;> simp [kept]

theorem Branch.links_pruned {condition : String} {index : Nat} (branch : Branch)
    (kept : keep (checkNodeId condition index) = true) :
    (branch.pruned keep).links condition index =
      (branch.links condition index).filter fun link => keep link.2 := by
  rw [links, links, List.filter_cons, if_pos kept, ← links_of_filter]
  rfl

namespace Descriptor

variable {descriptor : Descriptor}

@[simp]
theorem pruned_id : (descriptor.pruned keep).id = descriptor.id := by
  cases descriptor <;> rfl

@[simp]
theorem pruned_kind : (descriptor.pruned keep).kind = descriptor.kind := by
  cases descriptor <;> rfl

@[simp]
theorem pruned_payload : (descriptor.pruned keep).payload = descriptor.payload := by
  cases descriptor <;> rfl

@[simp]
theorem pruned_next : (descriptor.pruned keep).next = descriptor.next.filter keep := by
  cases descriptor <;> rfl

@[simp]
theorem pruned_branches :
    (descriptor.pruned keep).branches = descriptor.branches.map (Branch.pruned keep) := by
  cases descriptor <;> rfl

@[simp]
theorem pruned_branchIds : (descriptor.pruned keep).branchIds = descriptor.branchIds := by
  simp [branchIds_eq]

@[simp]
theorem pruned_nodeIds : (descriptor.pruned keep).nodeIds = descriptor.nodeIds := by
  simp [nodeIds]

theorem pruned_nodes (saved : Fields) (slot : Nat) :
    (descriptor.pruned keep).nodes saved slot = descriptor.nodes saved slot := by
  have guards : (descriptor.pruned keep).branchNodes saved slot = descriptor.branchNodes saved slot := by
    simp [branchNodes, List.zipIdx_map, Branch.node, Branch.pruned]
  rw [nodes, nodes, guards]
  simp [primary]

theorem placed_pruned {saved : Fields} {slot : Nat} (placed : descriptor.Placed saved slot) :
    (descriptor.pruned keep).Placed saved slot := by
  intro entry inside
  rw [pruned_branches, List.zipIdx_map] at inside
  obtain ⟨original, branch, rfl⟩ := List.mem_map.mp inside
  rw [pruned_id]
  exact placed original branch

theorem links_pruned (kept : ∀ id ∈ descriptor.branchIds, keep id = true) :
    (descriptor.pruned keep).links = descriptor.links.filter fun link => keep link.2 := by
  have behind : (descriptor.branches.zipIdx.flatMap fun entry =>
      (entry.1.pruned keep).links descriptor.id entry.2) =
        descriptor.branches.zipIdx.flatMap fun entry =>
          (entry.1.links descriptor.id entry.2).filter fun link => keep link.2 := by
    apply List.flatMap_congr
    intro entry inside
    exact entry.1.links_pruned (kept _ (List.mem_map.mpr ⟨entry, inside, rfl⟩))
  rw [links, links, List.filter_append, List.filter_flatMap, ← behind, ← links_of_filter]
  simp [List.zipIdx_map, List.flatMap_map]

theorem named_pruned (named : descriptor.Named) : (descriptor.pruned keep).Named := by
  have fewer {next : Option String} (nonempty : next ≠ some "") : next.filter keep ≠ some "" := by
    cases next with
    | none => simp
    | some target => cases kept : keep target <;> simp_all
  refine ⟨by simpa using named.id, by simpa using fewer named.next, ?_⟩
  intro branch inside
  rw [pruned_branches] at inside
  obtain ⟨original, member, rfl⟩ := List.mem_map.mp inside
  exact fewer (named.branches original member)

end Descriptor

end Dropped

/-! Whole lists -/

/-- A next step may lead there: to a node of the plan that is not its entry. -/
def mayFollow (descriptors : List Descriptor) (next : String) : Bool :=
  next ∈ unfoldedIds descriptors ∧ descriptors.head?.map Descriptor.id ≠ some next

/-- Descriptors without the next steps that lead into the entry or to no node. -/
def tidied (descriptors : List Descriptor) : List Descriptor :=
  descriptors.map (Descriptor.pruned (mayFollow descriptors))

section Tidied

variable {saved : Fields} {descriptors : List Descriptor}

theorem tidied_ids : unfoldedIds (tidied descriptors) = unfoldedIds descriptors := by
  simp [unfoldedIds, tidied, List.flatMap_map]

theorem tidied_head :
    (tidied descriptors).head?.map Descriptor.id = descriptors.head?.map Descriptor.id := by
  simp [tidied, Function.comp_def]

theorem mayFollow_tidied : mayFollow (tidied descriptors) = mayFollow descriptors := by
  funext next
  rw [mayFollow, mayFollow, tidied_ids, tidied_head]

theorem tidied_nodes (saved : Fields) (slot : Nat) :
    unfoldedNodes saved slot (tidied descriptors) = unfoldedNodes saved slot descriptors := by
  simp [unfoldedNodes, tidied, List.zipIdx_map, List.flatMap_map, Descriptor.pruned_nodes]

/-- Made-up ids belong to branches, never to the entry. -/
theorem mayFollow_branch (distinct : (unfoldedIds descriptors).Nodup) {descriptor : Descriptor}
    (member : descriptor ∈ descriptors) {id : String} (inside : id ∈ descriptor.branchIds) :
    mayFollow descriptors id = true := by
  have known : id ∈ unfoldedIds descriptors :=
    List.mem_flatMap.mpr ⟨descriptor, member, List.mem_cons_of_mem _ inside⟩
  refine decide_eq_true ⟨known, ?_⟩
  intro leads
  obtain ⟨first, head, rfl⟩ := Option.map_eq_some_iff.mp leads
  obtain rfl := owner_unique distinct (List.mem_of_mem_head? head) member List.mem_cons_self
    (List.mem_cons_of_mem _ inside)
  obtain ⟨index, _, same⟩ := Descriptor.mem_branchIds.mp inside
  exact checkNodeId_ne_self _ _ same

theorem tidied_links (distinct : (unfoldedIds descriptors).Nodup) :
    unfoldedLinks (tidied descriptors) =
      (unfoldedLinks descriptors).filter fun link => mayFollow descriptors link.2 := by
  rw [unfoldedLinks, unfoldedLinks, tidied, List.flatMap_map, List.filter_flatMap]
  apply List.flatMap_congr
  intro descriptor member
  exact Descriptor.links_pruned fun id inside => mayFollow_branch distinct member inside

theorem Unfoldable.tidied (unfoldable : Unfoldable saved descriptors) :
    Unfoldable saved (tidied descriptors) := by
  refine ⟨?_, ?_, ?_⟩
  · obtain ⟨first, leads, kind⟩ := unfoldable.start
    refine ⟨first.pruned (mayFollow descriptors), ?_, by simpa using kind⟩
    rw [OutreachFlow.tidied, List.head?_map, Option.mem_def.mp leads]
    rfl
  · rw [tidied_ids]
    exact unfoldable.distinct
  · intro entry inside
    rw [OutreachFlow.tidied, List.zipIdx_map] at inside
    obtain ⟨original, slotted, rfl⟩ := List.mem_map.mp inside
    exact Descriptor.placed_pruned (unfoldable.placed original slotted)

end Tidied

end OutreachFlow
