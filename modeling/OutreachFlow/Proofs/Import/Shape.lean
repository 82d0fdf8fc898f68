import OutreachFlow.Proofs.Plan.Refolding
import OutreachFlow.Rules.Connection

/-! The shape of imported flows. Conditions lead to the checks of their branches and nowhere else,
all other nodes have one next step at most, no two edges join the same nodes, and no two edges
share an id. Where a next step leads is left open. -/
namespace OutreachFlow

/-- No link comes twice if it does not come twice from any one node. -/
theorem Graph.links_nodup_iff (graph : Graph) :
    graph.links.Nodup ↔ ∀ id, (graph.targets id).Nodup := by
  simp only [List.nodup_iff_count_le_one]
  have counted (source target : String) :
      (graph.targets source).count target = graph.links.count (source, target) := by
    rw [targets_eq_links, List.count, List.countP_map, List.countP_filter, List.count]
    apply List.countP_congr
    rintro ⟨first, second⟩ _
    simp [and_comm]
  constructor
  · intro once source target
    rw [counted]
    exact once _
  · rintro once ⟨source, target⟩
    rw [← counted]
    exact once source target

namespace Descriptor

variable {descriptor : Descriptor}

theorem next_of_condition (kind : descriptor.kind = .condition) : descriptor.next = none := by
  cases descriptor with
  | condition => rfl
  | _ => contradiction

theorem branches_of_other (kind : descriptor.kind ≠ .condition) : descriptor.branches = [] := by
  cases descriptor with
  | condition => contradiction
  | _ => rfl

theorem branchIds_of_other (kind : descriptor.kind ≠ .condition) : descriptor.branchIds = [] := by
  rw [branchIds, branches_of_other kind]
  rfl

theorem mem_nodeIds {id : String} :
    id ∈ descriptor.nodeIds ↔
      descriptor.id = id ∨ ∃ entry ∈ descriptor.branches.zipIdx, checkNodeId descriptor.id entry.2 = id := by
  rw [nodeIds, List.mem_cons, branchIds, List.mem_map, eq_comm]

end Descriptor

theorem toList_length_le {α : Type} (value : Option α) : value.toList.length ≤ 1 := by
  cases value <;> simp

section Unfolded

variable {saved : Fields} {descriptors : List Descriptor}

theorem source_mem_unfoldedIds {link : String × String} (member : link ∈ unfoldedLinks descriptors) :
    link.1 ∈ unfoldedIds descriptors := by
  obtain ⟨descriptor, listed, member⟩ := List.mem_flatMap.mp member
  exact List.mem_flatMap.mpr ⟨descriptor, listed, Descriptor.source_mem_nodeIds member⟩

/-- Where the edges of an imported flow lead: those of a descriptor to its next step or to its
branches, those of a branch's check to the next step of the branch. -/
theorem targets_cases (distinct : (unfoldedIds descriptors).Nodup) (id : String) :
    (Flow.unfold saved descriptors).toGraph.targets id = [] ∨
      (∃ descriptor ∈ descriptors, descriptor.id = id ∧
        (Flow.unfold saved descriptors).toGraph.targets id =
          descriptor.next.toList ++ descriptor.branchIds) ∨
      ∃ descriptor ∈ descriptors, ∃ entry ∈ descriptor.branches.zipIdx,
        checkNodeId descriptor.id entry.2 = id ∧
          (Flow.unfold saved descriptors).toGraph.targets id = entry.1.next.toList := by
  by_cases known : id ∈ unfoldedIds descriptors
  · obtain ⟨descriptor, member, inside⟩ := List.mem_flatMap.mp known
    rcases Descriptor.mem_nodeIds.mp inside with rfl | ⟨entry, branch, rfl⟩
    · exact .inr (.inl ⟨descriptor, member, rfl, targets_primary distinct member⟩)
    · exact .inr (.inr ⟨descriptor, member, entry, branch, rfl,
        targets_branch distinct member branch⟩)
  · left
    rw [List.eq_nil_iff_forall_not_mem]
    intro target found
    rw [Graph.mem_targets, unfold_links] at found
    exact known (source_mem_unfoldedIds found)

theorem unfold_links_nodup (distinct : (unfoldedIds descriptors).Nodup) :
    (Flow.unfold saved descriptors).toGraph.links.Nodup := by
  rw [Graph.links_nodup_iff]
  intro id
  rcases targets_cases distinct id with none | ⟨descriptor, _, _, same⟩ | ⟨_, _, entry, _, _, same⟩
  · rw [none]
    exact List.nodup_nil
  · rw [same]
    by_cases kind : descriptor.kind = .condition
    · rw [Descriptor.next_of_condition kind]
      exact descriptor.branchIds_nodup
    · rw [Descriptor.branchIds_of_other kind, List.append_nil]
      cases descriptor.next <;> simp
  · rw [same]
    cases entry.1.next <;> simp

theorem unfold_single (distinct : (unfoldedIds descriptors).Nodup) {node : Node}
    (member : node ∈ (Flow.unfold saved descriptors).toGraph.nodes)
    (kind : node.kind.singleSuccessor = true) :
    ((Flow.unfold saved descriptors).toGraph.targets node.id).length ≤ 1 := by
  rw [Flow.toGraph, unfold_nodes] at member
  obtain ⟨entry, inside, member⟩ := mem_unfoldedNodes.mp member
  have listed := List.fst_mem_of_mem_zipIdx inside
  rcases List.mem_cons.mp member with rfl | branch
  · have other : entry.1.kind ≠ .condition := by
      rintro condition
      have same : (entry.1.primary saved entry.2).kind = entry.1.kind := entry.1.payload_kind
      rw [same, condition] at kind
      contradiction
    have targets : (Flow.unfold saved descriptors).toGraph.targets (entry.1.primary saved entry.2).id =
        entry.1.next.toList ++ entry.1.branchIds := targets_primary distinct listed
    rw [targets, Descriptor.branchIds_of_other other, List.append_nil]
    exact toList_length_le _
  · obtain ⟨place, within, rfl⟩ := Descriptor.mem_branchNodes.mp branch
    have targets : (Flow.unfold saved descriptors).toGraph.targets
        (checkNodeId entry.1.id place.2) = place.1.next.toList := targets_branch distinct listed within
    exact targets ▸ toList_length_le _

/-- The links from a condition are those to its branches. -/
theorem branch_of_link (distinct : (unfoldedIds descriptors).Nodup) {link : String × String}
    (member : link ∈ (Flow.unfold saved descriptors).toGraph.links)
    (condition : (Flow.unfold saved descriptors).toGraph.isCondition link.1 = true) :
    ∃ descriptor ∈ descriptors, link.2 ∈ descriptor.branchIds := by
  obtain ⟨descriptor, listed, same, kind⟩ := isCondition_unfold.mp condition
  have target := Graph.mem_targets.mpr member
  rw [← same, targets_primary distinct listed, Descriptor.next_of_condition kind] at target
  rw [Option.toList_none, List.nil_append] at target
  exact ⟨descriptor, listed, target⟩

/-- Conditions lead to checks, also without the question whether the flow is sound. -/
theorem unfold_branches (distinct : (unfoldedIds descriptors).Nodup) {link : String × String}
    (member : link ∈ (Flow.unfold saved descriptors).toGraph.links)
    (condition : (Flow.unfold saved descriptors).toGraph.isCondition link.1 = true) :
    ∃ node ∈ (Flow.unfold saved descriptors).toGraph.nodes,
      node.id = link.2 ∧ node.kind = .conditionCheck := by
  obtain ⟨descriptor, listed, target⟩ := branch_of_link distinct member condition
  obtain ⟨entry, branch, id⟩ := List.mem_map.mp target
  obtain ⟨slot, inside⟩ := mem_slot listed
  exact ⟨_, node_mem_unfold inside
    (List.mem_cons_of_mem _ (Descriptor.mem_branchNodes.mpr ⟨entry, branch, rfl⟩)), id, rfl⟩

theorem numbered_ids_nodup (place : Nat) (links : List (String × String)) :
    ((numbered place links).map Edge.id).Nodup := by
  rw [numbered, List.map_map]
  have places : (links.zipIdx place).Pairwise fun entry other => entry.2 ≠ other.2 := by
    apply List.pairwise_map.mp
    rw [List.zipIdx_map_snd]
    exact List.nodup_range'
  exact List.pairwise_map.mpr (places.imp fun apart same => apart (Draft.place_of_edgeId same))

end Unfolded

end OutreachFlow
