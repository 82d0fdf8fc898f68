import OutreachFlow.Proofs.Plan.Compiled
import OutreachFlow.Rules.Connection

/-! Next steps of a compiled plan. Each of them comes from an edge that starts at the node of the
descriptor or, for the branches of a condition, at a check that the condition leads to. Where edges
join nodes of fitting kinds, all next steps therefore name actions and conditions, which always
have descriptors of their own. -/
namespace OutreachFlow

namespace Descriptor

variable {descriptor : Descriptor} {next : String}

/-- The kind of the nodes that next steps leave from. Those of a condition leave from the checks of
its branches. -/
def stepKind (descriptor : Descriptor) : NodeKind :=
  if descriptor.kind = .action then .action else .conditionCheck

theorem mem_nextSteps :
    next ∈ descriptor.nextSteps ↔
      descriptor.next = some next ∨ ∃ branch ∈ descriptor.branches, branch.next = some next := by
  cases descriptor <;> simp [nextSteps, Descriptor.next, branches]

theorem stepKind_of_next (step : descriptor.next = some next) :
    descriptor.stepKind = descriptor.kind := by
  cases descriptor with
  | condition => contradiction
  | _ => rfl

theorem stepKind_of_condition (kind : descriptor.kind = .condition) :
    descriptor.stepKind = .conditionCheck := by
  rw [stepKind, kind]
  rfl

/-- Next steps may lead to nodes that have descriptors of their own, never to checks. -/
theorem kind_of_allowed {kind : NodeKind} (allowed : kind ∈ descriptor.stepKind.allowedTargets) :
    kind = .action ∨ kind = .condition := by
  revert allowed
  unfold stepKind
  cases descriptor.kind <;> cases kind <;> simp [NodeKind.allowedTargets]

end Descriptor

namespace Graph

variable {graph : Graph} {entry : Option String} {node : Node} {next : String}

/-- Every edge joins two nodes of fitting kinds. -/
def LinksFit (graph : Graph) : Prop :=
  ∀ link ∈ graph.links, ∃ source ∈ graph.nodes, ∃ target ∈ graph.nodes,
    source.id = link.1 ∧ target.id = link.2 ∧ target.kind ∈ source.kind.allowedTargets

/-- A plan with or without an entry lists the nodes that stand on their own. -/
theorem mem_plan {descriptor : Descriptor} :
    descriptor ∈ (graph.compile entry).descriptors ↔
      ∃ node ∈ graph.nodes, graph.stands node = true ∧ graph.descriptorOf node = descriptor := by
  cases entry with
  | some start => exact mem_compile
  | none =>
    change descriptor ∈ graph.descriptors ↔ _
    rw [graph.descriptors_perm.mem_iff]
    simp [and_assoc]

theorem plan_ids (graph : Graph) (entry : Option String) (unique : graph.UniqueIds) :
    ((graph.compile entry).descriptors.map Descriptor.id).Nodup := by
  cases entry with
  | some start => exact compile_distinct unique
  | none =>
    have same := (entryFirst_perm "" graph.descriptors).map Descriptor.id
    exact same.nodup_iff.mp (compile_distinct unique)

/-- Where a next step comes from: an edge from the node itself or from a check behind it. -/
theorem link_of_nextStep (unique : graph.UniqueIds) (member : node ∈ graph.nodes)
    (step : next ∈ (graph.descriptorOf node).nextSteps) :
    ∃ source ∈ graph.nodes, (source.id, next) ∈ graph.links ∧
      source.kind = (graph.descriptorOf node).stepKind ∧
      (source.id = node.id ∨ (node.id, source.id) ∈ graph.links) := by
  rcases Descriptor.mem_nextSteps.mp step with own | ⟨branch, inside, follows⟩
  · have kind := Descriptor.stepKind_of_next own
    rw [descriptorOf_kind] at kind
    rw [descriptorOf_next] at own
    split at own
    · contradiction
    · rw [nextStep?_eq] at own
      exact ⟨node, member, mem_targets.mp (List.mem_of_mem_head? own), kind.symm, .inl rfl⟩
  · rw [descriptorOf_branches] at inside
    split at inside
    · rename_i shape
      rw [branches_eq] at inside
      obtain ⟨target, leads, found⟩ := List.mem_filterMap.mp inside
      obtain ⟨checks, holds, rfl⟩ := Option.map_eq_some_iff.mp found
      obtain ⟨check, listed, rfl, payload⟩ := (checksAt?_eq_some unique).mp holds
      refine ⟨check, listed, mem_targets.mp (List.mem_of_mem_head? follows), ?_,
        .inr (mem_targets.mp leads)⟩
      have kind : (graph.descriptorOf node).kind = .condition := by
        rw [descriptorOf_kind, Node.kind_eq_condition]
        exact shape
      rw [Descriptor.stepKind_of_condition kind]
      exact Node.kind_eq_check.mpr ⟨checks, payload⟩
    · contradiction

/-- Where edges join nodes of fitting kinds, next steps name descriptors of fitting kinds. -/
theorem nextStep_listed (unique : graph.UniqueIds) (fit : graph.LinksFit) {descriptor : Descriptor}
    (member : descriptor ∈ (graph.compile entry).descriptors) (step : next ∈ descriptor.nextSteps) :
    ∃ target ∈ (graph.compile entry).descriptors,
      target.id = next ∧ target.kind ∈ descriptor.stepKind.allowedTargets := by
  obtain ⟨node, inside, _, rfl⟩ := mem_plan.mp member
  obtain ⟨source, listed, link, kind, _⟩ := link_of_nextStep unique inside step
  obtain ⟨other, listed', target, reached, leaves, arrives, allowed⟩ := fit _ link
  obtain rfl := eq_of_id unique listed' listed leaves
  rw [kind] at allowed
  have stands : graph.stands target = true := by
    apply stands_of_kind
    rcases Descriptor.kind_of_allowed allowed with same | same <;> simp [same]
  refine ⟨graph.descriptorOf target, mem_plan.mpr ⟨target, reached, stands, rfl⟩, ?_, ?_⟩
  · rw [descriptorOf_id]
    exact arrives
  · rwa [descriptorOf_kind]

end Graph

end OutreachFlow
