import OutreachFlow.Proofs.Plan.Places
import OutreachFlow.Proofs.Plan.Refolding

/-! Import, export and import again. Compiling an imported flow sorts its descriptors by kind, so
the second import finds them in another order, in other slots; but every position is saved then,
and nothing else depends on the order. -/
namespace OutreachFlow

/-! Unfolding in another order -/

section Reordered

variable {before saved : Fields} {descriptors reordered : List Descriptor}

/-- Where descriptors unfold to the same nodes in every slot, slots may be forgotten. -/
theorem unfoldedNodes_of_slotless {group : Descriptor → List Node} {slot : Nat}
    (slotless : ∀ entry ∈ descriptors.zipIdx slot, entry.1.nodes saved entry.2 = group entry.1) :
    unfoldedNodes saved slot descriptors = descriptors.flatMap group := by
  rw [unfoldedNodes, List.flatMap_congr slotless]
  conv_rhs => rw [← List.zipIdx_map_fst slot descriptors, List.flatMap_map]

theorem settles_slot (settled : Settles saved (unfoldedNodes before 0 descriptors))
    {entry : Descriptor × Nat} (member : entry ∈ descriptors.zipIdx) :
    Settles saved (entry.1.nodes before entry.2) :=
  fun node inside => settled node (mem_unfoldedNodes.mpr ⟨entry, member, inside⟩)

theorem nodes_slotless (settled : Settles saved (unfoldedNodes before 0 descriptors))
    {descriptor : Descriptor} (member : descriptor ∈ descriptors) (slot : Nat) :
    descriptor.nodes saved slot = descriptor.nodes saved 0 := by
  obtain ⟨place, inside⟩ := mem_slot member
  have kept := settles_slot settled inside
  exact (Descriptor.nodes_of_settled kept).trans (Descriptor.nodes_of_settled kept).symm

theorem unfoldedNodes_perm (settled : Settles saved (unfoldedNodes before 0 descriptors))
    (perm : reordered.Perm descriptors) :
    (unfoldedNodes saved 0 reordered).Perm (unfoldedNodes before 0 descriptors) := by
  have original : unfoldedNodes before 0 descriptors =
      descriptors.flatMap fun descriptor => descriptor.nodes saved 0 :=
    unfoldedNodes_of_slotless fun _ inside =>
      (Descriptor.nodes_of_settled (settles_slot settled inside)).symm
  have again : unfoldedNodes saved 0 reordered =
      reordered.flatMap fun descriptor => descriptor.nodes saved 0 :=
    unfoldedNodes_of_slotless fun entry inside =>
      nodes_slotless settled (perm.mem_iff.mp (List.fst_mem_of_mem_zipIdx inside)) entry.2
  rw [original, again]
  exact perm.flatMap_right _

/-- Another order does no harm behind the first descriptor, if the branches have their places anyway. -/
theorem Unfoldable.of_perm (unfoldable : Unfoldable before descriptors) (perm : reordered.Perm descriptors)
    (leads : reordered.head? = descriptors.head?)
    (placed : ∀ descriptor ∈ descriptors, ∀ slot, descriptor.Placed saved slot) :
    Unfoldable saved reordered where
  start := leads ▸ unfoldable.start
  distinct := (perm.flatMap_right Descriptor.nodeIds).nodup_iff.mpr unfoldable.distinct
  placed entry inside := placed entry.1 (perm.mem_iff.mp (List.fst_mem_of_mem_zipIdx inside)) entry.2

theorem unfoldable_reordered (settled : Settles saved (unfoldedNodes before 0 descriptors))
    (perm : reordered.Perm descriptors) (leads : reordered.head? = descriptors.head?)
    (unfoldable : Unfoldable before descriptors) : Unfoldable saved reordered := by
  refine unfoldable.of_perm perm leads fun descriptor member slot => ?_
  obtain ⟨place, original⟩ := mem_slot member
  exact Descriptor.placed_of_settled (settles_slot settled original)

theorem unfold_links_perm (perm : reordered.Perm descriptors) :
    (Flow.unfold saved reordered).toGraph.links.Perm
      (Flow.unfold before descriptors).toGraph.links := by
  rw [unfold_links, unfold_links]
  exact perm.flatMap_right _

theorem unfold_warnings_perm (perm : reordered.Perm descriptors) :
    (Flow.unfold saved reordered).warnings.Perm (Flow.unfold before descriptors).warnings := by
  have ids := perm.flatMap_right Descriptor.nodeIds
  have same : (fun link : String × String => decide (link.2 ∉ unfoldedIds reordered)) =
      fun link => decide (link.2 ∉ unfoldedIds descriptors) :=
    funext fun link => decide_eq_decide.mpr (not_congr ids.mem_iff)
  rw [unfold_warnings, unfold_warnings, same]
  exact ((perm.flatMap_right _).filter _).map _

end Reordered

/-! Graphs with the same nodes -/

theorem Graph.node?_perm {graph other : Graph} (unique : graph.UniqueIds)
    (perm : other.nodes.Perm graph.nodes) (id : String) : other.node? id = graph.node? id := by
  have unique' : other.UniqueIds := (perm.map Node.id).nodup_iff.mpr unique
  apply Option.ext
  intro node
  rw [node?_eq_some unique, node?_eq_some unique', perm.mem_iff]

theorem Graph.lookup_positions (graph : Graph) (entry : Option String) (id : String) :
    (graph.compile entry).positions.lookup id = (graph.node? id).map Node.position := by
  unfold compile node?
  induction graph.nodes with
  | nil => rfl
  | cons node rest ih =>
    rw [List.map_cons, List.lookup_cons, List.find?_cons]
    by_cases same : node.id = id
    · simp [same]
    · have apart : (id == node.id) = false := by simpa using Ne.symm same
      simp [apart, same, ih]

/-! The round trip -/

theorem settles_compile {saved : Fields} {descriptors : List Descriptor} (entry : Option String)
    (distinct : (unfoldedIds descriptors).Nodup) :
    Settles ((Flow.unfold saved descriptors).toGraph.compile entry).saved
      (unfoldedNodes saved 0 descriptors) := by
  intro node member
  have inside : node ∈ (Flow.unfold saved descriptors).toGraph.nodes := by
    rwa [Flow.toGraph, unfold_nodes]
  exact (savedPosition?_compile (unfold_unique distinct)).mpr
    ⟨node, inside, rfl, rfl, unfoldedNodes_numeric member⟩

/-- Whatever could be imported can be exported and imported again, and the second flow is the
first: the same entry, the same nodes under the same ids, the same links and warnings, each as
often, and the same plan. -/
theorem Flow.ofJson_compile {form : Json} {flow : Flow} (imported : ofJson form = .ok flow) :
    ∃ again, ofJson (flow.toGraph.compile (some flow.entry)).toJson = .ok again ∧
      again.entry = flow.entry ∧
      again.nodes.Perm flow.nodes ∧
      (∀ id, again.toGraph.node? id = flow.toGraph.node? id) ∧
      again.toGraph.links.Perm flow.toGraph.links ∧
      again.warnings.Perm flow.warnings ∧
      (again.toGraph.compile (some again.entry)).descriptors =
        (flow.toGraph.compile (some flow.entry)).descriptors ∧
      ∀ id, (again.toGraph.compile (some again.entry)).positions.lookup id =
        (flow.toGraph.compile (some flow.entry)).positions.lookup id := by
  obtain ⟨values, saved, descriptors, _, read, unfoldable, rfl⟩ := ofJson_eq_ok.mp imported
  obtain ⟨first, rest, rfl, _⟩ := unfoldable.eq_cons
  let plan := (unfold saved (first :: rest)).toGraph.compile (some first.id)
  have sorted : plan.descriptors = first :: byKind rest := compile_unfold unfoldable.distinct
  have perm : plan.descriptors.Perm (first :: rest) := sorted ▸ (byKind_perm rest).cons first
  have named : ∀ descriptor ∈ plan.descriptors, descriptor.Named := by
    intro descriptor member
    obtain ⟨_, _, found⟩ := mem_of_mapM read descriptor (perm.mem_iff.mp member)
    exact Descriptor.named_of_read found
  -- Slots differ between the two imports, but now every place is saved.
  have settled : Settles plan.saved (unfoldedNodes saved 0 (first :: rest)) :=
    settles_compile _ unfoldable.distinct
  have unfoldable' : Unfoldable plan.saved plan.descriptors :=
    unfoldable_reordered settled perm (by rw [sorted]; rfl) unfoldable
  have nodes := unfoldedNodes_perm settled perm
  rw [← unfold_nodes, ← unfold_nodes] at nodes
  have lookups : ∀ id, (unfold plan.saved plan.descriptors).toGraph.node? id =
      (unfold saved (first :: rest)).toGraph.node? id :=
    Graph.node?_perm (unfold_unique unfoldable.distinct) nodes
  have entry : (unfold plan.saved plan.descriptors).entry = first.id := by
    rw [sorted]
    rfl
  refine ⟨_, (ofJson_toJson named).mpr ⟨unfoldable', rfl⟩, entry, nodes, lookups,
    unfold_links_perm perm, unfold_warnings_perm perm, ?_, ?_⟩
  · -- What is sorted already stays as it is when it is sorted again.
    have distinct := unfoldable'.distinct
    rw [sorted] at distinct
    rw [entry, sorted, compile_unfold distinct, byKind_byKind]
    exact sorted.symm
  · intro id
    rw [Graph.lookup_positions, Graph.lookup_positions, lookups]

/-- A bare list without positions: a condition whose branch leads nowhere, and a check that leads
to the check of that branch. -/
def bareList : Json := .arr
  [.obj [("id", .str "ask"), ("type", .str "CONDITION"),
    ("child", .arr [.obj [("checks", .arr []), ("nextStepId", .str "gone")]])],
  .obj [("id", .str "loose"), ("type", .str "CONDITION_CHECK"), ("conditions", .arr []),
    ("nextStepId", .str "ask-check-0")]]

theorem Flow.ofJson_compile_bareList :
    ∃ flow, ofJson bareList = .ok flow ∧ flow.warnings = [⟨"ask-check-0", "gone"⟩] ∧
      ∃ again, ofJson (flow.toGraph.compile (some flow.entry)).toJson = .ok again ∧
        again.entry = "ask" ∧ again.nodes.Perm flow.nodes ∧ again.warnings.Perm flow.warnings := by
  have imported : ofJson bareList = .ok
      { nodes := [⟨"ask", .condition, Layout.primary 0⟩,
          ⟨"ask-check-0", .conditionCheck [], ⟨.double 600.0, .double 100.0⟩⟩,
          ⟨"loose", .conditionCheck [], Layout.primary 1⟩]
        edges := [.plain "edge-0-ask-ask-check-0" "ask" "ask-check-0",
          .plain "edge-1-ask-check-0-gone" "ask-check-0" "gone",
          .plain "edge-2-loose-ask-check-0" "loose" "ask-check-0"]
        entry := "ask"
        warnings := [⟨"ask-check-0", "gone"⟩] } := by decide +kernel
  obtain ⟨again, imported', entry, nodes, _, _, warnings, _⟩ := ofJson_compile imported
  exact ⟨_, imported, rfl, again, imported', entry, nodes, warnings⟩

end OutreachFlow
