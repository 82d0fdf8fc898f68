import OutreachFlow.Proofs.Plan.Coverage

/-! Export, import and export again, from any graph. Compiling loses a lot: a check that conditions
lead to has no descriptor of its own, one that several of them lead to is written once for each, and
of the edges of an action or a check only the first counts. But it loses all of that at once: as long
as the ids made up for branches are free, the plan can be imported, and what comes of it has the same
descriptors in the same order. -/
namespace OutreachFlow

/-! The order of descriptors -/

theorem byKind_filter (keep : Descriptor → Bool) (descriptors : List Descriptor) :
    byKind (descriptors.filter keep) = (byKind descriptors).filter keep := by
  simp only [byKind, List.filter_append, List.filter_filter, Bool.and_comm]

/-- Where no id comes twice, all descriptors but that of the entry stay in their places. -/
theorem entryFirst_eq_filter {descriptors : List Descriptor} {first : Descriptor}
    (distinct : (descriptors.map Descriptor.id).Nodup) (member : first ∈ descriptors) :
    entryFirst first.id descriptors =
      first :: descriptors.filter fun descriptor => descriptor.id ≠ first.id := by
  obtain ⟨front, back, rfl⟩ := List.append_of_mem member
  have apart := ids_apart distinct
  have kept : (front ++ back).filter (fun descriptor => descriptor.id ≠ first.id) = front ++ back :=
    List.filter_eq_self.mpr fun other inside => by simpa using apart other inside
  rw [entryFirst_append back fun other inside => apart other (List.mem_append_left _ inside), ← kept]
  simp

namespace Graph

variable {graph : Graph} {node : Node}

theorem kind_of_descriptorsOfKind {kind : NodeKind} {descriptor : Descriptor}
    (member : descriptor ∈ graph.descriptorsOfKind kind) : descriptor.kind = kind := by
  obtain ⟨node, inside, found⟩ := List.mem_filterMap.mp member
  rw [descriptor?_eq, Option.ite_none_right_eq_some] at found
  rw [← Option.some.inj found.2, descriptorOf_kind]
  simpa [ofKind] using (List.mem_filter.mp inside).2

/-- Compiling lists descriptors by kind already. -/
theorem byKind_descriptors (graph : Graph) : byKind graph.descriptors = graph.descriptors := by
  have picked (kind kind' : NodeKind) :
      (graph.descriptorsOfKind kind').filter (fun descriptor => descriptor.kind = kind) =
        if kind' = kind then graph.descriptorsOfKind kind' else [] := by
    split
    · rename_i same
      refine List.filter_eq_self.mpr fun descriptor member => ?_
      rw [kind_of_descriptorsOfKind member, decide_eq_true_eq]
      exact same
    · rename_i apart
      refine List.filter_eq_nil_iff.mpr fun descriptor member => ?_
      rw [kind_of_descriptorsOfKind member, decide_eq_true_eq]
      exact apart
  simp [byKind, descriptors, picked]

/-- Behind the descriptor of the entry, the others come by kind. -/
theorem compile_sorted (unique : graph.UniqueIds) (member : node ∈ graph.nodes)
    (stands : graph.stands node = true) :
    ∃ rest, (graph.compile (some node.id)).descriptors = graph.descriptorOf node :: rest ∧
      byKind rest = rest := by
  have inside : graph.descriptorOf node ∈ graph.descriptors :=
    graph.descriptors_perm.mem_iff.mpr
      (List.mem_map_of_mem (List.mem_filter.mpr ⟨member, stands⟩))
  have distinct : (graph.descriptors.map Descriptor.id).Nodup :=
    ((entryFirst_perm node.id graph.descriptors).map Descriptor.id).nodup_iff.mp
      (compile_distinct unique)
  have moved := entryFirst_eq_filter distinct inside
  rw [descriptorOf_id] at moved
  exact ⟨_, moved, by rw [byKind_filter, byKind_descriptors]⟩

/-! The ids of branches -/

/-- No node that has a descriptor of its own has an id that is made up for a branch. -/
def BranchIdsFree (graph : Graph) : Prop :=
  ∀ node ∈ graph.nodes, (node.kind = .conditionCheck → graph.isOwned node.id = false) →
    ∀ condition ∈ graph.nodes, condition.kind = .condition →
      ∀ index < (graph.checkEdges condition.id).length, node.id ≠ checkNodeId condition.id index

theorem length_branches (unique : graph.UniqueIds) (id : String) :
    (graph.branches id).length = (graph.checkEdges id).length := by
  rw [← List.length_map Branch.toJson]
  exact (branches_beside unique id).length_eq.symm

/-- Compiling, writing, reading and compiling again gives the same descriptors, whatever the edges
are: the plan of a graph can be imported as long as the ids of its branches are free, starts at the
same entry, and is written again as it was. -/
theorem descriptors_recompile {start : String} (unique : graph.UniqueIds)
    (named : ∀ node ∈ graph.nodes, node.id ≠ "") (targets : ∀ edge ∈ graph.edges, edge.target ≠ "")
    (fits : ∀ node ∈ graph.nodes, node.position.FitsDoubles)
    (starts : ∃ node ∈ graph.nodes, node.id = start ∧ node.kind ≠ .conditionCheck)
    (free : graph.BranchIdsFree) :
    ∃ flow, Flow.ofJson (graph.compile (some start)).toJson = .ok flow ∧ flow.entry = start ∧
      (flow.toGraph.compile (some start)).descriptors =
        (graph.compile (some start)).descriptors := by
  obtain ⟨node, member, rfl, kind⟩ := starts
  have admits : ∀ condition ∈ graph.nodes, condition.payload = .condition →
      ∀ index < (graph.branches condition.id).length, graph.AdmitsBranch condition index := by
    intro condition inside shape index bound
    rw [length_branches unique] at bound
    refine ⟨fun other inside' stands => ?_, .inl fun _ => fits condition inside⟩
    exact free other inside' (stands_iff.mp stands) condition inside
      (Node.kind_eq_condition.mpr shape) index bound
  have unfoldable := (unfoldable_compile unique member kind).mpr admits
  have links : ∀ link ∈ graph.links, link.2 ≠ "" := by
    intro link inside
    obtain ⟨edge, listed, rfl⟩ := List.mem_map.mp inside
    exact targets edge listed
  have readable : ∀ descriptor ∈ (graph.compile (some node.id)).descriptors, descriptor.Named :=
    fun _ inside => compile_named named links inside
  obtain ⟨rest, leads, sorted⟩ := compile_sorted unique member (stands_of_kind kind)
  have distinct := unfoldable.distinct
  rw [leads] at distinct
  refine ⟨_, (Flow.ofJson_toJson readable).mpr ⟨unfoldable, rfl⟩, ?_, ?_⟩
  · rw [leads]
    exact descriptorOf_id graph node
  · rw [leads, ← descriptorOf_id graph node]
    exact (compile_unfold distinct).trans (congrArg _ sorted)

/-- Two conditions share a check, which leads back to one of them; that one has a second edge to the
same check, and one to nowhere. The action has two next steps, of which one is the shared check. -/
def tangled : Graph where
  nodes :=
    [⟨"met", .conditionCheck [⟨.isNova, false, none⟩], .origin⟩, ⟨"ask", .condition, .origin⟩,
      ⟨"tell", .action .default, .origin⟩, ⟨"again", .condition, .origin⟩,
      ⟨"loose", .conditionCheck [], .origin⟩]
  edges :=
    [.plain "a" "ask" "met", .plain "b" "met" "ask", .plain "c" "ask" "gone", .plain "d" "ask" "met",
      .plain "e" "again" "met", .plain "f" "tell" "met", .plain "g" "tell" "loose",
      .plain "h" "loose" "tell"]

theorem descriptors_recompile_tangled :
    (∃ flow, Flow.ofJson (tangled.compile (some "again")).toJson = .ok flow ∧ flow.entry = "again" ∧
      (flow.toGraph.compile (some "again")).descriptors =
        (tangled.compile (some "again")).descriptors) ∧
    (tangled.compile (some "again")).descriptors.map Descriptor.nodeIds =
      [["again", "again-check-0"], ["tell"], ["ask", "ask-check-0", "ask-check-1"], ["loose"]] := by
  have unique : tangled.UniqueIds := by
    unfold UniqueIds
    decide
  have free : tangled.BranchIdsFree := by
    unfold BranchIdsFree
    decide +kernel
  have fits : ∀ node ∈ tangled.nodes, node.position.FitsDoubles := by
    intro node member
    have place : node.position = .origin := by
      revert node
      decide
    rw [place]
    exact Position.doubles_fit _ _
  exact ⟨descriptors_recompile unique (by decide) (by decide) fits (by decide) free,
    by decide +kernel⟩

end Graph

end OutreachFlow
