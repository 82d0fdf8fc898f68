import OutreachFlow.Proofs.Plan.Coverage

/-! The order of a plan. Without an entry, descriptors come by kind and within a kind in node order. The entry
moves its own descriptor to the front and nothing else: the others stay in their order, and an id without a
descriptor moves nothing. -/
namespace OutreachFlow

theorem entryFirst_of_absent {descriptors : List Descriptor} {id : String}
    (absent : ∀ descriptor ∈ descriptors, descriptor.id ≠ id) : entryFirst id descriptors = descriptors := by
  have missing : descriptors.find? (fun descriptor => descriptor.id = id) = none := by simpa using absent
  rw [entryFirst, missing]

namespace Graph

/-- The nodes that stand on their own, by kind and within a kind in node order. -/
def standing (graph : Graph) : List Node :=
  graph.ofKind .action ++ graph.ofKind .condition ++
    (graph.ofKind .conditionCheck).filter fun node => ¬ graph.Absorbed node.id

variable {graph : Graph}

theorem descriptorsOfKind_eq (graph : Graph) (kind : NodeKind) :
    graph.descriptorsOfKind kind = ((graph.ofKind kind).filter graph.stands).map graph.descriptorOf :=
  graph.filterMap_descriptor? _

theorem filter_stands (unique : graph.UniqueIds) (kind : NodeKind) :
    (graph.ofKind kind).filter graph.stands =
      (graph.ofKind kind).filter fun node => kind = .conditionCheck → ¬ graph.Absorbed node.id := by
  refine List.filter_congr fun node member => ?_
  obtain rfl : node.kind = kind := decide_eq_true_eq.mp (List.mem_filter.mp member).2
  rw [Bool.eq_iff_iff, stands_iff_absorbed unique, decide_eq_true_iff]

theorem descriptors_eq_standing (unique : graph.UniqueIds) :
    graph.descriptors = graph.standing.map graph.descriptorOf := by
  simp only [descriptors, standing, descriptorsOfKind_eq, filter_stands unique, List.map_append]
  simp

theorem mem_standing {node : Node} :
    node ∈ graph.standing ↔
      node ∈ graph.nodes ∧ (node.kind = .conditionCheck → ¬ graph.Absorbed node.id) := by
  simp only [standing, ofKind, List.mem_append, List.mem_filter, decide_eq_true_eq]
  cases node.kind <;> simp

/-- Only an id that is missing and that of a check behind a condition have no descriptor. -/
theorem free_of_standing_iff (unique : graph.UniqueIds) {id : String} :
    (∀ node ∈ graph.standing, node.id ≠ id) ↔
      graph.has id = false ∨ graph.kindAt? id = some .conditionCheck ∧ graph.Absorbed id := by
  simp only [mem_standing]
  constructor
  · intro free
    cases found : graph.kindAt? id with
    | none => exact .inl (kindAt?_eq_none.mp found)
    | some kind =>
      obtain ⟨node, member, rfl, rfl⟩ := (kindAt?_eq_some unique).mp found
      have held := Classical.not_imp.mp fun alone => free node ⟨member, alone⟩ rfl
      exact .inr ⟨congrArg some held.1, not_not.mp held.2⟩
  · rintro (missing | ⟨check, absorbed⟩) node ⟨member, alone⟩ rfl
    · exact Bool.false_ne_true (missing.symm.trans (has_eq_true.mpr ⟨node, member, rfl⟩))
    · obtain ⟨other, inside, own, kind⟩ := (kindAt?_eq_some unique).mp check
      obtain rfl := eq_of_id unique inside member own
      exact alone kind absorbed

theorem toJson_compile (graph : Graph) (entry : Option String) {key : String} (other : key ≠ "nodes") :
    (graph.compile entry).toJson.field? key = (graph.compile none).toJson.field? key := by
  simp only [Plan.toJson, Json.field?_obj, Fields.get?_cons, if_neg other.symm]
  rfl

/-- The plan for an entry is the plan without one, but for the descriptor of the entry, which comes first. -/
theorem compile_moves_entry (unique : graph.UniqueIds) :
    (graph.compile none).descriptors.map (fun descriptor => (descriptor.kind, descriptor.id)) =
        graph.standing.map (fun node => (node.kind, node.id)) ∧
      (∀ front first back, (graph.compile none).descriptors = front ++ first :: back →
        (graph.compile (some first.id)).descriptors = first :: (front ++ back)) ∧
      (∀ id, (∀ descriptor ∈ (graph.compile none).descriptors, descriptor.id ≠ id) →
        (graph.compile (some id)).descriptors = (graph.compile none).descriptors) ∧
      (∀ id, (∀ descriptor ∈ (graph.compile none).descriptors, descriptor.id ≠ id) ↔
        graph.has id = false ∨ graph.kindAt? id = some .conditionCheck ∧ graph.Absorbed id) ∧
      ∀ entry key, key ≠ "nodes" →
        (graph.compile entry).toJson.field? key = (graph.compile none).toJson.field? key := by
  have listed : (graph.compile none).descriptors = graph.standing.map graph.descriptorOf :=
    descriptors_eq_standing unique
  refine ⟨by simp [listed], ?_, fun id => entryFirst_of_absent, ?_, fun entry _ => graph.toJson_compile entry⟩
  · intro front first back split
    have distinct := plan_ids graph none unique
    rw [split] at distinct
    change entryFirst first.id (graph.compile none).descriptors = _
    rw [split]
    exact entryFirst_append back fun other inside => ids_apart distinct other (List.mem_append_left _ inside)
  · intro id
    rw [listed, ← free_of_standing_iff unique]
    simp only [List.forall_mem_map, descriptorOf_id]

theorem compile_moves_entry_crowded :
    (crowded.compile none).descriptors.map (fun descriptor => (descriptor.kind, descriptor.id)) =
        [(.action, "tell"), (.condition, "ask"), (.conditionCheck, "loose")] ∧
      (crowded.compile (some "loose")).descriptors.map Descriptor.id = ["loose", "tell", "ask"] ∧
      (crowded.compile (some "met")).descriptors = (crowded.compile none).descriptors ∧
      (crowded.compile (some "loose")).toJson.field? "positions" =
        (crowded.compile none).toJson.field? "positions" := by
  have unique : crowded.UniqueIds := by
    unfold UniqueIds
    decide
  obtain ⟨groups, moves, stays, absent, others⟩ := compile_moves_entry unique
  let met : Branch := ⟨[⟨.isNova, true, none⟩], some "met"⟩
  have split : (crowded.compile none).descriptors =
      [.action "tell" .default (some "loose"), .condition "ask" [met, met]] ++
        .conditionCheck "loose" [] none :: [] := by decide +kernel
  have leads : (crowded.compile (some "loose")).descriptors = _ := moves _ _ _ split
  refine ⟨groups.trans (by decide +kernel), by rw [leads]; rfl, ?_, others _ _ (by decide)⟩
  exact stays "met" ((absent "met").mpr (.inr (by decide +kernel)))

end Graph

end OutreachFlow
