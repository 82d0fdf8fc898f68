import Mathlib.Data.List.Pairwise
import OutreachFlow.Proofs.Graph.Lookup
import OutreachFlow.Proofs.Import.Unfolding

/-! Compiling takes back what unfolding did. Where no id comes twice, the edges of every unfolded
node are those that its own descriptor gave it, so compiling finds each descriptor again and only
sorts them by kind. -/
namespace OutreachFlow

/-- Descriptors in the order in which compiling lists them: by kind. -/
def byKind (descriptors : List Descriptor) : List Descriptor :=
  (descriptors.filter fun descriptor => descriptor.kind = .action) ++
    (descriptors.filter fun descriptor => descriptor.kind = .condition) ++
      descriptors.filter fun descriptor => descriptor.kind = .conditionCheck

/-- Sorting puts a descriptor among the others and leaves these as they come. -/
theorem byKind_cons (first : Descriptor) (rest : List Descriptor) :
    ∃ front back, byKind (first :: rest) = front ++ first :: back ∧ byKind rest = front ++ back := by
  unfold byKind
  cases kind : first.kind <;> simp only [List.filter_cons, kind, decide_true, if_true,
    reduceCtorEq, decide_false, Bool.false_eq_true, if_false]
  · exact ⟨[], _, rfl, rfl⟩
  · exact ⟨_, _, by rw [List.append_assoc, List.cons_append], List.append_assoc ..⟩
  · exact ⟨_, _, rfl, rfl⟩

theorem byKind_perm (descriptors : List Descriptor) : (byKind descriptors).Perm descriptors := by
  induction descriptors with
  | nil => exact .refl _
  | cons first rest ih =>
    obtain ⟨front, back, all, others⟩ := byKind_cons first rest
    rw [others] at ih
    rw [all]
    exact List.perm_middle.trans (ih.cons first)

theorem filter_kind_filter_kind (kind kind' : NodeKind) (descriptors : List Descriptor) :
    ((descriptors.filter fun descriptor => descriptor.kind = kind').filter fun descriptor =>
      descriptor.kind = kind) =
        if kind = kind' then descriptors.filter fun descriptor => descriptor.kind = kind else [] := by
  rw [List.filter_filter]
  split
  · simp_all
  · rename_i apart
    rw [List.filter_eq_nil_iff]
    intro descriptor _ both
    simp only [Bool.and_eq_true, decide_eq_true_eq] at both
    exact apart (both.1.symm.trans both.2)

/-- Sorting by kind does not disturb the order within a kind. -/
theorem filter_kind_byKind (kind : NodeKind) (descriptors : List Descriptor) :
    ((byKind descriptors).filter fun descriptor => descriptor.kind = kind) =
      descriptors.filter fun descriptor => descriptor.kind = kind := by
  cases kind <;>
    simp only [byKind, List.filter_append, filter_kind_filter_kind, reduceCtorEq, if_true, if_false,
      List.append_nil, List.nil_append]

theorem byKind_byKind (descriptors : List Descriptor) :
    byKind (byKind descriptors) = byKind descriptors := by
  rw [byKind, filter_kind_byKind, filter_kind_byKind, filter_kind_byKind, byKind]

theorem entryFirst_append {first : Descriptor} {front : List Descriptor} (back : List Descriptor)
    (fresh : ∀ other ∈ front, other.id ≠ first.id) :
    entryFirst first.id (front ++ first :: back) = first :: (front ++ back) := by
  have skipped : (front.find? fun other => other.id = first.id) = none := by
    simpa using fresh
  have kept : ∀ other ∈ front, ¬ decide (other.id = first.id) = true := by simpa using fresh
  simp [entryFirst, List.find?_append, skipped, List.eraseP_append_right _ kept]

namespace Descriptor

/-- The links that start at the primary node. -/
theorem links_from_self (descriptor : Descriptor) :
    (descriptor.links.filter fun link => link.1 = descriptor.id).map Prod.snd =
      descriptor.next.toList ++ descriptor.branchIds := by
  have own : (descriptor.next.toList.map fun next => (descriptor.id, next)).filter
      (fun link => link.1 = descriptor.id) =
        descriptor.next.toList.map fun next => (descriptor.id, next) := by
    simp
  have branch (entry : Branch × Nat) :
      (entry.1.links descriptor.id entry.2).filter (fun link => link.1 = descriptor.id) =
        [(descriptor.id, checkNodeId descriptor.id entry.2)] := by
    simp [Branch.links, checkNodeId_ne_self]
  simp only [links, List.filter_append, own, List.filter_flatMap, branch, ← List.map_eq_flatMap,
    List.map_append, List.map_map]
  simp [branchIds, Function.comp_def]

/-- The links that start at the check of a branch. -/
theorem links_from_branch {descriptor : Descriptor} {entry : Branch × Nat}
    (member : entry ∈ descriptor.branches.zipIdx) :
    (descriptor.links.filter fun link => link.1 = checkNodeId descriptor.id entry.2).map Prod.snd =
      entry.1.next.toList := by
  have own : (descriptor.next.toList.map fun next => (descriptor.id, next)).filter
      (fun link => link.1 = checkNodeId descriptor.id entry.2) = [] := by
    simp [(checkNodeId_ne_self _ _).symm]
  have distinct : descriptor.branches.zipIdx.Nodup :=
    List.Nodup.of_map Prod.snd (by rw [List.zipIdx_map_snd]; exact List.nodup_range')
  have others : ∀ other ∈ descriptor.branches.zipIdx, other ≠ entry →
      ∀ link ∈ other.1.links descriptor.id other.2,
        decide (link.1 = checkNodeId descriptor.id entry.2) = false := by
    intro other inside apart link found
    have index : other.2 ≠ entry.2 := by
      intro same
      have left := List.mem_zipIdx_iff_getElem?.mp inside
      have right := List.mem_zipIdx_iff_getElem?.mp member
      rw [same, right] at left
      exact apart (Prod.ext (Option.some.inj left).symm same)
    have source : link.1 = descriptor.id ∨ link.1 = checkNodeId descriptor.id other.2 := by
      rw [Branch.links, List.mem_cons, List.mem_map] at found
      rcases found with rfl | ⟨next, _, rfl⟩
      · exact .inl rfl
      · exact .inr rfl
    rw [decide_eq_false_iff_not]
    rcases source with same | same <;> rw [same]
    · exact (checkNodeId_ne_self _ _).symm
    · exact fun clash => index (checkNodeId_inj.mp clash).2
  rw [links, List.filter_append, own, filter_flatMap_of_unique distinct member others]
  cases follows : entry.1.next <;> simp [Branch.links, (checkNodeId_ne_self _ _).symm, follows]

end Descriptor

/-! The unfolded graph -/

section Unfolded

variable {saved : Fields} {slot : Nat} {descriptors : List Descriptor} {descriptor : Descriptor}

theorem unfold_nodes (saved : Fields) (descriptors : List Descriptor) :
    (Flow.unfold saved descriptors).nodes = unfoldedNodes saved 0 descriptors :=
  List.nil_append _

theorem unfold_edges (saved : Fields) (descriptors : List Descriptor) :
    (Flow.unfold saved descriptors).edges = numbered 0 (unfoldedLinks descriptors) :=
  List.nil_append _

theorem numbered_links (place : Nat) (links : List (String × String)) :
    (numbered place links).map (fun edge => (edge.source, edge.target)) = links := by
  have pairs : (numbered place links).map (fun edge => (edge.source, edge.target)) =
      (links.zipIdx place).map Prod.fst := by
    simp [numbered, Edge.plain, Function.comp_def]
  rw [pairs, List.zipIdx_map_fst]

theorem unfold_links (saved : Fields) (descriptors : List Descriptor) :
    (Flow.unfold saved descriptors).toGraph.links = unfoldedLinks descriptors := by
  rw [Graph.links, Flow.toGraph, unfold_edges, numbered_links]

theorem unfold_unique (distinct : (unfoldedIds descriptors).Nodup) :
    (Flow.unfold saved descriptors).toGraph.UniqueIds := by
  rw [Graph.UniqueIds, Flow.toGraph, unfold_nodes, unfoldedNodes_ids]
  exact distinct

theorem mem_unfoldedNodes {node : Node} :
    node ∈ unfoldedNodes saved slot descriptors ↔
      ∃ entry ∈ descriptors.zipIdx slot, node ∈ entry.1.nodes saved entry.2 :=
  List.mem_flatMap

/-- An id belongs to one descriptor only. -/
theorem owner_unique (distinct : (unfoldedIds descriptors).Nodup) {other : Descriptor}
    (member : descriptor ∈ descriptors) (member' : other ∈ descriptors) {id : String}
    (inside : id ∈ descriptor.nodeIds) (inside' : id ∈ other.nodeIds) : descriptor = other := by
  by_contra apart
  have symmetric : Std.Symm (Function.onFun List.Disjoint Descriptor.nodeIds) :=
    ⟨fun _ _ free => List.disjoint_symm free⟩
  exact (List.nodup_flatMap.mp distinct).2.forall member member' apart inside inside'

theorem descriptors_distinct (distinct : (unfoldedIds descriptors).Nodup) : descriptors.Nodup := by
  refine (List.nodup_flatMap.mp distinct).2.imp ?_
  rintro a b disjoint rfl
  exact disjoint (a := a.id) List.mem_cons_self List.mem_cons_self

/-- The links from a node are those that its own descriptor gives. -/
theorem targets_of_owner (distinct : (unfoldedIds descriptors).Nodup)
    (member : descriptor ∈ descriptors) {id : String} (inside : id ∈ descriptor.nodeIds) :
    (Flow.unfold saved descriptors).toGraph.targets id =
      (descriptor.links.filter fun link => link.1 = id).map Prod.snd := by
  rw [Graph.targets_eq_links, unfold_links, unfoldedLinks,
    filter_flatMap_of_unique (descriptors_distinct distinct) member]
  intro other member' apart link found
  rw [decide_eq_false_iff_not]
  rintro rfl
  exact apart (owner_unique distinct member' member (Descriptor.source_mem_nodeIds found) inside)

theorem targets_primary (distinct : (unfoldedIds descriptors).Nodup)
    (member : descriptor ∈ descriptors) :
    (Flow.unfold saved descriptors).toGraph.targets descriptor.id =
      descriptor.next.toList ++ descriptor.branchIds := by
  rw [targets_of_owner distinct member List.mem_cons_self, Descriptor.links_from_self]

theorem targets_branch (distinct : (unfoldedIds descriptors).Nodup)
    (member : descriptor ∈ descriptors) {entry : Branch × Nat}
    (branch : entry ∈ descriptor.branches.zipIdx) :
    (Flow.unfold saved descriptors).toGraph.targets (checkNodeId descriptor.id entry.2) =
      entry.1.next.toList := by
  have inside : checkNodeId descriptor.id entry.2 ∈ descriptor.nodeIds :=
    List.mem_cons_of_mem _ (List.mem_map.mpr ⟨entry, branch, rfl⟩)
  rw [targets_of_owner distinct member inside, Descriptor.links_from_branch branch]

theorem mem_slot (member : descriptor ∈ descriptors) :
    ∃ slot, (descriptor, slot) ∈ descriptors.zipIdx := by
  obtain ⟨slot, bound, found⟩ := List.getElem_of_mem member
  exact ⟨slot, List.mem_zipIdx_iff_getElem?.mpr (List.getElem?_eq_some_iff.mpr ⟨bound, found⟩)⟩

theorem node_mem_unfold {entry : Descriptor × Nat} {node : Node}
    (member : entry ∈ descriptors.zipIdx) (inside : node ∈ entry.1.nodes saved entry.2) :
    node ∈ (Flow.unfold saved descriptors).toGraph.nodes := by
  rw [Flow.toGraph, unfold_nodes]
  exact mem_unfoldedNodes.mpr ⟨entry, member, inside⟩

namespace Descriptor

theorem mem_branchNodes {node : Node} :
    node ∈ descriptor.branchNodes saved slot ↔
      ∃ entry ∈ descriptor.branches.zipIdx, entry.1.node saved descriptor.id
        (primaryPosition saved descriptor.id slot) entry.2 = node :=
  List.mem_map

theorem kind_of_branch {branch : Branch} (member : branch ∈ descriptor.branches) :
    descriptor.kind = .condition := by
  cases descriptor with
  | condition => rfl
  | _ => contradiction

theorem payload_eq_condition : descriptor.payload = .condition ↔ descriptor.kind = .condition := by
  cases descriptor <;> simp [payload, kind]

end Descriptor

theorem isCondition_unfold {id : String} :
    (Flow.unfold saved descriptors).toGraph.isCondition id = true ↔
      ∃ descriptor ∈ descriptors, descriptor.id = id ∧ descriptor.kind = .condition := by
  rw [Graph.isCondition_iff]
  constructor
  · rintro ⟨node, member, rfl, shape⟩
    rw [Flow.toGraph, unfold_nodes] at member
    obtain ⟨entry, inside, member⟩ := mem_unfoldedNodes.mp member
    rcases List.mem_cons.mp member with rfl | branch
    · exact ⟨entry.1, List.fst_mem_of_mem_zipIdx inside, rfl,
        Descriptor.payload_eq_condition.mp shape⟩
    · obtain ⟨_, _, rfl⟩ := Descriptor.mem_branchNodes.mp branch
      cases shape
  · rintro ⟨descriptor, member, rfl, kind⟩
    obtain ⟨slot, inside⟩ := mem_slot member
    exact ⟨descriptor.primary saved slot, node_mem_unfold inside List.mem_cons_self, rfl,
      Descriptor.payload_eq_condition.mpr kind⟩

theorem isOwned_branch (member : descriptor ∈ descriptors) {entry : Branch × Nat}
    (branch : entry ∈ descriptor.branches.zipIdx) :
    (Flow.unfold saved descriptors).toGraph.isOwned (checkNodeId descriptor.id entry.2) = true := by
  have kind := Descriptor.kind_of_branch (List.fst_mem_of_mem_zipIdx branch)
  rw [Graph.isOwned_iff, unfold_links]
  refine ⟨descriptor.id, ?_, isCondition_unfold.mpr ⟨descriptor, member, rfl, kind⟩⟩
  refine List.mem_flatMap.mpr ⟨descriptor, member, List.mem_append_right _ ?_⟩
  exact List.mem_flatMap.mpr ⟨entry, branch, List.mem_cons_self⟩

/-- Only made-up ids are owned: conditions lead to the checks of their branches and nowhere
else. -/
theorem isOwned_primary (distinct : (unfoldedIds descriptors).Nodup)
    (member : descriptor ∈ descriptors) :
    (Flow.unfold saved descriptors).toGraph.isOwned descriptor.id = false := by
  rw [Bool.eq_false_iff]
  intro owned
  obtain ⟨source, link, condition⟩ := Graph.isOwned_iff.mp owned
  obtain ⟨owner, member', rfl, kind⟩ := isCondition_unfold.mp condition
  -- The id would be made up for a branch of `owner`, so it would be the id of `owner` itself.
  have target := Graph.mem_targets.mpr link
  have silent : owner.next = none := by cases owner <;> simp_all [Descriptor.kind, Descriptor.next]
  rw [targets_primary distinct member', silent] at target
  have inside : descriptor.id ∈ owner.branchIds := by simpa using target
  obtain rfl := owner_unique distinct member member' List.mem_cons_self
    (List.mem_cons_of_mem _ inside)
  obtain ⟨index, _, same⟩ := Descriptor.mem_branchIds.mp inside
  exact checkNodeId_ne_self _ _ same

theorem branchTo?_branch (distinct : (unfoldedIds descriptors).Nodup)
    (member : descriptor ∈ descriptors) {entry : Branch × Nat}
    (branch : entry ∈ descriptor.branches.zipIdx) :
    (Flow.unfold saved descriptors).toGraph.branchTo? (checkNodeId descriptor.id entry.2) =
      some entry.1 := by
  obtain ⟨slot, inside⟩ := mem_slot member
  have node : entry.1.node saved descriptor.id (primaryPosition saved descriptor.id slot) entry.2 ∈
      (Flow.unfold saved descriptors).toGraph.nodes :=
    node_mem_unfold inside
      (List.mem_cons_of_mem _ (Descriptor.mem_branchNodes.mpr ⟨entry, branch, rfl⟩))
  have checks : (Flow.unfold saved descriptors).toGraph.checksAt?
      (checkNodeId descriptor.id entry.2) = some entry.1.checks :=
    (Graph.checksAt?_eq_some (unfold_unique distinct)).mpr ⟨_, node, rfl, rfl⟩
  rw [Graph.branchTo?, checks, targets_branch distinct member branch]
  simp

theorem branches_unfold (distinct : (unfoldedIds descriptors).Nodup)
    (member : descriptor ∈ descriptors) (silent : descriptor.next = none) :
    (Flow.unfold saved descriptors).toGraph.branches descriptor.id = descriptor.branches := by
  rw [Graph.branches_eq, targets_primary distinct member, silent, Option.toList_none, List.nil_append,
    Descriptor.branchIds, List.filterMap_map]
  have found : ∀ entry ∈ descriptor.branches.zipIdx,
      ((Flow.unfold saved descriptors).toGraph.branchTo? ∘
        fun entry => checkNodeId descriptor.id entry.2) entry = some (Prod.fst entry) :=
    fun entry branch => branchTo?_branch distinct member branch
  rw [List.filterMap_congr found, List.filterMap_eq_map', List.zipIdx_map_fst]

/-- Compiling finds the descriptor of a primary node. -/
theorem descriptor?_primary (distinct : (unfoldedIds descriptors).Nodup)
    (member : descriptor ∈ descriptors) :
    (Flow.unfold saved descriptors).toGraph.descriptor? (descriptor.primary saved slot) =
      some descriptor := by
  have next := Graph.nextStep?_eq (Flow.unfold saved descriptors).toGraph descriptor.id
  rw [targets_primary distinct member] at next
  have free : (Flow.unfold saved descriptors).toGraph.isOwned descriptor.id = false :=
    isOwned_primary distinct member
  have branches : descriptor.next = none →
      (Flow.unfold saved descriptors).toGraph.branches descriptor.id = descriptor.branches :=
    branches_unfold distinct member
  cases descriptor with
  | action id step follows =>
    cases follows <;> simp_all [Graph.descriptor?, Descriptor.primary, Descriptor.payload,
      Descriptor.id, Descriptor.next, Descriptor.branchIds, Descriptor.branches]
  | condition id children =>
    simp_all [Graph.descriptor?, Descriptor.primary, Descriptor.payload, Descriptor.id,
      Descriptor.next, Descriptor.branches]
  | conditionCheck id checks follows =>
    cases follows <;> simp_all [Graph.descriptor?, Descriptor.primary, Descriptor.payload,
      Descriptor.id, Descriptor.next, Descriptor.branchIds, Descriptor.branches]

/-- The checks of branches have no descriptors of their own. -/
theorem descriptor?_branch (member : descriptor ∈ descriptors) {node : Node}
    (inside : node ∈ descriptor.branchNodes saved slot) :
    (Flow.unfold saved descriptors).toGraph.descriptor? node = none := by
  obtain ⟨entry, branch, rfl⟩ := Descriptor.mem_branchNodes.mp inside
  have owned : (Flow.unfold saved descriptors).toGraph.isOwned
      (checkNodeId descriptor.id entry.2) = true := isOwned_branch member branch
  simp [Graph.descriptor?, Branch.node, owned]

theorem descriptorsOfKind_unfold (distinct : (unfoldedIds descriptors).Nodup) (kind : NodeKind) :
    (Flow.unfold saved descriptors).toGraph.descriptorsOfKind kind =
      descriptors.filter fun descriptor => descriptor.kind = kind := by
  have found : ∀ entry ∈ descriptors.zipIdx,
      ((entry.1.nodes saved entry.2).filter fun node => node.kind = kind).filterMap
        (Flow.unfold saved descriptors).toGraph.descriptor? =
          if entry.1.kind = kind then [entry.1] else [] := by
    intro entry inside
    have member := List.fst_mem_of_mem_zipIdx inside
    have absorbed : ((entry.1.branchNodes saved entry.2).filter fun node => node.kind = kind).filterMap
        (Flow.unfold saved descriptors).toGraph.descriptor? = [] := by
      rw [List.filterMap_eq_nil_iff]
      intro node chosen
      exact descriptor?_branch member (List.mem_filter.mp chosen).1
    have same : (entry.1.primary saved entry.2).kind = entry.1.kind := entry.1.payload_kind
    rw [Descriptor.nodes, List.filter_cons, same]
    split <;> simp_all [descriptor?_primary distinct member]
  have nodes : (Flow.unfold saved descriptors).toGraph.nodes =
      descriptors.zipIdx.flatMap fun entry => entry.1.nodes saved entry.2 :=
    unfold_nodes saved descriptors
  have spread : (descriptors.filter fun descriptor => descriptor.kind = kind) =
      descriptors.zipIdx.flatMap fun entry => if entry.1.kind = kind then [entry.1] else [] := by
    have firsts : descriptors = descriptors.zipIdx.flatMap fun entry => [entry.1] := by
      rw [← List.map_eq_flatMap, List.zipIdx_map_fst]
    conv_lhs => rw [firsts, List.filter_flatMap]
    simp only [List.filter_singleton, Bool.cond_decide]
  rw [Graph.descriptorsOfKind, Graph.ofKind, nodes, List.filter_flatMap, List.filterMap_flatMap,
    List.flatMap_congr found, spread]

/-- Compiling an unfolded flow gives back its descriptors, sorted by kind. -/
theorem descriptors_unfold (distinct : (unfoldedIds descriptors).Nodup) :
    (Flow.unfold saved descriptors).toGraph.descriptors = byKind descriptors := by
  simp only [Graph.descriptors, descriptorsOfKind_unfold distinct, byKind]

/-- The plan of an unfolded flow starts with the same descriptor; the others follow by kind. -/
theorem compile_unfold {first : Descriptor} {rest : List Descriptor}
    (distinct : (unfoldedIds (first :: rest)).Nodup) :
    ((Flow.unfold saved (first :: rest)).toGraph.compile (some first.id)).descriptors =
      first :: byKind rest := by
  obtain ⟨front, back, all, others⟩ := byKind_cons first rest
  have apart : first ∉ rest := (List.nodup_cons.mp (descriptors_distinct distinct)).1
  have fresh : ∀ other ∈ front, other.id ≠ first.id := by
    intro other inside same
    have later : other ∈ rest :=
      (byKind_perm rest).mem_iff.mp (others ▸ List.mem_append_left back inside)
    have shared : first.id ∈ other.nodeIds := same ▸ List.mem_cons_self
    have equal := owner_unique distinct List.mem_cons_self (List.mem_cons_of_mem _ later)
      List.mem_cons_self shared
    exact apart (equal ▸ later)
  rw [Graph.compile, descriptors_unfold distinct, all, others]
  exact entryFirst_append back fresh

/-- The warnings are the links to nowhere. -/
theorem unfold_warnings (saved : Fields) (descriptors : List Descriptor) :
    (Flow.unfold saved descriptors).warnings =
      ((unfoldedLinks descriptors).filter fun link => link.2 ∉ unfoldedIds descriptors).map
        fun link => ⟨link.1, link.2⟩ := by
  have unknown (edge : Edge) :
      (!(Draft.empty.extend (unfoldedNodes saved 0 descriptors) (unfoldedLinks descriptors)).has
        edge.target) = decide (edge.target ∉ unfoldedIds descriptors) := by
    rw [Bool.eq_iff_iff, Bool.not_eq_true', Bool.eq_false_iff, decide_eq_true_eq, Ne, Draft.has_iff,
      Draft.extend, Draft.empty, List.nil_append, unfoldedNodes_ids]
  have edges : (Draft.empty.extend (unfoldedNodes saved 0 descriptors)
      (unfoldedLinks descriptors)).edges = numbered 0 (unfoldedLinks descriptors) :=
    List.nil_append _
  rw [Flow.unfold, Flow.ofDraft, Flow.danglingEdges, edges]
  conv_rhs => rw [← numbered_links 0 (unfoldedLinks descriptors), List.filter_map, List.map_map]
  simp only [unknown]
  rfl

theorem unfold_warnings_eq_nil
    (arrives : ∀ link ∈ unfoldedLinks descriptors, link.2 ∈ unfoldedIds descriptors) :
    (Flow.unfold saved descriptors).warnings = [] := by
  have none : (unfoldedLinks descriptors).filter (fun link => link.2 ∉ unfoldedIds descriptors) =
      [] := by
    rw [List.filter_eq_nil_iff]
    intro link member
    simpa using arrives link member
  rw [unfold_warnings, none]
  rfl

end Unfolded

end OutreachFlow
