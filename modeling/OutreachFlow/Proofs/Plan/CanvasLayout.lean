import OutreachFlow.Proofs.Plan.Renaming

/-! Where the nodes of a flow stand after export and import. The plan saves every position under the id that a
node has in the graph, while import looks for the check of a branch under the id that it makes up for it. So
nodes that keep their ids stay where they are, and a check that a condition leads to moves: to the place of
whatever node has the id that is made up, or beside its condition. -/
namespace OutreachFlow.Graph

variable {graph : Graph} {entry : Option String} {start : String} {condition check node : Node} {index : Nat}

/-- Where the check at a place among the edges of a condition lands. -/
def landing? (graph : Graph) (condition : Node) (index : Nat) : Option Position :=
  match graph.node? (checkNodeId condition.id index) with
  | some node => some node.position
  | none => Layout.child? condition.position index

/-- Every node of a flow stands where the node of the graph does that it is the image of. -/
def KeepsLayout (graph : Graph) (flow : Flow) : Prop :=
  ∀ image ∈ flow.nodes, ∃ node ∈ graph.nodes, graph.renamed node.id = image.id ∧ image.position = node.position

/-- The position of a node with this id. -/
def StandsAt (graph : Graph) (id : String) (position : Position) : Prop :=
  ∃ node, graph.node? id = some node ∧ node.position = position

/-! Looking positions up in the plan -/

section Numeric

variable (unique : graph.UniqueIds) (numeric : ∀ node ∈ graph.nodes, node.position.IsNumeric)

include unique numeric

theorem savedPosition?_eq_node? (id : String) :
    savedPosition? (graph.compile entry).saved id = (graph.node? id).map Node.position := by
  apply Option.ext
  intro position
  simp only [savedPosition?_compile unique, Option.map_eq_some_iff, node?_eq_some unique]
  constructor
  · rintro ⟨node, member, same, stands, _⟩
    exact ⟨node, ⟨member, same⟩, stands⟩
  · rintro ⟨node, ⟨member, same⟩, stands⟩
    exact ⟨node, member, same, stands, stands ▸ numeric node member⟩

theorem primaryPosition_compile (member : node ∈ graph.nodes) (slot : Nat) :
    primaryPosition (graph.compile entry).saved node.id slot = node.position := by
  rw [primaryPosition, savedPosition?_eq_node? unique numeric, (node?_eq_some unique).mpr ⟨member, rfl⟩]
  rfl

/-- Where coordinates are in reach, there always is a place to land. -/
theorem branchPosition_compile (member : condition ∈ graph.nodes) (fits : condition.position.FitsDoubles)
    (index : Nat) :
    graph.landing? condition index =
      some (branchPosition (graph.compile entry).saved condition.id condition.position index) := by
  have reach : (Layout.child? condition.position index).isSome :=
    (Layout.child?_isSome (numeric condition member)).mpr fits
  obtain ⟨place, beside⟩ := Option.isSome_iff_exists.mp reach
  rw [landing?, branchPosition, savedPosition?_eq_node? unique numeric, beside]
  cases graph.node? (checkNodeId condition.id index) <;> rfl

end Numeric

/-- A check that already has the id that is made up for it stays where it is. -/
theorem landing?_of_settled (unique : graph.UniqueIds) (member : check ∈ graph.nodes)
    (settled : check.id = checkNodeId condition.id index) : graph.landing? condition index = some check.position := by
  rw [landing?, ← settled, (node?_eq_some unique).mpr ⟨member, rfl⟩]

/-! Images -/

/-- A graph without issues is imported as what its plan unfolds to. -/
theorem ofJson_compile_unfold (unique : graph.UniqueIds) (named : ∀ node ∈ graph.nodes, node.id ≠ "")
    (valid : graph.issues (some start) = []) (free : graph.DerivedIdsFree)
    (fits : ∀ node ∈ graph.nodes, node.position.FitsDoubles) :
    (unfoldedIds (graph.compile (some start)).descriptors).Nodup ∧
      Flow.ofJson (graph.compile (some start)).toJson =
        .ok (Flow.unfold (graph.compile (some start)).saved (graph.compile (some start)).descriptors) := by
  have sound := sound_of_issues unique valid
  obtain ⟨first, inside, rfl, kind⟩ := sound.starts start rfl
  have readable : ∀ descriptor ∈ (graph.compile (some first.id)).descriptors, descriptor.Named :=
    fun _ listed => compile_named named (nonempty_of_links sound named) listed
  have unfoldable : Unfoldable (graph.compile (some first.id)).saved (graph.compile (some first.id)).descriptors :=
    (unfoldable_compile unique inside kind).mpr fun _ member shape _ bound =>
      admits_of_free unique sound free fits member shape bound
  exact ⟨unfoldable.distinct, (Flow.ofJson_toJson readable).mpr ⟨unfoldable, rfl⟩⟩

/-- A check that a condition leads to has a place among the edges of that condition. -/
theorem exists_place {id : String} (owned : graph.isOwned id = true) :
    ∃ condition ∈ graph.nodes, condition.kind = .condition ∧
      ∃ index : Nat, (graph.targets condition.id)[index]? = some id := by
  obtain ⟨_, link, isCondition⟩ := isOwned_iff.mp owned
  obtain ⟨condition, member, rfl, shape⟩ := isCondition_iff.mp isCondition
  obtain ⟨index, found⟩ := List.getElem?_of_mem (mem_targets.mpr link)
  exact ⟨condition, member, Node.kind_eq_condition.mpr shape, index, found⟩

theorem renamed_of_target (distinct : (graph.nodes.flatMap graph.ownedIds).Nodup) (member : condition ∈ graph.nodes)
    (kind : condition.kind = .condition) {target : String}
    (found : (graph.targets condition.id)[index]? = some target) :
    graph.renamed target = checkNodeId condition.id index := by
  have owned : graph.ownedIds condition = graph.targets condition.id := if_pos (Node.kind_eq_condition.mp kind)
  have place : (target, index) ∈ (graph.ownedIds condition).zipIdx := by
    rw [owned]
    exact List.mem_zipIdx_iff_getElem?.mpr found
  exact renamed_of_branch distinct member place

section Images

variable (unique : graph.UniqueIds) (distinct : (unfoldedIds (graph.compile (some start)).descriptors).Nodup)
  (numeric : ∀ node ∈ graph.nodes, node.position.IsNumeric)

include unique distinct numeric

/-- A node that no condition leads to keeps its place. -/
theorem standsAt_of_unowned (member : node ∈ graph.nodes) (unowned : graph.isOwned node.id = false) :
    (Flow.unfold (graph.compile (some start)).saved (graph.compile (some start)).descriptors).toGraph.StandsAt
      node.id node.position := by
  have listed : graph.descriptorOf node ∈ (graph.compile (some start)).descriptors :=
    mem_compile.mpr ⟨node, member, stands_iff.mpr fun _ => unowned, rfl⟩
  obtain ⟨slot, slotted⟩ := mem_slot listed
  refine ⟨_, (node?_eq_some (unfold_unique distinct)).mpr
    ⟨node_mem_unfold slotted List.mem_cons_self, graph.descriptorOf_id node⟩, ?_⟩
  rw [Descriptor.primary, descriptorOf_id]
  exact primaryPosition_compile unique numeric member slot

/-- The check at a place among the edges of a condition lands there. -/
theorem standsAt_of_branch (sound : graph.Sound entry) (fits : ∀ node ∈ graph.nodes, node.position.FitsDoubles)
    (member : condition ∈ graph.nodes) (kind : condition.kind = .condition) {target : String}
    (found : (graph.targets condition.id)[index]? = some target) :
    ∃ position, graph.landing? condition index = some position ∧
      (Flow.unfold (graph.compile (some start)).saved (graph.compile (some start)).descriptors).toGraph.StandsAt
        (checkNodeId condition.id index) position := by
  have shape := Node.kind_eq_condition.mp kind
  have listed : graph.descriptorOf condition ∈ (graph.compile (some start)).descriptors :=
    mem_compile.mpr ⟨condition, member, stands_of_condition shape, rfl⟩
  obtain ⟨slot, slotted⟩ := mem_slot listed
  have bound : index < (graph.descriptorOf condition).branches.length := by
    rw [descriptorOf_branches, if_pos shape, sound.branches_eq_targets unique member shape, List.length_map]
    exact (List.getElem?_eq_some_iff.mp found).1
  have branch : ((graph.descriptorOf condition).branches[index], index) ∈
      (graph.descriptorOf condition).branches.zipIdx :=
    List.mem_zipIdx_iff_getElem?.mpr (List.getElem?_eq_getElem bound)
  have lands : graph.landing? condition index = some
      (branchPosition (graph.compile (some start)).saved condition.id condition.position index) :=
    branchPosition_compile unique numeric member (fits condition member) index
  refine ⟨_, lands, _, (node?_eq_some (unfold_unique distinct)).mpr ⟨node_mem_unfold slotted
    (List.mem_cons_of_mem _ (Descriptor.mem_branchNodes.mpr ⟨_, branch, rfl⟩)), ?_⟩, ?_⟩
  · rw [Branch.node, descriptorOf_id]
  · rw [Branch.node, descriptorOf_id, primaryPosition_compile unique numeric member slot]

end Images

/-! The layout as a whole -/

/-- Nodes that no condition leads to stand where they stood. -/
def OthersStay (graph : Graph) (flow : Flow) : Prop :=
  ∀ node ∈ graph.nodes, graph.isOwned node.id = false → flow.toGraph.StandsAt node.id node.position

/-- Checks that conditions lead to stand where they land. -/
def ChecksLand (graph : Graph) (flow : Flow) : Prop :=
  ∀ condition ∈ graph.nodes, condition.kind = .condition → ∀ index target,
    (graph.targets condition.id)[index]? = some target →
      ∃ position, graph.landing? condition index = some position ∧
        flow.toGraph.StandsAt (checkNodeId condition.id index) position

/-- Checks that conditions lead to stood where they land. -/
def ChecksSettled (graph : Graph) : Prop :=
  ∀ condition ∈ graph.nodes, condition.kind = .condition → ∀ (index : Nat), ∀ check ∈ graph.nodes,
    (graph.targets condition.id)[index]? = some check.id → graph.landing? condition index = some check.position

/-- Only the checks that conditions lead to can spoil the layout. -/
theorem keepsLayout_iff {flow : Flow} (unique : graph.UniqueIds)
    (owners : (graph.nodes.flatMap graph.ownedIds).Nodup) (distinct : flow.toGraph.UniqueIds)
    (images : (flow.nodes.map Node.id).Perm ((graph.nodes.map Node.id).map graph.renamed))
    (stay : graph.OthersStay flow) (land : graph.ChecksLand flow) : graph.KeepsLayout flow ↔ graph.ChecksSettled := by
  have bijective := bijOn_of_perm images distinct
  constructor
  · intro keeps condition member kind index check inside found
    obtain ⟨position, lands, image, imageFound, stands⟩ := land condition member kind index check.id found
    obtain ⟨listed, same⟩ := (node?_eq_some distinct).mp imageFound
    obtain ⟨node, origin, renames, placed⟩ := keeps image listed
    -- The image stands for one node only, which is the check.
    have shared : graph.renamed node.id = graph.renamed check.id :=
      renames.trans (same.trans (renamed_of_target owners member kind found).symm)
    have id : node.id = check.id :=
      bijective.injOn (List.mem_map_of_mem origin) (List.mem_map_of_mem inside) shared
    obtain rfl := eq_of_id unique origin inside id
    rw [lands, ← stands, placed]
  · intro settled image listed
    obtain ⟨id, inside, renames⟩ := bijective.surjOn (List.mem_map_of_mem (f := Node.id) listed)
    obtain ⟨node, member, rfl⟩ := List.mem_map.mp inside
    refine ⟨node, member, renames, ?_⟩
    have place {position : Position} (stands : flow.toGraph.StandsAt (graph.renamed node.id) position) :
        image.position = position := by
      obtain ⟨other, found, rfl⟩ := stands
      obtain ⟨listed', same⟩ := (node?_eq_some distinct).mp found
      rw [eq_of_id distinct listed listed' (renames.symm.trans same.symm)]
    cases owned : graph.isOwned node.id with
    | false =>
      apply place
      rw [renamed_of_unowned owned]
      exact stay node member owned
    | true =>
      obtain ⟨condition, origin, kind, index, found⟩ := exists_place owned
      obtain ⟨position, lands, stands⟩ := land condition origin kind index node.id found
      rw [settled condition origin kind index node member found] at lands
      apply place
      rw [renamed_of_target owners origin kind found, Option.some.inj lands]
      exact stands

/-- A flow without issues comes back with all nodes in place but the checks that conditions lead to, each of which
stands where the node with the id stood that is made up for it, or beside its condition if there is none. So the
layout is kept exactly if each of these checks happens to stand there already. -/
theorem layout_kept_iff (unique : graph.UniqueIds) (named : ∀ node ∈ graph.nodes, node.id ≠ "")
    (valid : graph.issues (some start) = []) (single : graph.SingleOwner) (free : graph.DerivedIdsFree)
    (numeric : ∀ node ∈ graph.nodes, node.position.IsNumeric)
    (fits : ∀ node ∈ graph.nodes, node.position.FitsDoubles) :
    ∃ flow, Flow.ofJson (graph.compile (some start)).toJson = .ok flow ∧
      graph.OthersStay flow ∧ graph.ChecksLand flow ∧ (graph.KeepsLayout flow ↔ graph.ChecksSettled) := by
  have sound := sound_of_issues unique valid
  have owners := ownedIds_nodup unique sound single
  obtain ⟨distinct, imported⟩ := ofJson_compile_unfold unique named valid free fits
  have stay : graph.OthersStay
      (Flow.unfold (graph.compile (some start)).saved (graph.compile (some start)).descriptors) :=
    fun _ => standsAt_of_unowned unique distinct numeric
  have land : graph.ChecksLand
      (Flow.unfold (graph.compile (some start)).saved (graph.compile (some start)).descriptors) :=
    fun _ member kind _ _ => standsAt_of_branch unique distinct numeric sound fits member kind
  have images := ids_renamed unique sound owners start single
  rw [← unfoldedNodes_ids, ← unfold_nodes] at images
  exact ⟨_, imported, stay, land, keepsLayout_iff unique owners (unfold_unique distinct) images stay land⟩

/-- A check that has the id already which is made up for it, away from the place beside its condition. -/
def anchored : Graph where
  nodes :=
    [⟨"ask", .condition, .origin⟩,
      ⟨"ask-check-0", .conditionCheck [⟨.isLinkedInContact, true, none⟩], ⟨.double 10.0, .double 20.0⟩⟩]
  edges := [.plain "a" "ask" "ask-check-0"]

theorem layout_kept_anchored :
    ∃ flow, Flow.ofJson (anchored.compile (some "ask")).toJson = .ok flow ∧ anchored.ChecksSettled ∧
      anchored.KeepsLayout flow := by
  have unique : anchored.UniqueIds := by
    unfold UniqueIds
    decide
  have valid : anchored.issues (some "ask") = [] := by decide +kernel
  have single : anchored.SingleOwner := by
    unfold SingleOwner
    decide +kernel
  have free : anchored.DerivedIdsFree := by
    unfold DerivedIdsFree
    decide +kernel
  have numeric : ∀ node ∈ anchored.nodes, node.position.IsNumeric := by
    simp only [anchored, List.forall_mem_cons]
    exact ⟨Position.origin_numeric, ⟨Json.double_numeric _, Json.double_numeric _⟩, by simp⟩
  have fits : ∀ node ∈ anchored.nodes, node.position.FitsDoubles := by
    simp only [anchored, List.forall_mem_cons]
    exact ⟨Position.doubles_fit _ _, Position.doubles_fit _ _, by simp⟩
  have settled : anchored.ChecksSettled := by
    have single : ∀ condition ∈ anchored.nodes, condition.kind = .condition → ∀ check ∈ anchored.nodes,
        check.id ∈ anchored.targets condition.id → check.id = checkNodeId condition.id 0 ∧
          (anchored.targets condition.id).length = 1 := by decide +kernel
    intro condition member kind index check inside found
    obtain ⟨bound, _⟩ := List.getElem?_eq_some_iff.mp found
    obtain ⟨id, length⟩ := single condition member kind check inside (List.mem_of_getElem? found)
    obtain rfl : index = 0 := by omega
    exact landing?_of_settled unique inside id
  obtain ⟨flow, imported, _, _, kept⟩ := layout_kept_iff unique (by decide) valid single free numeric fits
  exact ⟨flow, imported, settled, kept.mpr settled⟩

/-- A check that does not have the id which is made up for it. -/
def drifting : Graph where
  nodes :=
    [⟨"ask", .condition, .origin⟩,
      ⟨"linked", .conditionCheck [⟨.isLinkedInContact, true, none⟩], ⟨.double 10.0, .double 20.0⟩⟩]
  edges := [.plain "a" "ask" "linked"]

/-- Export and import move the check beside its condition, though nothing is amiss with the flow. -/
theorem drifting_moves :
    (drifting.UniqueIds ∧ (∀ node ∈ drifting.nodes, node.id ≠ "") ∧ drifting.issues (some "ask") = [] ∧
      drifting.SingleOwner ∧ drifting.DerivedIdsFree ∧
      ∀ node ∈ drifting.nodes, ∃ x y : Float, x.isFinite = true ∧ y.isFinite = true ∧
        node.position = ⟨.double x, .double y⟩) ∧
    ∃ flow, Flow.ofJson (drifting.compile (some "ask")).toJson = .ok flow ∧
      flow.nodes.map (fun node => (node.id, node.position)) =
        [("ask", ⟨.double 0.0, .double 0.0⟩), ("ask-check-0", ⟨.double 350.0, .double 0.0⟩)] ∧
      drifting.renamed "linked" = "ask-check-0" ∧ ¬ drifting.KeepsLayout flow := by
  have doubles : ∀ node ∈ drifting.nodes, ∃ x y : Float, x.isFinite = true ∧ y.isFinite = true ∧
      node.position = ⟨.double x, .double y⟩ := by
    simp only [drifting, List.forall_mem_cons]
    exact ⟨⟨0.0, 0.0, by decide +kernel, by decide +kernel, rfl⟩,
      ⟨10.0, 20.0, by decide +kernel, by decide +kernel, rfl⟩, by simp⟩
  refine ⟨⟨by unfold UniqueIds; decide, by decide, by decide +kernel, by unfold SingleOwner; decide +kernel,
    by unfold DerivedIdsFree; decide +kernel, doubles⟩, ?_⟩
  have read : (Flow.ofJson (drifting.compile (some "ask")).toJson).toOption.map
      (fun flow => flow.nodes.map fun node => (node.id, node.position)) =
        some [("ask", ⟨.double 0.0, .double 0.0⟩), ("ask-check-0", ⟨.double 350.0, .double 0.0⟩)] := by
    decide +kernel
  obtain ⟨flow, imported, places⟩ := Option.map_eq_some_iff.mp read
  refine ⟨flow, toOption_eq_some.mp imported, places, by decide +kernel, fun keeps => ?_⟩
  have moved : ("ask-check-0", ⟨.double 350.0, .double 0.0⟩) ∈
      flow.nodes.map fun node => (node.id, node.position) := by simp [places]
  obtain ⟨image, listed, same⟩ := List.mem_map.mp moved
  obtain ⟨node, member, _, stands⟩ := keeps image listed
  have nowhere : ∀ node ∈ drifting.nodes, node.position ≠ ⟨.double 350.0, .double 0.0⟩ := by decide +kernel
  exact nowhere node member (stands.symm.trans (Prod.mk.inj same).2)

end OutreachFlow.Graph
