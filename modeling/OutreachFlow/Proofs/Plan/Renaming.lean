import Mathlib.Data.Set.Function
import OutreachFlow.Proofs.Graph.Ownership

/-! Export and import of a flow without issues. The plan keeps everything of it but the ids of the
checks that conditions lead to; import makes up new ones from the places among the edges. So the
flow comes back as it was, up to a renaming of these checks. -/
namespace OutreachFlow

theorem toList_head? {α : Type} {items : List α} (short : items.length ≤ 1) :
    items.head?.toList = items := by
  match items, short with
  | [], _ | [_], _ => rfl

/-- Items without a group of their own do not count. -/
theorem flatMap_filter_of_nil {α β : Type} {items : List α} {pick : α → Bool} {group : α → List β}
    (empty : ∀ item ∈ items, pick item = false → group item = []) :
    (items.filter pick).flatMap group = items.flatMap group := by
  induction items with
  | nil => rfl
  | cons item rest ih =>
    obtain ⟨first, others⟩ := List.forall_mem_cons.mp empty
    rw [List.filter_cons, List.flatMap_cons]
    split
    · rw [List.flatMap_cons, ih others]
    · rename_i out
      rw [first (Bool.eq_false_iff.mpr out), ih others, List.nil_append]

namespace Graph

variable {graph : Graph} {entry : Option String} {node : Node}

theorem unowned_of_stands (unique : graph.UniqueIds) (sound : graph.Sound entry)
    (member : node ∈ graph.nodes) (stands : graph.stands node = true) :
    graph.isOwned node.id = false := by
  rw [Bool.eq_false_iff]
  intro owned
  exact Bool.eq_false_iff.mp (stands_iff.mp stands (sound.owned_kind unique member owned)) owned

/-- A check that a condition leads to leads to nodes that stand on their own, and so do all nodes
but conditions. -/
theorem renamed_target (unique : graph.UniqueIds) (sound : graph.Sound entry)
    (member : node ∈ graph.nodes) (kind : node.kind ≠ .condition) {id : String}
    (link : id ∈ graph.targets node.id) : graph.renamed id = id := by
  obtain ⟨target, inside, rfl, kind⟩ := sound.target_of_other unique member kind link
  exact renamed_of_unowned (unowned_of_stands unique sound inside (stands_of_kind kind))

theorem ownedIds_of_stands_false (absorbed : graph.stands node = false) :
    graph.ownedIds node = [] := by
  have shape : node.payload ≠ .condition := fun shape =>
    Bool.eq_false_iff.mp absorbed (stands_of_condition shape)
  rw [ownedIds, if_neg shape]

/-- The links of a node as they are after the moved. -/
def renamedLinks (graph : Graph) (id : String) : List (String × String) :=
  (graph.targets id).map fun target => (graph.renamed id, graph.renamed target)

section Valid

variable (unique : graph.UniqueIds) (sound : graph.Sound entry)
  (distinct : (graph.nodes.flatMap graph.ownedIds).Nodup)

include unique sound distinct

theorem branchIds_renamed (member : node ∈ graph.nodes) :
    (graph.descriptorOf node).branchIds = (graph.ownedIds node).map graph.renamed := by
  have places : (graph.ownedIds node).map graph.renamed =
      (List.range (graph.ownedIds node).length).map (checkNodeId node.id) := by
    conv_lhs => rw [← List.zipIdx_map_fst 0 (graph.ownedIds node), List.map_map]
    rw [List.range_eq_range', ← List.zipIdx_map_snd 0 (graph.ownedIds node), List.map_map]
    exact List.map_congr_left fun entry inside => renamed_of_branch distinct member inside
  rw [places, Descriptor.branchIds_eq, descriptorOf_branches, descriptorOf_id, ownedIds]
  split
  · rename_i shape
    rw [sound.branches_eq_targets unique member shape, List.length_map]
  · rfl

theorem links_renamed_condition (member : node ∈ graph.nodes) (shape : node.payload = .condition) :
    (graph.descriptorOf node).links.Perm
      (graph.renamedLinks node.id ++ (graph.targets node.id).flatMap graph.renamedLinks) := by
  have owned : graph.ownedIds node = graph.targets node.id := if_pos shape
  have own : graph.renamed node.id = node.id :=
    renamed_of_unowned (unowned_of_stands unique sound member (stands_of_condition shape))
  have place : ∀ entry ∈ (graph.targets node.id).zipIdx,
      graph.renamed entry.1 = checkNodeId node.id entry.2 := by
    rw [← owned]
    exact fun entry inside => renamed_of_branch distinct member inside
  have written : (graph.descriptorOf node).links = (graph.targets node.id).zipIdx.flatMap
      fun entry => (node.id, checkNodeId node.id entry.2) ::
        (graph.targets entry.1).head?.toList.map fun next => (checkNodeId node.id entry.2, next) := by
    rw [Descriptor.links, descriptorOf_next, descriptorOf_branches, if_pos shape, if_pos shape,
      sound.branches_eq_targets unique member shape, descriptorOf_id, List.zipIdx_map,
      List.flatMap_map]
    rfl
  have first : graph.renamedLinks node.id =
      (graph.targets node.id).zipIdx.map fun entry => (node.id, checkNodeId node.id entry.2) := by
    rw [renamedLinks, own]
    conv_lhs => rw [← List.zipIdx_map_fst 0 (graph.targets node.id), List.map_map]
    exact List.map_congr_left fun entry inside => by rw [Function.comp_apply, place entry inside]
  have second : (graph.targets node.id).flatMap graph.renamedLinks =
      (graph.targets node.id).zipIdx.flatMap fun entry =>
        (graph.targets entry.1).head?.toList.map fun next => (checkNodeId node.id entry.2, next) := by
    conv_lhs => rw [← List.zipIdx_map_fst 0 (graph.targets node.id), List.flatMap_map]
    apply List.flatMap_congr
    intro entry inside
    obtain ⟨target, inside', same, kind⟩ :=
      sound.target_of_condition unique member shape (List.fst_mem_of_mem_zipIdx inside)
    have short := sound.single target inside' (by rw [kind]; rfl)
    rw [renamedLinks, place entry inside, ← same, toList_head? short]
    apply List.map_congr_left
    intro next link
    rw [renamed_target unique sound inside' (by simp [kind]) link]
  rw [written, first, second]
  -- The plan lists the step behind a branch next to the branch, the graph lists it with the check.
  exact (List.map_append_flatMap_perm _ _ _).symm

theorem links_renamed (member : node ∈ graph.nodes) (stands : graph.stands node = true) :
    (graph.descriptorOf node).links.Perm
      (graph.renamedLinks node.id ++ (graph.ownedIds node).flatMap graph.renamedLinks) := by
  by_cases shape : node.payload = .condition
  · rw [ownedIds, if_pos shape]
    exact links_renamed_condition unique sound distinct member shape
  · have kind : node.kind ≠ .condition := fun kind => shape (Node.kind_eq_condition.mp kind)
    have short := sound.single node member (by cases found : node.kind <;> simp_all [NodeKind.singleSuccessor])
    have own := renamed_of_unowned (unowned_of_stands unique sound member stands)
    rw [ownedIds, if_neg shape, Descriptor.links, descriptorOf_next, descriptorOf_branches,
      if_neg shape, if_neg shape, descriptorOf_id, nextStep?_eq, toList_head? short, renamedLinks, own]
    refine .of_eq (congrArg (· ++ []) (List.map_congr_left fun next link => ?_))
    rw [renamed_target unique sound member kind link]

/-- The ids of the plan's nodes are those of the graph, renamed. -/
theorem ids_renamed (start : String) (single : graph.SingleOwner) :
    (unfoldedIds (graph.compile (some start)).descriptors).Perm
      ((graph.nodes.map Node.id).map graph.renamed) := by
  have standing : (graph.nodes.filter graph.stands).flatMap
      (fun node => (graph.descriptorOf node).nodeIds) =
        (graph.nodes.filter graph.stands).flatMap fun node =>
          graph.renamed node.id :: (graph.ownedIds node).map graph.renamed := by
    apply List.flatMap_congr
    intro node inside
    obtain ⟨member, stands⟩ := List.mem_filter.mp inside
    rw [Descriptor.nodeIds, branchIds_renamed unique sound distinct member, descriptorOf_id,
      renamed_of_unowned (unowned_of_stands unique sound member stands)]
  have whole := (graph.compile_perm start).flatMap_right Descriptor.nodeIds
  rw [List.flatMap_map, standing] at whole
  have apart := List.map_append_flatMap_perm (graph.nodes.filter graph.stands)
    (fun node => graph.renamed node.id) (fun node => (graph.ownedIds node).map graph.renamed)
  have checks : (graph.nodes.filter graph.stands).flatMap
      (fun node => (graph.ownedIds node).map graph.renamed) =
        (graph.nodes.flatMap graph.ownedIds).map graph.renamed := by
    rw [List.map_flatMap]
    exact flatMap_filter_of_nil fun node _ absorbed => by
      rw [ownedIds_of_stands_false absorbed, List.map_nil]
  have nodes := (nodes_perm unique sound single).map graph.renamed
  rw [List.map_append, ← checks, List.map_map (l := graph.nodes.filter graph.stands)] at nodes
  exact whole.trans (apart.symm.trans nodes.symm)

/-- The links of the plan are those of the graph, renamed. -/
theorem unfoldedLinks_renamed (start : String) (single : graph.SingleOwner) :
    (unfoldedLinks (graph.compile (some start)).descriptors).Perm
      (graph.links.map fun link => (graph.renamed link.1, graph.renamed link.2)) := by
  -- Links are grouped by where they start: at a node that stands or at a check of one that does.
  have grouped : ((graph.nodes.map Node.id).flatMap graph.renamedLinks).Perm
      (graph.links.map fun link => (graph.renamed link.1, graph.renamed link.2)) := by
    have parts := (flatMap_filter_perm unique sound.source_mem).map
      fun link => (graph.renamed link.1, graph.renamed link.2)
    rw [List.map_flatMap] at parts
    refine .trans (.of_eq (List.flatMap_congr fun id _ => ?_)) parts
    rw [renamedLinks, targets_eq_links, List.map_map]
    apply List.map_congr_left
    intro link inside
    have same : link.1 = id := by simpa using (List.mem_filter.mp inside).2
    rw [Function.comp_apply, same]
  have checks : (graph.nodes.filter graph.stands).flatMap
      (fun node => (graph.ownedIds node).flatMap graph.renamedLinks) =
        (graph.nodes.flatMap graph.ownedIds).flatMap graph.renamedLinks := by
    rw [List.flatMap_assoc]
    exact flatMap_filter_of_nil fun node _ absorbed => by
      rw [ownedIds_of_stands_false absorbed, List.flatMap_nil]
  have nodes := (nodes_perm unique sound single).flatMap_right graph.renamedLinks
  rw [List.flatMap_append, ← checks,
    List.flatMap_map Node.id graph.renamedLinks (graph.nodes.filter graph.stands)] at nodes
  have together := List.flatMap_append_perm (graph.nodes.filter graph.stands)
    (fun node => graph.renamedLinks node.id)
    (fun node => (graph.ownedIds node).flatMap graph.renamedLinks)
  have described := List.Perm.flatMap_left (graph.nodes.filter graph.stands)
    fun node inside => links_renamed unique sound distinct (List.mem_filter.mp inside).1
      (List.mem_filter.mp inside).2
  have whole := (graph.compile_perm start).flatMap_right Descriptor.links
  rw [List.flatMap_map] at whole
  exact whole.trans (described.trans (together.symm.trans (nodes.symm.trans grouped)))

/-- Every node comes back with its payload, and where a place is saved under its new id, there. -/
theorem image_renamed (start : String) (saved : Fields) (member : node ∈ graph.nodes) :
    ∃ image ∈ (Flow.unfold saved (graph.compile (some start)).descriptors).toGraph.nodes,
      image.id = graph.renamed node.id ∧ image.payload = node.payload ∧
        ∀ position, savedPosition? saved (graph.renamed node.id) = some position →
          image.position = position := by
  by_cases stands : graph.stands node = true
  · have listed : graph.descriptorOf node ∈ (graph.compile (some start)).descriptors :=
      mem_compile.mpr ⟨node, member, stands, rfl⟩
    obtain ⟨slot, slotted⟩ := mem_slot listed
    rw [renamed_of_unowned (unowned_of_stands unique sound member stands)]
    refine ⟨_, node_mem_unfold slotted List.mem_cons_self, graph.descriptorOf_id node,
      graph.descriptorOf_payload node, fun position found => ?_⟩
    rw [Descriptor.primary, primaryPosition, descriptorOf_id, found, Option.getD_some]
  · obtain ⟨kind, owned⟩ : node.kind = .conditionCheck ∧ graph.isOwned node.id = true := by
      rw [stands_iff] at stands
      push Not at stands
      exact ⟨stands.1, Bool.ne_false_iff.mp stands.2⟩
    -- The node is the check at some place among the edges of a condition: its branch there.
    obtain ⟨condition, inside, owns⟩ := List.mem_flatMap.mp (isOwned_iff_mem.mp owned)
    have shape : condition.payload = .condition := by
      by_contra other
      rw [ownedIds, if_neg other] at owns
      contradiction
    have targets : graph.ownedIds condition = graph.targets condition.id := if_pos shape
    obtain ⟨index, bound, found⟩ := List.getElem_of_mem owns
    have place : (node.id, index) ∈ (graph.ownedIds condition).zipIdx :=
      List.mem_zipIdx_iff_getElem?.mpr (List.getElem?_eq_some_iff.mpr ⟨bound, found⟩)
    obtain ⟨checks, holds⟩ := Node.kind_eq_check.mp kind
    have stored : graph.checksAt? node.id = some checks :=
      (checksAt?_eq_some unique).mpr ⟨node, member, rfl, holds⟩
    have branch : (⟨checks, (graph.targets node.id).head?⟩, index) ∈
        (graph.descriptorOf condition).branches.zipIdx := by
      rw [descriptorOf_branches, if_pos shape, sound.branches_eq_targets unique inside shape,
        List.zipIdx_map]
      rw [targets] at place
      exact List.mem_map.mpr ⟨_, place, by simp [stored]⟩
    have listed : graph.descriptorOf condition ∈ (graph.compile (some start)).descriptors :=
      mem_compile.mpr ⟨condition, inside, stands_of_condition shape, rfl⟩
    obtain ⟨slot, slotted⟩ := mem_slot listed
    rw [renamed_of_branch distinct inside place]
    refine ⟨_, node_mem_unfold slotted
      (List.mem_cons_of_mem _ (Descriptor.mem_branchNodes.mpr ⟨_, branch, rfl⟩)), ?_, holds.symm, ?_⟩
    · rw [Branch.node, descriptorOf_id]
    · intro position found
      rw [Branch.node, branchPosition, descriptorOf_id, found, Option.getD_some]

end Valid

theorem bijOn_of_perm {α β : Type} {change : α → β} {items : List α} {images : List β}
    (moved : images.Perm (items.map change)) (distinct : images.Nodup) :
    Set.BijOn change {item | item ∈ items} {image | image ∈ images} := by
  have apart : (items.map change).Nodup := moved.nodup_iff.mp distinct
  refine ⟨?_, ?_, ?_⟩
  · intro item member
    exact moved.mem_iff.mpr (List.mem_map_of_mem member)
  · intro item member other member'
    exact List.inj_on_of_nodup_map apart member member'
  · intro image member
    exact List.mem_map.mp (moved.mem_iff.mp member)

/-- No link of the plan leads nowhere. -/
theorem links_arrive (unique : graph.UniqueIds) (sound : graph.Sound entry)
    (single : graph.SingleOwner) (start : String) :
    ∀ link ∈ unfoldedLinks (graph.compile (some start)).descriptors,
      link.2 ∈ unfoldedIds (graph.compile (some start)).descriptors := by
  have distinct := ownedIds_nodup unique sound single
  intro link member
  obtain ⟨original, found, rfl⟩ :=
    List.mem_map.mp ((unfoldedLinks_renamed unique sound distinct start single).mem_iff.mp member)
  exact (ids_renamed unique sound distinct start single).mem_iff.mpr
    (List.mem_map_of_mem (sound.target_mem original found))

theorem admits_of_free (unique : graph.UniqueIds) (sound : graph.Sound entry)
    (free : graph.DerivedIdsFree) (fits : ∀ node ∈ graph.nodes, node.position.FitsDoubles)
    {condition : Node} (member : condition ∈ graph.nodes) (shape : condition.payload = .condition)
    {index : Nat} (bound : index < (graph.branches condition.id).length) :
    graph.AdmitsBranch condition index := by
  rw [sound.branches_eq_targets unique member shape, List.length_map, length_targets] at bound
  have kind := Node.kind_eq_condition.mpr shape
  constructor
  · intro node inside stands
    exact free node inside (stands_iff.mp stands) condition member kind index bound
  · exact .inl fun _ => fits condition member

theorem nonempty_of_links (sound : graph.Sound entry) (named : ∀ node ∈ graph.nodes, node.id ≠ "") :
    ∀ link ∈ graph.links, link.2 ≠ "" := by
  intro link member empty
  obtain ⟨target, inside, same⟩ := List.mem_map.mp (sound.target_mem link member)
  exact named target inside (same.trans empty)

/-- A flow without issues in which no check has two conditions and no id is taken that import makes
up comes back from export and import as it was, up to the ids of the checks that conditions lead
to: these are named after their places among the edges of their conditions. -/
theorem ofJson_compile_renamed {start : String} (unique : graph.UniqueIds)
    (named : ∀ node ∈ graph.nodes, node.id ≠ "") (valid : graph.issues (some start) = [])
    (single : graph.SingleOwner) (free : graph.DerivedIdsFree)
    (fits : ∀ node ∈ graph.nodes, node.position.FitsDoubles) :
    ∃ flow, Flow.ofJson (graph.compile (some start)).toJson = .ok flow ∧
      flow.warnings = [] ∧ flow.entry = start ∧ flow.toGraph.UniqueIds ∧
      (∀ condition ∈ graph.nodes, condition.kind = .condition → ∀ index target,
        (graph.targets condition.id)[index]? = some target →
          graph.renamed target = checkNodeId condition.id index) ∧
      (∀ id, graph.isOwned id = false → graph.renamed id = id) ∧
      Set.BijOn graph.renamed {id | id ∈ graph.nodes.map Node.id} {id | id ∈ flow.nodes.map Node.id} ∧
      (∀ node ∈ graph.nodes, ∃ image, flow.toGraph.node? (graph.renamed node.id) = some image ∧
        image.kind = node.kind ∧ image.payload = node.payload ∧
        (graph.renamed node.id = node.id → node.position.IsNumeric →
          image.position = node.position)) ∧
      (graph.links.map fun link => (graph.renamed link.1, graph.renamed link.2)).Perm
        flow.toGraph.links := by
  have sound := sound_of_issues unique valid
  have distinct := ownedIds_nodup unique sound single
  obtain ⟨first, inside, rfl, kind⟩ := sound.starts start rfl
  let plan := graph.compile (some first.id)
  have readable : ∀ descriptor ∈ plan.descriptors, descriptor.Named :=
    fun _ listed => compile_named named (nonempty_of_links sound named) listed
  have unfoldable : Unfoldable plan.saved plan.descriptors :=
    (unfoldable_compile unique inside kind).mpr fun _ member shape _ bound =>
      admits_of_free unique sound free fits member shape bound
  refine ⟨_, (Flow.ofJson_toJson readable).mpr ⟨unfoldable, rfl⟩,
    unfold_warnings_eq_nil (links_arrive unique sound single first.id), ?_,
    unfold_unique unfoldable.distinct, ?_, fun _ => renamed_of_unowned, ?_, ?_, ?_⟩
  · have leads := compile_leads unique inside (stands_of_kind kind)
    rw [Flow.unfold, Flow.ofDraft, leads]
    exact graph.descriptorOf_id first
  · intro condition member kind index target found
    have owned : graph.ownedIds condition = graph.targets condition.id :=
      if_pos (Node.kind_eq_condition.mp kind)
    have place : (target, index) ∈ (graph.ownedIds condition).zipIdx := by
      rw [owned]
      exact List.mem_zipIdx_iff_getElem?.mpr found
    exact renamed_of_branch distinct member place
  · rw [unfold_nodes, unfoldedNodes_ids]
    exact bijOn_of_perm (ids_renamed unique sound distinct first.id single) unfoldable.distinct
  · intro node member
    obtain ⟨image, listed, renames, payload, place⟩ :=
      image_renamed unique sound distinct first.id plan.saved member
    refine ⟨image, (node?_eq_some (unfold_unique unfoldable.distinct)).mpr ⟨listed, renames⟩, ?_,
      payload, fun keeps numeric => place _ ?_⟩
    · rw [Node.kind, payload, Node.kind]
    · rw [keeps]
      exact (savedPosition?_compile unique).mpr ⟨node, member, rfl, rfl, numeric⟩
  · rw [unfold_links]
    exact (unfoldedLinks_renamed unique sound distinct first.id single).symm

/-- A condition with two checks, each under the id that import makes up for the other. -/
def crossed : Graph where
  nodes :=
    [⟨"ask", .condition, .origin⟩,
      ⟨"ask-check-1", .conditionCheck [⟨.isLinkedInContact, true, none⟩], .origin⟩,
      ⟨"ask-check-0", .conditionCheck [⟨.isLinkedInContact, false, none⟩], .origin⟩,
      ⟨"tell", .action .default, .origin⟩]
  edges :=
    [.plain "a" "ask" "ask-check-1", .plain "b" "ask" "ask-check-0", .plain "c" "ask-check-1" "tell"]

theorem ofJson_compile_crossed :
    crossed.issues (some "ask") = [] ∧
      ∃ flow, Flow.ofJson (crossed.compile (some "ask")).toJson = .ok flow ∧ flow.warnings = [] ∧
        (crossed.links.map fun link => (crossed.renamed link.1, crossed.renamed link.2)).Perm
          flow.toGraph.links ∧
        crossed.renamed "ask-check-1" = "ask-check-0" := by
  have valid : crossed.issues (some "ask") = [] := by decide +kernel
  have unique : crossed.UniqueIds := by
    unfold UniqueIds
    decide
  have named : ∀ node ∈ crossed.nodes, node.id ≠ "" := by decide
  have single : crossed.SingleOwner := by
    unfold SingleOwner
    decide +kernel
  have free : crossed.DerivedIdsFree := by
    unfold DerivedIdsFree
    decide +kernel
  have fits : ∀ node ∈ crossed.nodes, node.position.FitsDoubles := by
    intro node member
    have stays : node.position = .origin := by
      revert node
      decide
    rw [stays]
    exact Position.doubles_fit 0.0 0.0
  obtain ⟨flow, imported, warnings, _, _, _, _, _, _, links⟩ :=
    ofJson_compile_renamed unique named valid single free fits
  exact ⟨valid, flow, imported, warnings, links, by decide +kernel⟩

end Graph

end OutreachFlow
