import OutreachFlow.Proofs.Import.DerivedIds
import OutreachFlow.Proofs.Plan.Compiled
import OutreachFlow.Proofs.Rules.Issues

/-! Which condition a check belongs to. Where no check has two conditions, the checks that
conditions lead to and the nodes that stand on their own make up all nodes, and renaming each of
those checks after its place among the edges of its condition is well defined. -/
namespace OutreachFlow.Graph

variable {graph : Graph} {entry : Option String} {node : Node}

/-- The checks that a node leads to as a condition. -/
def ownedIds (graph : Graph) (node : Node) : List String :=
  if node.payload = .condition then graph.targets node.id else []

/-- The checks that conditions lead to, with the ids that an import makes up for them. -/
def derivedIds (graph : Graph) : List (String × String) :=
  graph.nodes.flatMap fun node =>
    (graph.ownedIds node).zipIdx.map fun entry => (entry.1, checkNodeId node.id entry.2)

/-- The id of a node after export and import. -/
def renamed (graph : Graph) (id : String) : String :=
  ((graph.derivedIds.find? fun entry => entry.1 = id).map Prod.snd).getD id

/-- At most one edge leads from a condition to each check. -/
def SingleOwner (graph : Graph) : Prop :=
  ∀ node ∈ graph.nodes, node.kind = .conditionCheck →
    ((graph.incoming node.id).filter fun edge => graph.isCondition edge.source).length ≤ 1

/-- No node that keeps its id has an id that is made up for a branch. -/
def DerivedIdsFree (graph : Graph) : Prop :=
  ∀ node ∈ graph.nodes, (node.kind = .conditionCheck → graph.isOwned node.id = false) →
    ∀ condition ∈ graph.nodes, condition.kind = .condition →
      ∀ index < (graph.outgoing condition.id).length, node.id ≠ checkNodeId condition.id index

theorem derivedIds_fst (graph : Graph) :
    graph.derivedIds.map Prod.fst = graph.nodes.flatMap graph.ownedIds := by
  unfold derivedIds
  rw [List.map_flatMap]
  apply List.flatMap_congr
  intro node _
  rw [List.map_map]
  exact List.zipIdx_map_fst 0 _

theorem isOwned_iff_mem {id : String} :
    graph.isOwned id = true ↔ id ∈ graph.nodes.flatMap graph.ownedIds := by
  simp only [isOwned_iff, isCondition_iff, List.mem_flatMap, ownedIds]
  constructor
  · rintro ⟨_, link, node, member, rfl, shape⟩
    exact ⟨node, member, by rw [if_pos shape]; exact mem_targets.mpr link⟩
  · rintro ⟨node, member, inside⟩
    split at inside
    · rename_i shape
      exact ⟨node.id, mem_targets.mp inside, node, member, rfl, shape⟩
    · contradiction

/-! Each owned check once -/

theorem ownedIds_perm (unique : graph.UniqueIds) (sound : graph.Sound entry) :
    (graph.nodes.flatMap graph.ownedIds).Perm
      ((graph.links.filter fun link => graph.isCondition link.1).map Prod.snd) := by
  let links := graph.links.filter fun link => graph.isCondition link.1
  have covered : ∀ link ∈ links, link.1 ∈ graph.nodes.map Node.id := fun link member =>
    sound.source_mem link (List.mem_filter.mp member).1
  have grouped := (flatMap_filter_perm unique covered).map Prod.snd
  rw [List.flatMap_map, List.map_flatMap] at grouped
  refine .trans (.of_eq (List.flatMap_congr fun node member => ?_)) grouped
  have own : graph.isCondition node.id = true ↔ node.payload = .condition := by
    rw [isCondition_iff]
    constructor
    · rintro ⟨other, inside, same, shape⟩
      exact eq_of_id unique inside member same ▸ shape
    · intro shape
      exact ⟨node, member, rfl, shape⟩
  rw [ownedIds, targets_eq_links, List.filter_filter]
  split
  · rename_i shape
    congr 1
    apply List.filter_congr
    intro link _
    by_cases same : link.1 = node.id <;> simp [same, own.mpr shape]
  · rename_i shape
    have none : graph.links.filter (fun link => decide (link.1 = node.id) && graph.isCondition link.1) =
        [] := by
      rw [List.filter_eq_nil_iff]
      intro link _ both
      rw [Bool.and_eq_true, decide_eq_true_eq] at both
      exact shape (own.mp (both.1 ▸ both.2))
    rw [none]
    rfl

theorem ownedIds_nodup (unique : graph.UniqueIds) (sound : graph.Sound entry)
    (single : graph.SingleOwner) : (graph.nodes.flatMap graph.ownedIds).Nodup := by
  rw [List.nodup_iff_count_le_one]
  intro id
  by_cases owned : id ∈ graph.nodes.flatMap graph.ownedIds
  · obtain ⟨source, link, condition⟩ := isOwned_iff.mp (isOwned_iff_mem.mpr owned)
    obtain ⟨node, member, rfl, shape⟩ := isCondition_iff.mp condition
    obtain ⟨target, inside, rfl, kind⟩ :=
      sound.target_of_condition unique member shape (mem_targets.mpr link)
    -- The check is listed once for each edge from a condition to it, of which there is one.
    have counted : ((graph.links.filter fun link => graph.isCondition link.1).map Prod.snd).count
        target.id =
          ((graph.incoming target.id).filter fun edge => graph.isCondition edge.source).length := by
      rw [List.count, List.countP_map, List.countP_filter, links, List.countP_map,
        List.countP_eq_length_filter, incoming, List.filter_filter]
      congr 1
      apply List.filter_congr
      intro edge _
      simp [Bool.and_comm, beq_eq_decide]
    rw [(ownedIds_perm unique sound).count_eq, counted]
    exact single target inside kind
  · rw [List.count_eq_zero_of_not_mem owned]
    exact Nat.zero_le 1

/-- Every node stands on its own or is a check of one condition. -/
theorem nodes_perm (unique : graph.UniqueIds) (sound : graph.Sound entry)
    (single : graph.SingleOwner) :
    (graph.nodes.map Node.id).Perm
      ((graph.nodes.filter graph.stands).map Node.id ++ graph.nodes.flatMap graph.ownedIds) := by
  let absorbed := graph.nodes.filter fun node => !graph.stands node
  have parts : (graph.nodes.map Node.id).Perm
      ((graph.nodes.filter graph.stands).map Node.id ++ absorbed.map Node.id) := by
    rw [← List.map_append]
    exact (List.filter_append_perm graph.stands graph.nodes).symm.map Node.id
  have distinct : (absorbed.map Node.id).Nodup := unique.sublist (List.filter_sublist.map Node.id)
  have same : (absorbed.map Node.id).Perm (graph.nodes.flatMap graph.ownedIds) := by
    rw [List.perm_ext_iff_of_nodup distinct (ownedIds_nodup unique sound single)]
    intro id
    rw [← isOwned_iff_mem]
    constructor
    · intro member
      obtain ⟨node, inside, rfl⟩ := List.mem_map.mp member
      have sits := (List.mem_filter.mp inside).2
      rw [Bool.not_eq_true', Bool.eq_false_iff, Ne, stands_iff] at sits
      by_contra free
      exact sits fun _ => Bool.eq_false_iff.mpr free
    · intro owned
      obtain ⟨source, link, _⟩ := isOwned_iff.mp owned
      obtain ⟨_, _, target, inside, _, rfl, _⟩ := sound.joined _ link
      have kind := sound.owned_kind unique inside owned
      refine List.mem_map.mpr ⟨target, List.mem_filter.mpr ⟨inside, ?_⟩, rfl⟩
      rw [Bool.not_eq_true', Bool.eq_false_iff, Ne, stands_iff]
      intro free
      exact Bool.eq_false_iff.mp (free kind) owned
  exact parts.trans (same.append_left _)

/-! Renaming -/

theorem renamed_of_unowned {id : String} (free : graph.isOwned id = false) :
    graph.renamed id = id := by
  have absent : (graph.derivedIds.find? fun entry => entry.1 = id) = none := by
    rw [List.find?_eq_none]
    intro entry member same
    have owned : id ∈ graph.nodes.flatMap graph.ownedIds := by
      rw [← derivedIds_fst]
      exact List.mem_map.mpr ⟨entry, member, by simpa using same⟩
    exact Bool.eq_false_iff.mp free (isOwned_iff_mem.mpr owned)
  rw [renamed, absent]
  rfl

theorem renamed_of_branch (distinct : (graph.nodes.flatMap graph.ownedIds).Nodup)
    (member : node ∈ graph.nodes) {entry : String × Nat}
    (inside : entry ∈ (graph.ownedIds node).zipIdx) :
    graph.renamed entry.1 = checkNodeId node.id entry.2 := by
  have listed : (entry.1, checkNodeId node.id entry.2) ∈ graph.derivedIds :=
    List.mem_flatMap.mpr ⟨node, member, List.mem_map.mpr ⟨entry, inside, rfl⟩⟩
  have found := (find?_key_eq_some (derivedIds_fst graph ▸ distinct)).mpr ⟨listed, rfl⟩
  rw [renamed, found]
  rfl

end OutreachFlow.Graph
