import Mathlib.Data.List.Nodup
import Mathlib.Data.List.Perm.Basic
import OutreachFlow.Proofs.Graph.Lookup
import OutreachFlow.Rules.Cycle

/-! Settling nodes one after the other. The frontier notes for each waiting node how many edges
lead to it from nodes that are not settled yet, so a node is settled only behind all nodes that
lead to it. Where every node is settled, the order of settling goes along every edge. -/
namespace OutreachFlow

namespace Frontier

variable {frontier : Frontier} {degree : String → Nat} {edges : List Edge} {done : List String}
  {id : String}

/-- The nodes that are ready and those that wait. -/
def ids (frontier : Frontier) : List String := frontier.ready ++ frontier.waiting.map Prod.fst

/-- A frontier notes the right numbers of edges: none for ready nodes, some for waiting ones. -/
structure Counts (degree : String → Nat) (frontier : Frontier) : Prop where
  ready : ∀ id ∈ frontier.ready, degree id = 0
  waiting : ∀ entry ∈ frontier.waiting, entry.2 = degree entry.1 ∧ 0 < entry.2

/-- The entry of a waiting node, and what is left without it. -/
theorem waiting_split {waiting : List (String × Nat)} {entry : String × Nat}
    (found : (waiting.find? fun other => other.1 = id) = some entry) :
    entry.1 = id ∧ ∃ front back, waiting = front ++ entry :: back ∧
      (waiting.eraseP fun other => other.1 = id) = front ++ back := by
  obtain ⟨same, front, back, shape, skipped⟩ := List.find?_eq_some_iff_append.mp found
  have others : ∀ other ∈ front, ¬ decide (other.1 = id) = true := by simpa using skipped
  have taken : (entry :: back).eraseP (fun other => other.1 = id) = back :=
    List.eraseP_cons_of_pos same
  refine ⟨decide_eq_true_eq.mp same, front, back, shape, ?_⟩
  rw [shape, List.eraseP_append_right _ others, taken]

theorem ids_release (frontier : Frontier) (id : String) :
    (frontier.release id).ids.Perm frontier.ids := by
  unfold release
  split
  · exact .refl _
  · rename_i key count found
    split
    · obtain ⟨rfl, front, back, shape, left⟩ := waiting_split found
      rw [ids, ids, left, shape]
      simp only [List.map_append, List.map_cons, List.append_assoc, List.singleton_append]
      exact List.perm_middle.symm.append_left _
    · have keys : (frontier.waiting.map fun entry =>
          if entry.1 = id then (id, count - 1) else entry).map Prod.fst =
            frontier.waiting.map Prod.fst := by
        rw [List.map_map]
        apply List.map_congr_left
        intro entry _
        rw [Function.comp_apply]
        split
        · rename_i same
          exact same.symm
        · rfl
      rw [ids, ids, keys]

theorem ids_foldl_release (frontier : Frontier) (released : List String) :
    (released.foldl release frontier).ids.Perm frontier.ids := by
  induction released generalizing frontier with
  | nil => exact .refl _
  | cons id rest ih => exact (ih (frontier.release id)).trans (ids_release frontier id)

/-- Releasing a node takes one edge off it. -/
theorem counts_release (distinct : frontier.ids.Nodup) (counts : frontier.Counts degree) :
    (frontier.release id).Counts fun other => if other = id then degree other - 1 else degree other := by
  have ready : ∀ other ∈ frontier.ready,
      (if other = id then degree other - 1 else degree other) = 0 := by
    intro other member
    rw [counts.ready other member]
    split <;> rfl
  have keys : (frontier.waiting.map Prod.fst).Nodup := (List.nodup_append'.mp distinct).2.1
  unfold release
  split
  · rename_i absent
    refine ⟨ready, ?_⟩
    intro entry member
    have other : entry.1 ≠ id := by simpa using List.find?_eq_none.mp absent entry member
    rw [if_neg other]
    exact counts.waiting entry member
  · rename_i key count found
    obtain ⟨rfl, front, back, shape, left⟩ := waiting_split found
    have noted : count = degree key :=
      (counts.waiting (key, count) (List.mem_of_find?_eq_some found)).1
    split
    · rename_i last
      constructor
      · intro other member
        rcases List.mem_append.mp member with known | new
        · exact ready other known
        · obtain rfl := List.mem_singleton.mp new
          rw [if_pos rfl]
          omega
      · intro entry member
        have member : entry ∈ front ++ back := left ▸ member
        have other : entry.1 ≠ key := by
          rw [shape, List.map_append, List.map_cons, List.nodup_middle, List.nodup_cons,
            ← List.map_append] at keys
          exact fun same => keys.1 (List.mem_map.mpr ⟨entry, member, same⟩)
        rw [if_neg other]
        apply counts.waiting entry
        rw [shape]
        exact List.perm_middle.mem_iff.mpr (List.mem_cons_of_mem _ member)
    · rename_i more
      refine ⟨ready, ?_⟩
      intro entry member
      obtain ⟨before, known, rfl⟩ := List.mem_map.mp member
      by_cases here : before.1 = key
      · rw [if_pos here, if_pos rfl]
        change count - 1 = degree key - 1 ∧ 0 < count - 1
        omega
      · rw [if_neg here, if_neg here]
        exact counts.waiting before known

theorem counts_foldl_release (distinct : frontier.ids.Nodup) (counts : frontier.Counts degree)
    (released : List String) :
    (released.foldl release frontier).Counts fun other => degree other - released.count other := by
  induction released generalizing frontier degree with
  | nil => simpa using counts
  | cons id rest ih =>
    have first : (frontier.release id).Counts _ := counts_release distinct counts
    have further := ih ((ids_release frontier id).nodup_iff.mpr distinct) first
    have same : (fun other => degree other - (id :: rest).count other) = fun other =>
        (if other = id then degree other - 1 else degree other) - rest.count other := by
      funext other
      rw [List.count_cons]
      by_cases here : other = id
      · simp only [here, beq_self_eq_true, if_true]
        omega
      · simp [here, Ne.symm here]
    rw [List.foldl_cons, same]
    exact further

/-- How many edges lead to a node from nodes that are not done. -/
def openDegree (edges : List Edge) (done : List String) (id : String) : Nat :=
  edges.countP fun edge => edge.target = id ∧ edge.source ∉ done

theorem openDegree_cons (fresh : id ∉ done) (other : String) :
    openDegree edges (id :: done) other =
      openDegree edges done other - (targetsFrom edges id).count other := by
  have parts : openDegree edges done other =
      openDegree edges (id :: done) other + (targetsFrom edges id).count other := by
    induction edges with
    | nil => rfl
    | cons edge rest ih =>
      unfold openDegree targetsFrom at ih ⊢
      by_cases leaves : edge.source = id <;> by_cases arrives : edge.target = other <;>
        by_cases known : edge.source ∈ done <;> simp_all <;> omega
  omega

/-- Every listed node comes behind all nodes that lead to it, apart from those done before. -/
def OrderedAfter (edges : List Edge) : List String → List String → Prop
  | _, [] => True
  | done, id :: rest =>
    (∀ edge ∈ edges, edge.target = id → edge.source ∈ done) ∧ OrderedAfter edges (id :: done) rest

theorem OrderedAfter.idxOf_lt {order : List String} (ordered : OrderedAfter edges done order)
    {edge : Edge} (member : edge ∈ edges) (listed : edge.target ∈ order) :
    edge.source ∈ done ∨ order.idxOf edge.source < order.idxOf edge.target := by
  induction order generalizing done with
  | nil => contradiction
  | cons id rest ih =>
    obtain ⟨first, others⟩ := ordered
    by_cases here : edge.target = id
    · exact .inl (first edge member here)
    · have later : edge.target ∈ rest := (List.mem_cons.mp listed).resolve_left here
      rw [List.idxOf_cons_ne _ (Ne.symm here)]
      by_cases starts : edge.source = id
      · rw [starts, List.idxOf_cons_self]
        exact .inr (Nat.succ_pos _)
      · rw [List.idxOf_cons_ne _ (Ne.symm starts)]
        rcases ih others later with known | before
        · exact .inl ((List.mem_cons.mp known).resolve_left starts)
        · exact .inr (Nat.succ_lt_succ before)

/-- What is settled is settled in order, and comes from the frontier, each node once. To every node that
is stuck leads an edge from one that is never done. -/
theorem settle_ordered (apart : (done ++ frontier.ids).Nodup)
    (counts : frontier.Counts (openDegree edges done)) :
    OrderedAfter edges done (frontier.settle (targetsFrom edges)) ∧
      ∃ stuck, (frontier.settle (targetsFrom edges) ++ stuck).Perm frontier.ids ∧
        ∀ id ∈ stuck, ∃ edge ∈ edges, edge.target = id ∧ edge.source ∉ done ∧
          edge.source ∉ frontier.settle (targetsFrom edges) := by
  fun_induction settle (targetsFrom edges) frontier generalizing done with
  | case1 frontier empty =>
    refine ⟨trivial, frontier.ids, .refl _, ?_⟩
    intro id member
    rw [ids, empty, List.nil_append] at member
    obtain ⟨entry, waits, rfl⟩ := List.mem_map.mp member
    obtain ⟨noted, positive⟩ := counts.waiting entry waits
    rw [noted, openDegree, List.countP_pos_iff] at positive
    obtain ⟨edge, inside, leads⟩ := positive
    obtain ⟨arrives, undone⟩ := of_decide_eq_true leads
    exact ⟨edge, inside, arrives, undone, List.not_mem_nil⟩
  | case2 frontier id rest shape ih =>
    have split : frontier.ids = id :: ({ frontier with ready := rest } : Frontier).ids := by
      rw [ids, ids, shape, List.cons_append]
    have kept := ids_foldl_release { frontier with ready := rest } (targetsFrom edges id)
    rw [split] at apart
    have moved : (id :: done ++ ({ frontier with ready := rest } : Frontier).ids).Nodup :=
      List.perm_middle.nodup_iff.mp apart
    have fresh : id ∉ done := fun known =>
      (List.nodup_cons.mp moved).1 (List.mem_append_left _ known)
    have remaining : ({ frontier with ready := rest } : Frontier).Counts (openDegree edges done) :=
      ⟨fun other later => counts.ready other (shape ▸ List.mem_cons_of_mem _ later), counts.waiting⟩
    have released := counts_foldl_release
      (List.nodup_append'.mp (List.nodup_cons.mp moved).2).2.1 remaining (targetsFrom edges id)
    have degrees : (fun other => openDegree edges done other - (targetsFrom edges id).count other) =
        openDegree edges (id :: done) := funext fun other => (openDegree_cons fresh other).symm
    rw [degrees] at released
    obtain ⟨ordered, stuck, perm, blocked⟩ := ih ((kept.append_left _).nodup_iff.mpr moved) released
    refine ⟨⟨?_, ordered⟩, stuck, ?_, ?_⟩
    · -- A ready node has no edge left that starts at a node not done.
      have none := counts.ready id (shape ▸ List.mem_cons_self)
      rw [openDegree, List.countP_eq_zero] at none
      intro edge member arrives
      simpa [arrives] using none edge member
    · rw [split]
      exact (perm.trans kept).cons id
    · intro other member
      obtain ⟨edge, inside, arrives, undone, unsettled⟩ := blocked other member
      rw [List.mem_cons, not_or] at undone
      refine ⟨edge, inside, arrives, undone.2, ?_⟩
      rw [List.mem_cons, not_or]
      exact ⟨undone.1, unsettled⟩

theorem start_ids (nodes : List String) (edges : List Edge) :
    (start nodes edges).ids.Perm nodes := by
  have keys : (nodes.map fun id => (id, inDegree edges id)).map Prod.fst = nodes := by
    rw [List.map_map]
    exact List.map_id nodes
  conv_rhs => rw [← keys]
  rw [ids, start, ← List.map_append]
  simp only [ne_eq, decide_not]
  exact (List.filter_append_perm _ _).map Prod.fst

theorem start_counts (nodes : List String) (edges : List Edge) :
    (start nodes edges).Counts (openDegree edges []) := by
  have all (id : String) : openDegree edges [] id = inDegree edges id := by
    simp [openDegree, inDegree]
  constructor
  · intro id member
    obtain ⟨entry, chosen, rfl⟩ := List.mem_map.mp member
    obtain ⟨noted, zero⟩ := List.mem_filter.mp chosen
    obtain ⟨id, _, rfl⟩ := List.mem_map.mp noted
    rw [all]
    exact decide_eq_true_eq.mp zero
  · intro entry chosen
    obtain ⟨noted, positive⟩ := List.mem_filter.mp chosen
    obtain ⟨id, _, rfl⟩ := List.mem_map.mp noted
    rw [all]
    exact ⟨rfl, Nat.pos_of_ne_zero (decide_eq_true_eq.mp positive)⟩

end Frontier

namespace Graph

variable {graph : Graph}

theorem settled_ordered (unique : graph.UniqueIds) :
    Frontier.OrderedAfter graph.innerEdges [] graph.settled ∧
      ∃ stuck, (graph.settled ++ stuck).Perm (graph.nodes.map Node.id) ∧
        ∀ id ∈ stuck, ∃ edge ∈ graph.innerEdges, edge.target = id ∧ edge.source ∉ graph.settled := by
  have ids := Frontier.start_ids (graph.nodes.map Node.id) graph.innerEdges
  have counts := Frontier.start_counts (graph.nodes.map Node.id) graph.innerEdges
  obtain ⟨ordered, stuck, perm, blocked⟩ := Frontier.settle_ordered (ids.nodup_iff.mpr unique) counts
  refine ⟨ordered, stuck, perm.trans ids, ?_⟩
  intro id member
  obtain ⟨edge, inside, arrives, _, unsettled⟩ := blocked id member
  exact ⟨edge, inside, arrives, unsettled⟩

/-- Without a cycle all nodes are settled. -/
theorem settled_perm (unique : graph.UniqueIds) (acyclic : graph.hasCycle = false) :
    graph.settled.Perm (graph.nodes.map Node.id) := by
  obtain ⟨_, stuck, perm, _⟩ := settled_ordered unique
  have lengths := perm.length_eq
  have all : graph.settled.length = graph.nodes.length := by simpa [hasCycle] using acyclic
  rw [List.length_append, List.length_map, all] at lengths
  obtain rfl := List.eq_nil_of_length_eq_zero (Nat.add_eq_left.mp lengths)
  rwa [List.append_nil] at perm

/-- Without a cycle every edge between nodes leads to a node that is settled later. -/
theorem settled_later (unique : graph.UniqueIds) (acyclic : graph.hasCycle = false) {edge : Edge}
    (member : edge ∈ graph.edges) (source : graph.has edge.source = true)
    (target : graph.has edge.target = true) :
    graph.settled.idxOf edge.source < graph.settled.idxOf edge.target := by
  have inner : edge ∈ graph.innerEdges :=
    List.mem_filter.mpr ⟨member, by rw [source, target]; rfl⟩
  have listed : edge.target ∈ graph.settled :=
    (settled_perm unique acyclic).mem_iff.mpr (List.mem_map.mpr (has_eq_true.mp target))
  exact ((settled_ordered unique).1.idxOf_lt inner listed).resolve_left List.not_mem_nil

end Graph

end OutreachFlow
