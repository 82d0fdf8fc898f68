import Mathlib.Data.List.Perm.Basic
import Mathlib.Logic.Relation
import Mathlib.Order.WellFoundedSet
import OutreachFlow.Proofs.Rules.Settling
import OutreachFlow.Rules.Lint

/-! Cycles as walks. The lint reports a cycle exactly if some walk along edges between nodes comes back to
where it began: nodes that are stuck lead to each other, so that walking back among them never ends. -/
namespace OutreachFlow

/-- Where each of finitely many items has another of them behind it, some item lies behind itself. -/
theorem exists_transGen_self {α : Type} {before : α → α → Prop} {items : List α} (nonempty : items ≠ [])
    (behind : ∀ item ∈ items, ∃ other ∈ items, before other item) :
    ∃ item, Relation.TransGen before item item := by
  by_contra none
  rw [not_exists] at none
  have order : IsStrictOrder α (Relation.TransGen before) :=
    { irrefl := none, trans := fun _ _ _ => Relation.TransGen.trans }
  have founded : {item | item ∈ items}.WellFoundedOn (Relation.TransGen before) :=
    items.finite_toSet.wellFoundedOn
  obtain ⟨first, member⟩ := List.exists_mem_of_ne_nil items nonempty
  refine founded.induction (P := fun _ => False) member ?_
  intro item inside smaller
  obtain ⟨other, inside', step⟩ := behind item inside
  exact smaller other inside' (.single step)

namespace Graph

variable {graph other : Graph}

/-- An edge leads from one node to another one. -/
def Leads (graph : Graph) (source target : String) : Prop :=
  graph.has source = true ∧ graph.has target = true ∧
    ∃ edge ∈ graph.edges, edge.source = source ∧ edge.target = target

instance (source target : String) : Decidable (graph.Leads source target) :=
  inferInstanceAs (Decidable (_ ∧ _ ∧ ∃ edge ∈ graph.edges, _))

/-- A walk along edges between nodes comes back to where it began. -/
def IsCyclic (graph : Graph) : Prop := ∃ id, Relation.TransGen graph.Leads id id

theorem leads_of_innerEdge {edge : Edge} (member : edge ∈ graph.innerEdges) :
    graph.Leads edge.source edge.target := by
  obtain ⟨inside, ends⟩ := List.mem_filter.mp member
  rw [Bool.and_eq_true] at ends
  exact ⟨ends.1, ends.2, edge, inside, rfl, rfl⟩

/-- Along a walk nodes are settled later and later. -/
theorem walk_settled_later (unique : graph.UniqueIds) (acyclic : graph.hasCycle = false)
    {first last : String} (walk : Relation.TransGen graph.Leads first last) :
    graph.settled.idxOf first < graph.settled.idxOf last := by
  have later {source target : String} (leads : graph.Leads source target) :
      graph.settled.idxOf source < graph.settled.idxOf target := by
    obtain ⟨left, right, edge, member, rfl, rfl⟩ := leads
    exact settled_later unique acyclic member left right
  induction walk with
  | single leads => exact later leads
  | tail _ leads ih => exact ih.trans (later leads)

/-- Behind each node that is stuck lies another one. -/
theorem isCyclic_of_hasCycle (unique : graph.UniqueIds) (cycle : graph.hasCycle = true) :
    graph.IsCyclic := by
  obtain ⟨_, stuck, perm, blocked⟩ := settled_ordered unique
  have some : stuck ≠ [] := by
    rintro rfl
    have lengths := perm.length_eq
    rw [List.append_nil, List.length_map] at lengths
    simp [hasCycle, lengths] at cycle
  refine exists_transGen_self some ?_
  intro id member
  obtain ⟨edge, inner, rfl, unsettled⟩ := blocked id member
  have leads := leads_of_innerEdge inner
  have known : edge.source ∈ graph.settled ++ stuck :=
    perm.mem_iff.mpr (List.mem_map.mpr (has_eq_true.mp leads.1))
  exact ⟨edge.source, (List.mem_append.mp known).resolve_left unsettled, leads⟩

theorem hasCycle_iff (unique : graph.UniqueIds) : graph.hasCycle = true ↔ graph.IsCyclic := by
  constructor
  · exact isCyclic_of_hasCycle unique
  · rintro ⟨id, walk⟩
    by_contra acyclic
    rw [Bool.not_eq_true] at acyclic
    exact Nat.lt_irrefl _ (walk_settled_later unique acyclic walk)

/-! The order of nodes and edges -/

theorem leads_perm (nodes : other.nodes.Perm graph.nodes) (edges : other.edges.Perm graph.edges) :
    other.Leads = graph.Leads := by
  have same (id : String) : other.has id = graph.has id := nodes.any_eq
  funext source target
  simp only [Leads, same, edges.mem_iff]

theorem hasCycle_perm (unique : graph.UniqueIds) (nodes : other.nodes.Perm graph.nodes)
    (edges : other.edges.Perm graph.edges) : other.hasCycle = graph.hasCycle := by
  have unique' : other.UniqueIds := (nodes.map Node.id).nodup_iff.mpr unique
  rw [Bool.eq_iff_iff, hasCycle_iff unique', hasCycle_iff unique, IsCyclic, IsCyclic,
    leads_perm nodes edges]

/-- Each node is settled once at most. The lint has one message on cycles if the graph has one and none
otherwise, in whatever order nodes and edges come. -/
theorem cycleIssues_correct (unique : graph.UniqueIds) :
    (graph.settled.Nodup ∧ ∀ id ∈ graph.settled, graph.has id = true) ∧
      (graph.cycleIssues.map Issue.message = ["Graph contains a cycle"] ↔ graph.IsCyclic) ∧
      (graph.cycleIssues.map Issue.message = [] ↔ ¬ graph.IsCyclic) ∧
      ∀ other : Graph, other.nodes.Perm graph.nodes → other.edges.Perm graph.edges →
        other.cycleIssues = graph.cycleIssues := by
  obtain ⟨_, stuck, perm, _⟩ := settled_ordered unique
  refine ⟨⟨?_, ?_⟩, ?_, ?_, ?_⟩
  · have distinct : (graph.settled ++ stuck).Nodup := perm.nodup_iff.mpr unique
    exact (List.nodup_append'.mp distinct).1
  · intro id member
    have known : id ∈ graph.nodes.map Node.id := perm.mem_iff.mp (List.mem_append_left _ member)
    exact has_eq_true.mpr (List.mem_map.mp known)
  · rw [← hasCycle_iff unique, cycleIssues]
    cases graph.hasCycle <;> simp [Issue.message]
  · rw [← hasCycle_iff unique, cycleIssues]
    cases graph.hasCycle <;> simp
  · intro other nodes edges
    rw [cycleIssues, cycleIssues, hasCycle_perm unique nodes edges]

/-- Two nodes that lead to each other, one of them twice, beside one that leads nowhere. -/
def backAndForth : Graph where
  nodes := [⟨"ask", .condition, .origin⟩, ⟨"tell", .action .default, .origin⟩, ⟨"rest", .condition, .origin⟩]
  edges := [.plain "a" "ask" "tell", .plain "b" "gone" "rest", .plain "c" "tell" "ask", .plain "d" "ask" "tell",
    .plain "e" "rest" "gone"]

theorem cycleIssues_correct_backAndForth :
    backAndForth.settled = ["rest"] ∧
      backAndForth.cycleIssues.map Issue.message = ["Graph contains a cycle"] ∧
      ({ backAndForth with edges := backAndForth.edges.reverse } : Graph).cycleIssues =
        backAndForth.cycleIssues := by
  have unique : backAndForth.UniqueIds := by
    unfold UniqueIds
    decide
  obtain ⟨_, reported, _, unordered⟩ := cycleIssues_correct unique
  have there : backAndForth.Leads "ask" "tell" := by decide
  have back : backAndForth.Leads "tell" "ask" := by decide
  refine ⟨by decide +kernel, reported.mpr ⟨"ask", .tail (.single there) back⟩, ?_⟩
  exact unordered _ (.refl _) (List.reverse_perm _)

end Graph

end OutreachFlow
