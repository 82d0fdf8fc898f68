import Mathlib.Logic.Relation
import Mathlib.Order.WellFounded
import OutreachFlow.Proofs.Plan.NextSteps
import OutreachFlow.Proofs.Rules.Issues
import OutreachFlow.Proofs.Rules.Settling

/-! The plan of a graph without issues can be executed: it starts at the entry, to which nothing
leads back, every next step names a descriptor, and no chain of next steps goes on for ever. The
last follows from the order in which the nodes were settled, since a descriptor that is mentioned
stands for a node that can be reached along edges, past the check of a branch if need be. -/
namespace OutreachFlow

/-- A descriptor of a plan mentions another one of it as a next step, also in a branch. -/
def Plan.Mentions (plan : Plan) (descriptor other : Descriptor) : Prop :=
  descriptor ∈ plan.descriptors ∧ other ∈ plan.descriptors ∧ other.id ∈ descriptor.nextSteps

namespace Graph

variable {graph : Graph} {entry : Option String}

theorem acyclic_of_issues (valid : graph.issues entry = []) : graph.hasCycle = false := by
  rw [issues, List.append_eq_nil_iff] at valid
  simpa [cycleIssues] using valid.2

theorem link_settled_later (unique : graph.UniqueIds) (sound : graph.Sound entry)
    (acyclic : graph.hasCycle = false) {link : String × String} (member : link ∈ graph.links) :
    graph.settled.idxOf link.1 < graph.settled.idxOf link.2 := by
  obtain ⟨edge, inside, rfl⟩ := List.mem_map.mp member
  have ends {id : String} (known : id ∈ graph.nodes.map Node.id) : graph.has id = true :=
    has_eq_true.mpr (List.mem_map.mp known)
  exact settled_later unique acyclic inside (ends (sound.source_mem _ member))
    (ends (sound.target_mem _ member))

/-- Whatever is mentioned is settled later. -/
theorem mentioned_settled_later (unique : graph.UniqueIds) (sound : graph.Sound entry)
    (acyclic : graph.hasCycle = false) {descriptor other : Descriptor}
    (mentions : (graph.compile entry).Mentions descriptor other) :
    graph.settled.idxOf descriptor.id < graph.settled.idxOf other.id := by
  obtain ⟨listed, _, step⟩ := mentions
  obtain ⟨node, member, _, rfl⟩ := mem_plan.mp listed
  obtain ⟨source, _, link, _, path⟩ := link_of_nextStep unique member step
  have last := link_settled_later unique sound acyclic link
  rw [descriptorOf_id]
  rcases path with same | first
  · rwa [same] at last
  · exact (link_settled_later unique sound acyclic first).trans last

/-- Every next step of a plan without issues names an action or a condition of the plan, no
descriptor leads back to itself, every chain of next steps ends, and the plan starts with its entry,
to which no next step leads. -/
theorem compile_executable (unique : graph.UniqueIds) (valid : graph.issues entry = []) :
    (∀ descriptor ∈ (graph.compile entry).descriptors, ∀ next ∈ descriptor.nextSteps,
      ∃ target ∈ (graph.compile entry).descriptors,
        target.id = next ∧ (target.kind = .action ∨ target.kind = .condition)) ∧
    (∀ descriptor, ¬ Relation.TransGen (graph.compile entry).Mentions descriptor descriptor) ∧
    WellFounded (flip (graph.compile entry).Mentions) ∧
    ∀ start, entry = some start →
      (∃ first, (graph.compile entry).descriptors.head? = some first ∧ first.id = start) ∧
        ∀ descriptor ∈ (graph.compile entry).descriptors, start ∉ descriptor.nextSteps := by
  have sound := sound_of_issues unique valid
  have later {descriptor other : Descriptor}
      (mentions : (graph.compile entry).Mentions descriptor other) :
      graph.settled.idxOf descriptor.id < graph.settled.idxOf other.id :=
    mentioned_settled_later unique sound (acyclic_of_issues valid) mentions
  have ends : WellFounded (flip (graph.compile entry).Mentions) := by
    -- The number of nodes that are settled behind a descriptor's own goes down.
    refine Subrelation.wf ?_
      (measure fun descriptor => graph.nodes.length + 1 - graph.settled.idxOf descriptor.id).wf
    intro other descriptor mentions
    have bound : graph.settled.idxOf other.id ≤ graph.nodes.length := by
      have lengths := (settled_perm unique (acyclic_of_issues valid)).length_eq
      rw [List.length_map] at lengths
      exact lengths ▸ List.idxOf_le_length
    have order := later mentions
    change graph.nodes.length + 1 - graph.settled.idxOf other.id <
      graph.nodes.length + 1 - graph.settled.idxOf descriptor.id
    omega
  refine ⟨?_, ?_, ends, ?_⟩
  · intro descriptor member next step
    obtain ⟨target, listed, same, allowed⟩ := nextStep_listed unique sound.joined member step
    exact ⟨target, listed, same, Descriptor.kind_of_allowed allowed⟩
  · intro descriptor circle
    exact ends.transGen.irrefl.irrefl descriptor (Relation.transGen_swap.mpr circle)
  · rintro start rfl
    obtain ⟨first, inside, rfl, kind⟩ := sound.starts start rfl
    constructor
    · exact ⟨_, compile_leads unique inside (stands_of_kind kind), graph.descriptorOf_id first⟩
    · intro descriptor member step
      obtain ⟨node, inside', _, rfl⟩ := mem_plan.mp member
      obtain ⟨_, _, link, _⟩ := link_of_nextStep unique inside' step
      exact sound.untargeted _ link rfl

/-- Two conditions share a check; behind it an action and a third condition follow. -/
def sharedCheck : Graph where
  nodes :=
    [⟨"rest", .condition, .origin⟩, ⟨"tell", .action .default, .origin⟩, ⟨"ask", .condition, .origin⟩,
      ⟨"again", .condition, .origin⟩,
      ⟨"met", .conditionCheck [⟨.isLinkedInContact, true, none⟩], .origin⟩]
  edges :=
    [.plain "a" "ask" "met", .plain "b" "again" "met", .plain "c" "met" "tell",
      .plain "d" "tell" "rest"]

theorem compile_executable_sharedCheck :
    sharedCheck.issues (some "ask") = [] ∧
      (sharedCheck.compile (some "ask")).descriptors.map Descriptor.nextSteps =
        [["tell"], ["rest"], [], ["tell"]] ∧
      WellFounded (flip (sharedCheck.compile (some "ask")).Mentions) ∧
      ∃ first, (sharedCheck.compile (some "ask")).descriptors.head? = some first ∧
        first.id = "ask" := by
  have unique : sharedCheck.UniqueIds := by
    unfold UniqueIds
    decide
  have valid : sharedCheck.issues (some "ask") = [] := by decide +kernel
  obtain ⟨_, _, ends, start⟩ := compile_executable unique valid
  exact ⟨valid, by decide +kernel, ends, (start "ask" rfl).1⟩

end Graph

end OutreachFlow
