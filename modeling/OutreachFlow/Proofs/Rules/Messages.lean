import OutreachFlow.Proofs.Import.DerivedIds
import OutreachFlow.Proofs.Rules.Issues

/-! The lint as it is shown: a list of messages. Names in a message are free texts, so a message need
not say which issue it comes from; how it begins and ends, and what stands between fixed names, does
tell some issues apart. -/
namespace OutreachFlow

namespace Issue

variable {issue : Issue}

theorem message_eq_cycle : issue.message = cycle.message ↔ issue = .cycle := by
  constructor
  · intro same
    have first := congrArg (fun text => text.toList.head?) same
    cases issue <;> simp [message, String.toList_append] at first ⊢
  · rintro rfl
    rfl

/-- Issues that only a graph with an entry has. -/
def blamesEntry : Issue → Bool
  | entryMissing _ | entryIsCheck _ | edgeRefused _ .intoEntry => true
  | _ => false

/-- Such issues show by the beginning or by the end of their message. -/
theorem blamesEntry_eq (issue : Issue) :
    issue.blamesEntry = (issue.message.toList.head? = some 'F' ∨
      issue.message.toList.reverse.take 3 = ['s', 'n', 'o'] : Bool) := by
  cases issue with
  | edgeRefused edge reason =>
    cases reason <;> simp [blamesEntry, message, Refusal.message, String.toList_append]
  | _ => simp [blamesEntry, message, String.toList_append]

theorem blamesEntry_congr {other : Issue} (same : issue.message = other.message) :
    issue.blamesEntry = other.blamesEntry := by
  rw [blamesEntry_eq, blamesEntry_eq, same]

/-- Messages about one node differ if the numbers of its next steps do. -/
theorem count_of_message {node : String} {kind : NodeKind} {count count' : Nat}
    (same : (tooManyNextSteps node kind count).message = (tooManyNextSteps node kind count').message) :
    count = count' := by
  simp only [message, String.append_left_inj, String.append_right_inj] at same
  exact toList_repr_inj (congrArg String.toList same)

end Issue

namespace Graph

variable {graph : Graph} {entry : Option String}

def messages (graph : Graph) (entry : Option String) : List String :=
  (graph.issues entry).map Issue.message

/-- All messages except the one about a cycle. -/
def localMessages (graph : Graph) (entry : Option String) : List String :=
  (graph.messages entry).filter (· ≠ Issue.cycle.message)

/-- The passes that look at the entry, at edges and at nodes one by one, in the order in which they
report. -/
def localPasses (entry : Option String) : List (Graph → List Issue) :=
  [(·.entryIssues entry), (·.edgeIssues entry), nextStepIssues, payloadIssues]

/-! What the passes can find -/

theorem of_mem_edgeIssues {issue : Issue} (member : issue ∈ graph.edgeIssues entry) :
    ∃ edge ∈ graph.edges, issue = .edgeDangling edge.id ∨
      ∃ source target reason, graph.node? edge.source = some source ∧
        graph.node? edge.target = some target ∧ refusal? source target entry = some reason ∧
        issue = .edgeRefused edge.id reason := by
  obtain ⟨edge, inside, found⟩ := List.mem_filterMap.mp member
  refine ⟨edge, inside, ?_⟩
  unfold edgeIssue? at found
  split at found
  · rename_i source target leaves arrives
    obtain ⟨reason, refused, rfl⟩ := Option.map_eq_some_iff.mp found
    exact .inr ⟨source, target, reason, leaves, arrives, refused, rfl⟩
  · exact .inl (Option.some.inj found).symm

theorem of_mem_nextStepIssues {issue : Issue} (member : issue ∈ graph.nextStepIssues) :
    ∃ node kind count, issue = .tooManyNextSteps node kind count := by
  obtain ⟨node, _, found⟩ := List.mem_filterMap.mp member
  simp only [nextStepIssue?, Option.ite_none_right_eq_some, Option.some.injEq] at found
  exact ⟨_, _, _, found.2.symm⟩

theorem of_mem_payloadIssues {issue : Issue} (member : issue ∈ graph.payloadIssues) :
    ∃ node, issue = .noChecks node ∨ issue = .hoursMissing node := by
  obtain ⟨node, _, found⟩ := List.mem_flatMap.mp member
  refine ⟨node.id, ?_⟩
  unfold checkIssues at found
  split at found
  · exact .inl (List.mem_singleton.mp found)
  · obtain ⟨_, _, rfl⟩ := List.mem_map.mp found
    exact .inr rfl
  · contradiction

theorem cycle_notMem_localIssues : Issue.cycle ∉ graph.localIssues entry := by
  simp only [localIssues, List.mem_append, not_or]
  refine ⟨⟨⟨?_, ?_⟩, ?_⟩, ?_⟩ <;> intro member
  · cases entry with
    | none => contradiction
    | some id => cases found : graph.node? id <;> simp [entryIssues, found] at member
  · obtain ⟨_, _, same | ⟨_, _, _, _, _, _, same⟩⟩ := of_mem_edgeIssues member <;> contradiction
  · obtain ⟨_, _, _, same⟩ := of_mem_nextStepIssues member
    contradiction
  · obtain ⟨_, same | same⟩ := of_mem_payloadIssues member <;> contradiction

theorem blamesEntry_of_mem_issues {issue : Issue} (member : issue ∈ graph.issues none) :
    issue.blamesEntry = false := by
  simp only [issues, localIssues, entryIssues, List.nil_append, List.mem_append] at member
  rcases member with ((edges | steps) | payloads) | cycle
  · obtain ⟨_, _, rfl | ⟨_, _, _, _, _, refused, rfl⟩⟩ := of_mem_edgeIssues edges
    · rfl
    · -- Without an entry the only rule is about kinds.
      simp only [refusal?, reduceCtorEq, if_false, Option.ite_none_left_eq_some,
        Option.some.injEq] at refused
      obtain ⟨_, rfl⟩ := refused
      rfl
  · obtain ⟨_, _, _, rfl⟩ := of_mem_nextStepIssues steps
    rfl
  · obtain ⟨_, rfl | rfl⟩ := of_mem_payloadIssues payloads <;> rfl
  · unfold cycleIssues at cycle
    split at cycle
    · obtain rfl := List.mem_singleton.mp cycle
      rfl
    · contradiction

/-! Messages -/

theorem localMessages_eq (graph : Graph) (entry : Option String) :
    graph.localMessages entry = (graph.localIssues entry).map Issue.message := by
  have kept : ((graph.localIssues entry).map Issue.message).filter (· ≠ Issue.cycle.message) =
      (graph.localIssues entry).map Issue.message := by
    rw [List.filter_eq_self]
    intro text member
    obtain ⟨issue, inside, rfl⟩ := List.mem_map.mp member
    have other : issue ≠ .cycle := fun same => cycle_notMem_localIssues (same ▸ inside)
    exact decide_eq_true fun same => other (Issue.message_eq_cycle.mp same)
  have dropped : (graph.cycleIssues.map Issue.message).filter (· ≠ Issue.cycle.message) = [] := by
    unfold cycleIssues
    split <;> simp
  rw [localMessages, messages, issues, List.map_append, List.filter_append, kept, dropped,
    List.append_nil]

end Graph

end OutreachFlow
