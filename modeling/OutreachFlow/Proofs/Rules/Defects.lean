import OutreachFlow.Proofs.Rules.Cycles
import OutreachFlow.Proofs.Rules.Messages

/-! Defects of a graph, said without the lint: an entry that is none, broken edges, nodes with too many next
steps, checks that ask nothing or never end, and cycles. The lint has one message for each of them, and no
others. -/
namespace OutreachFlow

/-- A check that asks for elapsed time and does not say how much. -/
def Check.Timeless (check : Check) : Prop := check.condition = .hasTimePassed ∧ check.hours = none

instance (check : Check) : Decidable check.Timeless := inferInstanceAs (Decidable (_ ∧ _))

/-- A condition check without checks. -/
def Node.Checkless (node : Node) : Prop := node.payload = .conditionCheck []

instance (node : Node) : Decidable node.Checkless := inferInstanceAs (Decidable (_ = _))

namespace Graph

/-- There is an entry, but no node under its id, or a check. -/
def EntryMisplaced (graph : Graph) (entry : Option String) : Prop :=
  ∃ id ∈ entry, graph.has id = false ∨ ∃ node ∈ graph.nodes, node.id = id ∧ node.kind = .conditionCheck

/-- An end of the edge is missing. -/
def EdgeLoose (graph : Graph) (edge : Edge) : Prop :=
  graph.has edge.source = false ∨ graph.has edge.target = false

/-- The edge joins two nodes of kinds that do not follow each other. -/
def EdgeUnfit (graph : Graph) (edge : Edge) : Prop :=
  ∃ source ∈ graph.nodes, ∃ target ∈ graph.nodes, source.id = edge.source ∧ target.id = edge.target ∧
    target.kind ∉ source.kind.allowedTargets

/-- The edge is loose, leads into the entry or joins kinds that do not follow each other. It can be all of
that at once. -/
def EdgeBroken (graph : Graph) (entry : Option String) (edge : Edge) : Prop :=
  graph.EdgeLoose edge ∨ entry = some edge.target ∨ graph.EdgeUnfit edge

/-- More than one edge leaves an action or a check. -/
def Overfull (graph : Graph) (node : Node) : Prop :=
  (node.kind = .action ∨ node.kind = .conditionCheck) ∧
    1 < graph.edges.countP fun edge => edge.source = node.id

variable (graph : Graph) (entry : Option String) (edge : Edge) (node : Node)

instance : Decidable (graph.EntryMisplaced entry) := inferInstanceAs (Decidable (∃ id ∈ entry, _))

instance : Decidable (graph.EdgeLoose edge) := inferInstanceAs (Decidable (_ ∨ _))

instance : Decidable (graph.EdgeUnfit edge) :=
  inferInstanceAs (Decidable (∃ source ∈ graph.nodes, ∃ target ∈ graph.nodes, _))

instance : Decidable (graph.EdgeBroken entry edge) := inferInstanceAs (Decidable (_ ∨ _))

instance : Decidable (graph.Overfull node) := inferInstanceAs (Decidable (_ ∧ _))

/-- A graph that is free of defects. -/
structure Flawless (graph : Graph) (entry : Option String) : Prop where
  starts : ¬ graph.EntryMisplaced entry
  joined : ∀ edge ∈ graph.edges, ¬ graph.EdgeBroken entry edge
  roomy : ∀ node ∈ graph.nodes, ¬ graph.Overfull node
  checked : ∀ node ∈ graph.nodes, ¬ node.Checkless
  timed : ∀ node ∈ graph.nodes, ∀ check ∈ node.payload.checks, ¬ check.Timeless
  acyclic : ¬ graph.IsCyclic

/-- What is to be reported of a graph. Of an edge with several defects the first one counts. -/
inductive Deserves (graph : Graph) (entry : Option String) : Issue → Prop where
  | entryMissing {id : String} (named : entry = some id) (absent : graph.has id = false) :
      Deserves graph entry (.entryMissing id)
  | entryIsCheck {node : Node} (member : node ∈ graph.nodes) (named : entry = some node.id)
      (kind : node.kind = .conditionCheck) : Deserves graph entry (.entryIsCheck node.id)
  | edgeDangling {edge : Edge} (member : edge ∈ graph.edges) (loose : graph.EdgeLoose edge) :
      Deserves graph entry (.edgeDangling edge.id)
  | edgeIntoEntry {edge : Edge} (member : edge ∈ graph.edges) (joined : ¬ graph.EdgeLoose edge)
      (start : entry = some edge.target) : Deserves graph entry (.edgeRefused edge.id .intoEntry)
  | edgeUnfit {edge : Edge} {source target : Node} (member : edge ∈ graph.edges)
      (leaves : source ∈ graph.nodes) (arrives : target ∈ graph.nodes) (own : source.id = edge.source)
      (own' : target.id = edge.target) (free : entry ≠ some edge.target)
      (unfit : target.kind ∉ source.kind.allowedTargets) :
      Deserves graph entry (.edgeRefused edge.id (.targetKind source.kind))
  | tooManyNextSteps {node : Node} (member : node ∈ graph.nodes) (overfull : graph.Overfull node) :
      Deserves graph entry (.tooManyNextSteps node.id node.kind
        (graph.edges.countP fun edge => edge.source = node.id))
  | noChecks {node : Node} (member : node ∈ graph.nodes) (checkless : node.Checkless) :
      Deserves graph entry (.noChecks node.id)
  | hoursMissing {node : Node} {check : Check} (member : node ∈ graph.nodes)
      (asked : check ∈ node.payload.checks) (timeless : check.Timeless) :
      Deserves graph entry (.hoursMissing node.id)
  | cycle (cyclic : graph.IsCyclic) : Deserves graph entry .cycle

variable {graph : Graph} {entry : Option String} {edge : Edge} {node : Node} {issue : Issue}

/-! The entry -/

theorem entryIssues_of_missing {id : String} (absent : graph.has id = false) :
    graph.entryIssues (some id) = [.entryMissing id] := by
  simp [entryIssues, node?_eq_none.mpr absent]

theorem entryIssues_of_check (unique : graph.UniqueIds) (member : node ∈ graph.nodes)
    (kind : node.kind = .conditionCheck) : graph.entryIssues (some node.id) = [.entryIsCheck node.id] := by
  simp [entryIssues, (node?_eq_some unique).mpr ⟨member, rfl⟩, kind]

theorem entryIssues_of_placed (unique : graph.UniqueIds) (placed : ¬ graph.EntryMisplaced entry) :
    graph.entryIssues entry = [] := by
  rw [entryIssues_eq_nil]
  rintro id rfl
  cases found : graph.node? id with
  | none => exact absurd ⟨id, rfl, .inl (node?_eq_none.mp found)⟩ placed
  | some node =>
    obtain ⟨member, own⟩ := (node?_eq_some unique).mp found
    exact ⟨node, rfl, fun kind => placed ⟨id, rfl, .inr ⟨node, member, own, kind⟩⟩⟩

theorem length_entryIssues (unique : graph.UniqueIds) :
    (graph.entryIssues entry).length = if graph.EntryMisplaced entry then 1 else 0 := by
  split
  · rename_i misplaced
    obtain ⟨id, rfl, absent | ⟨node, member, rfl, kind⟩⟩ := misplaced
    · rw [entryIssues_of_missing absent, List.length_singleton]
    · rw [entryIssues_of_check unique member kind, List.length_singleton]
  · rename_i placed
    rw [entryIssues_of_placed unique placed, List.length_nil]

theorem deserves_of_entryIssue (unique : graph.UniqueIds) (listed : issue ∈ graph.entryIssues entry) :
    graph.Deserves entry issue := by
  by_cases misplaced : graph.EntryMisplaced entry
  · obtain ⟨id, rfl, absent | ⟨node, member, rfl, kind⟩⟩ := misplaced
    · rw [entryIssues_of_missing absent, List.mem_singleton] at listed
      exact listed ▸ .entryMissing rfl absent
    · rw [entryIssues_of_check unique member kind, List.mem_singleton] at listed
      exact listed ▸ .entryIsCheck member rfl kind
  · rw [entryIssues_of_placed unique misplaced] at listed
    contradiction

/-! Edges -/

theorem EdgeUnfit.not_loose (unfit : graph.EdgeUnfit edge) : ¬ graph.EdgeLoose edge := by
  obtain ⟨source, member, target, member', own, own', _⟩ := unfit
  rintro (absent | absent)
  · exact Bool.false_ne_true (absent.symm.trans (has_eq_true.mpr ⟨source, member, own⟩))
  · exact Bool.false_ne_true (absent.symm.trans (has_eq_true.mpr ⟨target, member', own'⟩))

/-- What the lint says of an edge: the first defect that it finds, or nothing. -/
theorem edgeIssue?_cases (unique : graph.UniqueIds) (entry : Option String) (edge : Edge) :
    (graph.EdgeLoose edge ∧ graph.edgeIssue? entry edge = some (.edgeDangling edge.id)) ∨
      (¬ graph.EdgeLoose edge ∧ entry = some edge.target ∧
        graph.edgeIssue? entry edge = some (.edgeRefused edge.id .intoEntry)) ∨
      (∃ source ∈ graph.nodes, ∃ target ∈ graph.nodes, source.id = edge.source ∧
        target.id = edge.target ∧ entry ≠ some edge.target ∧
        target.kind ∉ source.kind.allowedTargets ∧
        graph.edgeIssue? entry edge = some (.edgeRefused edge.id (.targetKind source.kind))) ∨
      (¬ graph.EdgeBroken entry edge ∧ graph.edgeIssue? entry edge = none) := by
  cases leaves : graph.node? edge.source with
  | none => exact .inl ⟨.inl (node?_eq_none.mp leaves), by simp [edgeIssue?, leaves]⟩
  | some source =>
    cases arrives : graph.node? edge.target with
    | none => exact .inl ⟨.inr (node?_eq_none.mp arrives), by simp [edgeIssue?, leaves, arrives]⟩
    | some target =>
      obtain ⟨member, own⟩ := (node?_eq_some unique).mp leaves
      obtain ⟨member', own'⟩ := (node?_eq_some unique).mp arrives
      have firm : ¬ graph.EdgeLoose edge := by
        rintro (absent | absent) <;> rw [← node?_eq_none] at absent
        · exact Option.some_ne_none source (leaves.symm.trans absent)
        · exact Option.some_ne_none target (arrives.symm.trans absent)
      by_cases start : entry = some edge.target
      · exact .inr (.inl ⟨firm, start, by simp [edgeIssue?, leaves, arrives, refusal?, own', start]⟩)
      by_cases fits : target.kind ∈ source.kind.allowedTargets
      · have sound : ¬ graph.EdgeBroken entry edge := by
          rintro (loose | into | ⟨first, inside, second, inside', same, same', unfit⟩)
          · exact firm loose
          · exact start into
          · obtain rfl := eq_of_id unique inside member (same.trans own.symm)
            obtain rfl := eq_of_id unique inside' member' (same'.trans own'.symm)
            exact unfit fits
        refine .inr (.inr (.inr ⟨sound, ?_⟩))
        simp [edgeIssue?, leaves, arrives, refusal?, own', start, fits]
      · refine .inr (.inr (.inl ⟨source, member, target, member', own, own', start, fits, ?_⟩))
        simp [edgeIssue?, leaves, arrives, refusal?, own', start, fits]

theorem edgeIssue?_isSome (unique : graph.UniqueIds) :
    (graph.edgeIssue? entry edge).isSome = true ↔ graph.EdgeBroken entry edge := by
  rcases edgeIssue?_cases unique entry edge with
    ⟨loose, found⟩ | ⟨_, start, found⟩ | ⟨source, member, target, member', own, own', _, unfit, found⟩ |
      ⟨sound, found⟩ <;> rw [found]
  · simp [EdgeBroken, loose]
  · simp [EdgeBroken, start]
  · have broken : graph.EdgeUnfit edge := ⟨source, member, target, member', own, own', unfit⟩
    simp [EdgeBroken, broken]
  · simp [sound]

theorem length_edgeIssues (unique : graph.UniqueIds) :
    (graph.edgeIssues entry).length = graph.edges.countP fun edge => graph.EdgeBroken entry edge := by
  rw [edgeIssues, List.length_filterMap_eq_countP]
  apply List.countP_congr
  intro edge _
  rw [edgeIssue?_isSome unique, decide_eq_true_iff]

theorem deserves_of_edgeIssue (unique : graph.UniqueIds) (member : edge ∈ graph.edges)
    (found : graph.edgeIssue? entry edge = some issue) : graph.Deserves entry issue := by
  rcases edgeIssue?_cases unique entry edge with
    ⟨loose, same⟩ | ⟨firm, start, same⟩ |
      ⟨source, leaves, target, arrives, own, own', free, unfit, same⟩ | ⟨_, same⟩ <;>
    rw [found] at same <;> cases same
  · exact .edgeDangling member loose
  · exact .edgeIntoEntry member firm start
  · exact .edgeUnfit member leaves arrives own own' free unfit

theorem edgeIssue?_of_loose (unique : graph.UniqueIds) (loose : graph.EdgeLoose edge) :
    graph.edgeIssue? entry edge = some (.edgeDangling edge.id) := by
  rcases edgeIssue?_cases unique entry edge with
    ⟨_, found⟩ | ⟨firm, _⟩ | ⟨source, leaves, target, arrives, own, own', _, unfit, _⟩ | ⟨sound, _⟩
  · exact found
  · exact absurd loose firm
  · exact absurd loose (EdgeUnfit.not_loose ⟨source, leaves, target, arrives, own, own', unfit⟩)
  · exact absurd (.inl loose) sound

theorem edgeIssue?_of_start (unique : graph.UniqueIds) (firm : ¬ graph.EdgeLoose edge)
    (start : entry = some edge.target) :
    graph.edgeIssue? entry edge = some (.edgeRefused edge.id .intoEntry) := by
  rcases edgeIssue?_cases unique entry edge with
    ⟨loose, _⟩ | ⟨_, _, found⟩ | ⟨_, _, _, _, _, _, free, _⟩ | ⟨sound, _⟩
  · exact absurd loose firm
  · exact found
  · exact absurd start free
  · exact absurd (.inr (.inl start)) sound

theorem edgeIssue?_of_unfit (unique : graph.UniqueIds) {source target : Node}
    (leaves : source ∈ graph.nodes) (arrives : target ∈ graph.nodes) (own : source.id = edge.source)
    (own' : target.id = edge.target) (free : entry ≠ some edge.target)
    (unfit : target.kind ∉ source.kind.allowedTargets) :
    graph.edgeIssue? entry edge = some (.edgeRefused edge.id (.targetKind source.kind)) := by
  have apart : graph.EdgeUnfit edge := ⟨source, leaves, target, arrives, own, own', unfit⟩
  rcases edgeIssue?_cases unique entry edge with
    ⟨loose, _⟩ | ⟨_, start, _⟩ | ⟨other, inside, _, _, same, _, _, _, found⟩ | ⟨sound, _⟩
  · exact absurd loose apart.not_loose
  · exact absurd start free
  · obtain rfl := eq_of_id unique inside leaves (same.trans own.symm)
    exact found
  · exact absurd (.inr (.inr apart)) sound

/-! Next steps -/

theorem countP_source (graph : Graph) (id : String) :
    (graph.edges.countP fun edge => edge.source = id) = (graph.outgoing id).length :=
  List.countP_eq_length_filter

theorem nextStepIssue?_eq (graph : Graph) (node : Node) :
    graph.nextStepIssue? node =
      if graph.Overfull node then
        some (.tooManyNextSteps node.id node.kind (graph.edges.countP fun edge => edge.source = node.id))
      else none := by
  have single : node.kind.singleSuccessor = true ↔ node.kind = .action ∨ node.kind = .conditionCheck := by
    cases node.kind <;> simp [NodeKind.singleSuccessor]
  simp only [nextStepIssue?, Overfull, countP_source, single]

theorem length_nextStepIssues (graph : Graph) :
    graph.nextStepIssues.length = graph.nodes.countP fun node => graph.Overfull node := by
  rw [nextStepIssues, List.length_filterMap_eq_countP]
  apply List.countP_congr
  intro node _
  rw [nextStepIssue?_eq]
  split <;> simp_all

theorem mem_nextStepIssues :
    issue ∈ graph.nextStepIssues ↔ ∃ node ∈ graph.nodes, graph.Overfull node ∧
      issue = .tooManyNextSteps node.id node.kind
        (graph.edges.countP fun edge => edge.source = node.id) := by
  simp only [nextStepIssues, List.mem_filterMap, nextStepIssue?_eq, Option.ite_none_right_eq_some,
    Option.some.injEq, @eq_comm _ issue]

/-! Checks -/

theorem length_checkIssues (node : Node) :
    (checkIssues node).length =
      (if node.Checkless then 1 else 0) + node.payload.checks.countP fun check => check.Timeless := by
  have lacks : Check.lacksHours = fun check => decide check.Timeless := rfl
  obtain ⟨id, payload, position⟩ := node
  cases payload with
  | conditionCheck checks =>
    cases checks with
    | nil => rfl
    | cons first rest =>
      simp [checkIssues, Node.Checkless, Payload.checks, List.countP_eq_length_filter, lacks]
  | _ => simp [checkIssues, Node.Checkless, Payload.checks]

theorem mem_checkIssues :
    issue ∈ checkIssues node ↔ (node.Checkless ∧ issue = .noChecks node.id) ∨
      ∃ check ∈ node.payload.checks, check.Timeless ∧ issue = .hoursMissing node.id := by
  have lacks (check : Check) : check.lacksHours = true ↔ check.Timeless := decide_eq_true_iff
  obtain ⟨id, payload, position⟩ := node
  cases payload with
  | conditionCheck checks =>
    cases checks with
    | nil => simp [checkIssues, Node.Checkless, Payload.checks]
    | cons first rest =>
      simp only [checkIssues, Node.Checkless, List.mem_map, List.mem_filter, lacks, Payload.checks,
        Payload.conditionCheck.injEq, reduceCtorEq, false_and, false_or, and_assoc, @eq_comm _ issue]
  | _ => simp [checkIssues, Node.Checkless, Payload.checks]

theorem length_payloadIssues (graph : Graph) :
    graph.payloadIssues.length = (graph.nodes.countP fun node => node.Checkless) +
      (graph.nodes.flatMap fun node => node.payload.checks).countP fun check => check.Timeless := by
  unfold payloadIssues
  induction graph.nodes with
  | nil => rfl
  | cons node rest ih =>
    simp only [List.flatMap_cons, List.length_append, List.countP_append, List.countP_cons, ih,
      length_checkIssues, decide_eq_true_eq]
    omega

/-! All of the lint -/

theorem mem_cycleIssues (unique : graph.UniqueIds) :
    issue ∈ graph.cycleIssues ↔ graph.IsCyclic ∧ issue = .cycle := by
  rw [← hasCycle_iff unique, cycleIssues]
  cases graph.hasCycle <;> simp

theorem cycleIssues_eq_nil (unique : graph.UniqueIds) : graph.cycleIssues = [] ↔ ¬ graph.IsCyclic := by
  rw [← hasCycle_iff unique, cycleIssues]
  cases graph.hasCycle <;> simp

theorem length_cycleIssues (graph : Graph) :
    graph.cycleIssues.length = if graph.cycleIssues = [] then 0 else 1 := by
  unfold cycleIssues
  cases graph.hasCycle <;> rfl

theorem deserves_of_issue (unique : graph.UniqueIds) (listed : issue ∈ graph.issues entry) :
    graph.Deserves entry issue := by
  simp only [issues, localIssues, List.mem_append, mem_nextStepIssues, mem_cycleIssues unique,
    payloadIssues, List.mem_flatMap, mem_checkIssues] at listed
  rcases listed with (((entries | edges) | ⟨node, member, overfull, rfl⟩) |
    ⟨node, member, ⟨checkless, rfl⟩ | ⟨check, asked, timeless, rfl⟩⟩) | ⟨cyclic, rfl⟩
  · exact deserves_of_entryIssue unique entries
  · obtain ⟨edge, member, found⟩ := List.mem_filterMap.mp edges
    exact deserves_of_edgeIssue unique member found
  · exact .tooManyNextSteps member overfull
  · exact .noChecks member checkless
  · exact .hoursMissing member asked timeless
  · exact .cycle cyclic

theorem issue_of_deserves (unique : graph.UniqueIds) (deserved : graph.Deserves entry issue) :
    issue ∈ graph.issues entry := by
  have listed {edge : Edge} (member : edge ∈ graph.edges)
      (found : graph.edgeIssue? entry edge = some issue) : issue ∈ graph.edgeIssues entry :=
    List.mem_filterMap.mpr ⟨edge, member, found⟩
  simp only [issues, localIssues, List.mem_append, mem_nextStepIssues, mem_cycleIssues unique,
    payloadIssues, List.mem_flatMap, mem_checkIssues]
  cases deserved with
  | entryMissing named absent =>
    subst named
    exact .inl (.inl (.inl (.inl (by simp [entryIssues_of_missing absent]))))
  | entryIsCheck member named kind =>
    subst named
    exact .inl (.inl (.inl (.inl (by simp [entryIssues_of_check unique member kind]))))
  | edgeDangling member loose =>
    exact .inl (.inl (.inl (.inr (listed member (edgeIssue?_of_loose unique loose)))))
  | edgeIntoEntry member joined start =>
    exact .inl (.inl (.inl (.inr (listed member (edgeIssue?_of_start unique joined start)))))
  | edgeUnfit member leaves arrives own own' free unfit =>
    exact .inl (.inl (.inl (.inr (listed member
      (edgeIssue?_of_unfit unique leaves arrives own own' free unfit)))))
  | tooManyNextSteps member overfull => exact .inl (.inl (.inr ⟨_, member, overfull, rfl⟩))
  | noChecks member checkless => exact .inl (.inr ⟨_, member, .inl ⟨checkless, rfl⟩⟩)
  | hoursMissing member asked timeless => exact .inl (.inr ⟨_, member, .inr ⟨_, asked, timeless, rfl⟩⟩)
  | cycle cyclic => exact .inr ⟨cyclic, rfl⟩

theorem length_issues (unique : graph.UniqueIds) :
    (graph.issues entry).length =
      (if graph.EntryMisplaced entry then 1 else 0) +
        (graph.edges.countP fun edge => graph.EdgeBroken entry edge) +
        (graph.nodes.countP fun node => graph.Overfull node) +
        (graph.nodes.countP fun node => node.Checkless) +
        ((graph.nodes.flatMap fun node => node.payload.checks).countP fun check => check.Timeless) +
        (if graph.cycleIssues = [] then 0 else 1) := by
  simp only [issues, localIssues, List.length_append, length_entryIssues unique,
    length_edgeIssues unique, length_nextStepIssues, length_payloadIssues,
    ← length_cycleIssues, Nat.add_assoc]

theorem issues_eq_nil (unique : graph.UniqueIds) : graph.issues entry = [] ↔ graph.Flawless entry := by
  rw [← List.length_eq_zero_iff, length_issues unique]
  simp only [Nat.add_eq_zero_iff, ite_eq_right_iff, ite_eq_left_iff, one_ne_zero, imp_false, not_not,
    List.countP_eq_zero, decide_eq_true_eq, List.mem_flatMap, forall_exists_index, and_imp,
    cycleIssues_eq_nil unique]
  constructor
  · rintro ⟨⟨⟨⟨⟨starts, joined⟩, roomy⟩, checked⟩, timed⟩, acyclic⟩
    exact ⟨starts, joined, roomy, checked, fun node member check => timed check node member, acyclic⟩
  · rintro ⟨starts, joined, roomy, checked, timed, acyclic⟩
    exact ⟨⟨⟨⟨⟨starts, joined⟩, roomy⟩, checked⟩, fun check node member => timed node member check⟩, acyclic⟩

theorem ensureValid_eq_ok : graph.ensureValid entry = .ok () ↔ graph.issues entry = [] := by
  unfold ensureValid
  cases graph.issues entry <;> simp [ensureNone]

/-- The lint has as many messages as the graph has defects: one for an entry that is none, one for each broken
edge, one for each node with too many next steps, one for each check without questions and one for each
question without its hours, and one on cycles. Every message is deserved, and what deserves one gets it; the
graph passes exactly if it is free of defects. -/
theorem issues_exact (unique : graph.UniqueIds) (entry : Option String) :
    (graph.messages entry).length =
        (if graph.EntryMisplaced entry then 1 else 0) +
          (graph.edges.countP fun edge => graph.EdgeBroken entry edge) +
          (graph.nodes.countP fun node => graph.Overfull node) +
          (graph.nodes.countP fun node => node.Checkless) +
          ((graph.nodes.flatMap fun node => node.payload.checks).countP fun check => check.Timeless) +
          (if graph.cycleIssues = [] then 0 else 1) ∧
      (∀ issue, issue ∈ graph.issues entry ↔ graph.Deserves entry issue) ∧
      (graph.messages entry = [] ↔ graph.Flawless entry) ∧
      (graph.ensureValid entry = .ok () ↔ graph.Flawless entry) := by
  refine ⟨?_, fun issue => ⟨deserves_of_issue unique, issue_of_deserves unique⟩, ?_, ?_⟩
  · rw [messages, List.length_map, length_issues unique]
  · rw [messages, List.map_eq_nil_iff, issues_eq_nil unique]
  · rw [ensureValid_eq_ok, issues_eq_nil unique]

/-- A graph with a check for its entry, two edges into it, one of them from a check that asks nothing, an edge
to nowhere and one between kinds that do not follow each other, two next steps to the same condition, a cycle,
and two questions without hours. -/
def riddled : Graph where
  nodes :=
    [⟨"tell", .action .default, .origin⟩, ⟨"ask", .condition, .origin⟩,
      ⟨"met", .conditionCheck [⟨.hasTimePassed, true, none⟩, ⟨.isNova, true, none⟩,
        ⟨.hasTimePassed, false, none⟩], .origin⟩, ⟨"idle", .conditionCheck [], .origin⟩]
  edges :=
    [.plain "a" "tell" "ask", .plain "b" "tell" "ask", .plain "c" "ask" "met", .plain "d" "met" "ask",
      .plain "e" "ask" "gone", .plain "f" "idle" "met", .plain "g" "ask" "tell"]

theorem issues_exact_riddled :
    (riddled.messages (some "met")).length = 10 ∧
      Issue.edgeRefused "f" .intoEntry ∈ riddled.issues (some "met") ∧
      riddled.ensureValid (some "met") ≠ .ok () := by
  have unique : riddled.UniqueIds := by
    unfold UniqueIds
    decide
  obtain ⟨count, reported, _, passes⟩ := issues_exact unique (some "met")
  have listed : Edge.plain "f" "idle" "met" ∈ riddled.edges := by decide
  refine ⟨count.trans (by decide +kernel), ?_, ?_⟩
  · exact (reported _).mpr (.edgeIntoEntry listed (by decide) rfl)
  · exact fun passed => (passes.mp passed).starts (by decide)

end Graph

end OutreachFlow
