import OutreachFlow.Proofs.Graph.Kinds
import OutreachFlow.Proofs.Import.Shape
import OutreachFlow.Proofs.Rules.Issues
import OutreachFlow.Proofs.Session.Steps

/-! What all sessions keep that can be reached from the empty one: every change of a session, also
an import, leads from a consistent session to a consistent session. -/
namespace OutreachFlow

namespace Session

/-- Ids name one node each, edges join nodes of the session, nothing leads to the entry, which is
no check, and the edges from a node fit its kind. -/
structure Consistent (session : Session) : Prop where
  unique : session.graph.UniqueIds
  joined : ∀ edge ∈ session.graph.edges,
    session.graph.has edge.source = true ∧ session.graph.has edge.target = true
  starts : ∀ id, session.entry = some id →
    ∃ kind, session.graph.kindAt? id = some kind ∧ kind ≠ .conditionCheck
  untargeted : ∀ edge ∈ session.graph.edges, session.entry ≠ some edge.target
  single : ∀ id kind, session.graph.kindAt? id = some kind → kind.singleSuccessor = true →
    (session.graph.outgoing id).length ≤ 1
  branches : ∀ edge ∈ session.graph.edges, session.graph.kindAt? edge.source = some .condition →
    session.graph.kindAt? edge.target = some .conditionCheck
  apart : session.graph.links.Nodup

variable {session after : Session}

theorem conflict?_eq_none {source target : Node} :
    session.conflict? source target = none ↔
      (∀ edge ∈ session.graph.outgoing source.id, edge.target ≠ target.id) ∧
        (source.kind.singleSuccessor = true → session.graph.outgoing source.id = []) := by
  simp only [conflict?]
  split
  · rename_i again
    obtain ⟨edge, member, same⟩ := List.any_eq_true.mp again
    simp only [reduceCtorEq, false_iff, not_and]
    exact fun apart => absurd (decide_eq_true_eq.mp same) (apart edge member)
  · rename_i new
    have apart : ∀ edge ∈ session.graph.outgoing source.id, edge.target ≠ target.id := by
      simpa using new
    split <;> simp_all

theorem ineligibility?_eq_none {node : Node} {edges : List Edge} :
    ineligibility? node edges = none ↔
      node.kind ≠ .conditionCheck ∧ ∀ edge ∈ edges, edge.target ≠ node.id := by
  unfold ineligibility?
  split
  · simp_all
  · split <;> simp_all

namespace Consistent

theorem empty : Session.empty.Consistent where
  unique := List.nodup_nil
  joined := by simp [Session.empty, Graph.empty]
  starts := by simp [Session.empty]
  untargeted := by simp [Session.empty, Graph.empty]
  single := by simp [Session.empty, Graph.empty, Graph.outgoing]
  branches := by simp [Session.empty, Graph.empty]
  apart := List.nodup_nil

/-- Edges may go, and so may nodes without edges, as long as the entry is still in order. -/
theorem shrink (before : session.Consistent) (unique : after.graph.UniqueIds)
    (fewer : after.graph.edges.Sublist session.graph.edges)
    (kinds : ∀ id kind, after.graph.kindAt? id = some kind → session.graph.kindAt? id = some kind)
    (kept : ∀ edge ∈ after.graph.edges,
      after.graph.kindAt? edge.source = session.graph.kindAt? edge.source ∧
        after.graph.kindAt? edge.target = session.graph.kindAt? edge.target)
    (starts : ∀ id, after.entry = some id →
      ∃ kind, after.graph.kindAt? id = some kind ∧ kind ≠ .conditionCheck)
    (untargeted : ∀ edge ∈ after.graph.edges, after.entry ≠ some edge.target) :
    after.Consistent where
  unique := unique
  joined := by
    intro edge member
    have ends := before.joined edge (fewer.mem member)
    rw [Graph.has_iff_kindAt?, Graph.has_iff_kindAt?] at ends ⊢
    rw [(kept edge member).1, (kept edge member).2]
    exact ends
  starts := starts
  untargeted := untargeted
  single id kind found limited :=
    Nat.le_trans (fewer.filter _).length_le (before.single id kind (kinds id kind found) limited)
  branches := by
    intro edge member
    rw [(kept edge member).1, (kept edge member).2]
    exact before.branches edge (fewer.mem member)
  apart := before.apart.sublist (fewer.map _)

/-- The entry may change alone. -/
theorem withEntry (before : session.Consistent) (entry : Option String)
    (starts : ∀ id, entry = some id →
      ∃ kind, session.graph.kindAt? id = some kind ∧ kind ≠ .conditionCheck)
    (untargeted : ∀ edge ∈ session.graph.edges, entry ≠ some edge.target) :
    Consistent { session with entry := entry } :=
  before.shrink before.unique (List.Sublist.refl _) (fun _ _ found => found) (fun _ _ => ⟨rfl, rfl⟩) starts
    untargeted

theorem withoutEdge (before : session.Consistent) (id : String) :
    (session.withoutEdge id).Consistent := by
  have fewer : (session.withoutEdge id).graph.edges.Sublist session.graph.edges :=
    List.eraseP_sublist
  exact before.shrink before.unique fewer (fun _ _ found => found) (fun _ _ => ⟨rfl, rfl⟩)
    before.starts fun edge member => before.untargeted edge (fewer.mem member)

theorem replace (before : session.Consistent) {old new : Node}
    (found : session.graph.node? old.id = some old) (same : new.id = old.id)
    (kind : new.kind = old.kind) :
    Consistent { session with graph := session.graph.replace new } := by
  have kinds (id : String) : (session.graph.replace new).kindAt? id = session.graph.kindAt? id :=
    Graph.kindAt?_replace found same kind
  have unique : (session.graph.replace new).UniqueIds := by
    rw [Graph.UniqueIds, Graph.replace_ids]
    exact before.unique
  refine before.shrink unique (List.Sublist.refl _) ?_ ?_ ?_ before.untargeted
  · intro id kind found
    rwa [kinds] at found
  · intro edge _
    exact ⟨kinds edge.source, kinds edge.target⟩
  · intro id entry
    rw [kinds]
    exact before.starts id entry

theorem withoutNode (before : session.Consistent) (id : String) :
    (session.withoutNode id).Consistent := by
  have fewer : (session.withoutNode id).graph.edges.Sublist session.graph.edges :=
    List.filter_sublist
  have kinds (other : String) : (session.withoutNode id).graph.kindAt? other =
      if other = id then none else session.graph.kindAt? other := Graph.kindAt?_erase
  have ends : ∀ edge ∈ (session.withoutNode id).graph.edges, edge.source ≠ id ∧ edge.target ≠ id := by
    intro edge member
    simpa using (List.mem_filter.mp member).2
  have entries (other : String) (entry : (session.withoutNode id).entry = some other) :
      session.entry = some other ∧ other ≠ id := by
    unfold Session.withoutNode isEntry at entry
    by_cases own : session.entry = some id
    · simp [own] at entry
    · simp only [own, decide_false, Bool.false_eq_true, if_false] at entry
      exact ⟨entry, fun same => own (same ▸ entry)⟩
  refine before.shrink (before.unique.sublist (List.filter_sublist.map Node.id)) fewer ?_ ?_ ?_ ?_
  · intro other kind found
    rw [kinds] at found
    split at found
    · contradiction
    · exact found
  · intro edge member
    obtain ⟨source, target⟩ := ends edge member
    rw [kinds, kinds, if_neg source, if_neg target]
    exact ⟨rfl, rfl⟩
  · intro other entry
    obtain ⟨entry, apart⟩ := entries other entry
    rw [kinds, if_neg apart]
    exact before.starts other entry
  · intro edge member entry
    exact before.untargeted edge (fewer.mem member) (entries _ entry).1

/-- A new node has no edges, since edges join nodes that are there. -/
theorem withNode (before : session.Consistent) {node : Node}
    (fresh : session.graph.has node.id = false) : (session.withNode node).Consistent := by
  have kinds (id : String) : (session.withNode node).graph.kindAt? id =
      if id = node.id then some node.kind else session.graph.kindAt? id :=
    Graph.kindAt?_append fresh
  have known {id : String} (present : session.graph.has id = true) : id ≠ node.id := by
    rintro rfl
    rw [fresh] at present
    contradiction
  have kept {id : String} (present : session.graph.has id = true) :
      (session.withNode node).graph.kindAt? id = session.graph.kindAt? id := by
    rw [kinds, if_neg (known present)]
  have grown {id : String} (present : session.graph.has id = true) :
      (session.withNode node).graph.has id = true := by
    rw [Graph.has_iff_kindAt?, kept present, ← Graph.has_iff_kindAt?]
    exact present
  refine ⟨?_, ?_, ?_, before.untargeted, ?_, ?_, before.apart⟩
  · have absent : node.id ∉ session.graph.nodes.map Node.id := by
      intro member
      obtain ⟨other, inside, same⟩ := List.mem_map.mp member
      exact Bool.eq_false_iff.mp fresh (Graph.has_eq_true.mpr ⟨other, inside, same⟩)
    rw [Graph.UniqueIds, Session.withNode, List.map_append]
    apply before.unique.append (List.nodup_singleton _)
    intro id member own
    obtain rfl := List.mem_singleton.mp own
    exact absent member
  · intro edge member
    obtain ⟨source, target⟩ := before.joined edge member
    exact ⟨grown source, grown target⟩
  · intro id entry
    obtain ⟨kind, found, other⟩ := before.starts id entry
    rw [kept (Graph.has_iff_kindAt?.mpr ⟨kind, found⟩)]
    exact ⟨kind, found, other⟩
  · intro id kind found limited
    rw [kinds] at found
    split at found
    · rename_i same
      -- An edge from the new node would join a node that is not there.
      have none : session.graph.outgoing id = [] := by
        rw [Graph.outgoing, List.filter_eq_nil_iff]
        intro edge member source
        exact known (before.joined edge member).1 ((decide_eq_true_eq.mp source).trans same)
      change (session.graph.outgoing id).length ≤ 1
      rw [none]
      exact Nat.zero_le 1
    · exact before.single id kind found limited
  · intro edge member
    obtain ⟨source, target⟩ := before.joined edge member
    rw [kept source, kept target]
    exact before.branches edge member

theorem addEdge (before : session.Consistent) {edge : Edge} {source target : Node}
    (leaves : session.graph.node? edge.source = some source)
    (arrives : session.graph.node? edge.target = some target)
    (allowed : refusal? source target session.entry = none)
    (room : session.conflict? source target = none) : (session.addEdge edge).Consistent := by
  obtain ⟨start, fits⟩ := refusal?_eq_none.mp allowed
  obtain ⟨new, free⟩ := conflict?_eq_none.mp room
  have own : source.id = edge.source := id_of_node? leaves
  have other : target.id = edge.target := id_of_node? arrives
  have kind : session.graph.kindAt? edge.source = some source.kind := congrArg _ leaves
  have kind' : session.graph.kindAt? edge.target = some target.kind := congrArg _ arrives
  have split {edge' : Edge} (member : edge' ∈ (session.addEdge edge).graph.edges) :
      edge' ∈ session.graph.edges ∨ edge' = edge := by
    simpa [Session.addEdge] using member
  refine ⟨before.unique, ?_, before.starts, ?_, ?_, ?_, ?_⟩
  · intro edge' member
    rcases split member with old | rfl
    · exact before.joined edge' old
    · exact ⟨Graph.has_iff_kindAt?.mpr ⟨_, kind⟩, Graph.has_iff_kindAt?.mpr ⟨_, kind'⟩⟩
  · intro edge' member
    rcases split member with old | rfl
    · exact before.untargeted edge' old
    · exact other ▸ start
  · intro id other' found limited
    have outgoing : (session.addEdge edge).graph.outgoing id =
        session.graph.outgoing id ++ if edge.source = id then [edge] else [] := by
      simp [Session.addEdge, Graph.outgoing, List.filter_append, List.filter_singleton]
    rw [outgoing]
    split
    · rename_i same
      -- The source had no edge before, or it would have been refused.
      rw [← same] at found ⊢
      obtain rfl := Option.some.inj (kind.symm.trans found)
      rw [← own, free limited]
      exact Nat.le_refl 1
    · rw [List.append_nil]
      exact before.single id other' found limited
  · intro edge' member condition
    rcases split member with old | rfl
    · exact before.branches edge' old condition
    · have shape := Option.some.inj (kind.symm.trans condition)
      rw [shape] at fits
      exact kind'.trans (congrArg some (List.mem_singleton.mp fits))
  · have links : (session.addEdge edge).graph.links =
        session.graph.links ++ [(edge.source, edge.target)] := List.map_append
    rw [links]
    apply before.apart.append (List.nodup_singleton _)
    intro link old same
    obtain rfl := List.mem_singleton.mp same
    obtain ⟨edge', member, pair⟩ := List.mem_map.mp old
    obtain ⟨from', to'⟩ := Prod.mk.inj pair
    refine new edge' (List.mem_filter.mpr ⟨member, ?_⟩) (to'.trans other.symm)
    exact decide_eq_true (from'.trans own.symm)

theorem start (before : session.Consistent) {node : Node}
    (member : session.graph.node? node.id = some node)
    (eligible : ineligibility? node (session.graph.incoming node.id) = none) :
    Consistent { session with entry := some node.id } := by
  obtain ⟨kind, free⟩ := ineligibility?_eq_none.mp eligible
  apply before.withEntry
  · intro id entry
    obtain rfl := Option.some.inj entry
    exact ⟨node.kind, congrArg _ member, kind⟩
  · intro edge inside entry
    have same : edge.target = node.id := (Option.some.inj entry).symm
    exact free edge (List.mem_filter.mpr ⟨inside, decide_eq_true same⟩) same

/-- An imported flow without its stray edges. -/
theorem load {form : Json} {flow : Flow} (imported : Flow.ofJson form = .ok flow) :
    Consistent ⟨cleaned flow, some flow.entry⟩ := by
  obtain ⟨_, saved, descriptors, _, _, unfoldable, rfl⟩ := Flow.ofJson_eq_ok.mp imported
  have distinct := unfoldable.distinct
  have unique : (Flow.unfold saved descriptors).toGraph.UniqueIds := unfold_unique distinct
  let graph := (Flow.unfold saved descriptors).toGraph
  have fewer : (cleaned (Flow.unfold saved descriptors)).edges.Sublist graph.edges :=
    List.filter_sublist
  have stays {edge : Edge} (member : edge ∈ (cleaned (Flow.unfold saved descriptors)).edges) :
      edge ∈ graph.edges ∧ edge.target ≠ (Flow.unfold saved descriptors).entry ∧
        graph.has edge.target = true := by
    obtain ⟨inside, passes⟩ := List.mem_filter.mp member
    exact ⟨inside, by simpa using passes⟩
  have linked {edge : Edge} (member : edge ∈ graph.edges) : (edge.source, edge.target) ∈ graph.links :=
    List.mem_map_of_mem member
  refine ⟨unique, ?_, ?_, ?_, ?_, ?_, ?_⟩
  · intro edge member
    obtain ⟨inside, _, target⟩ := stays member
    refine ⟨?_, target⟩
    have source := linked inside
    rw [unfold_links] at source
    have known := source_mem_unfoldedIds source
    rw [← unfoldedNodes_ids saved 0 descriptors, ← unfold_nodes] at known
    exact Graph.has_eq_true.mpr (List.mem_map.mp known)
  · intro id entry
    obtain ⟨first, rest, rfl, kind⟩ := unfoldable.eq_cons
    obtain rfl := Option.some.inj entry
    refine ⟨first.kind, ?_, kind⟩
    have slotted : (first, 0) ∈ (first :: rest).zipIdx := by simp
    have listed : first.primary saved 0 ∈ graph.nodes := node_mem_unfold slotted List.mem_cons_self
    have own : (first.primary saved 0).kind = first.kind := first.payload_kind
    rw [← own]
    exact Graph.kindAt?_of_mem unique listed
  · intro edge member entry
    exact (stays member).2.1 (Option.some.inj entry).symm
  · intro id kind found limited
    obtain ⟨node, inside, rfl, rfl⟩ := (Graph.kindAt?_eq_some unique).mp found
    have short := unfold_single distinct inside limited
    rw [Graph.length_targets] at short
    exact Nat.le_trans (fewer.filter _).length_le short
  · intro edge member condition
    obtain ⟨node, inside, same, kind⟩ := unfold_branches distinct (linked (stays member).1)
      ((Graph.isCondition_iff_kindAt? unique).mpr condition)
    exact (Graph.kindAt?_eq_some unique).mpr ⟨node, inside, same, kind⟩
  · exact (unfold_links_nodup distinct).sublist (fewer.map _)

theorem step {workspace : Workspace} {command : Command}
    (before : workspace.session.Consistent) (change : Step workspace command after) :
    after.Consistent := by
  cases change with
  | same => exact before
  | add fresh _ => exact before.withNode fresh
  | replace found same kind => exact before.replace found same kind
  | erase id => exact before.withoutNode id
  | connect leaves arrives allowed room _ => exact before.addEdge leaves arrives allowed room
  | disconnect id => exact before.withoutEdge id
  | start member eligible => exact before.start member eligible
  | clear => exact before.withEntry none (by simp) (by simp)
  | reset => exact .empty
  | load imported _ => exact .load imported

end Consistent

/-! Ids of edges -/

theorem edgeIds_load {form : Json} {flow : Flow} (imported : Flow.ofJson form = .ok flow) :
    ((cleaned flow).edges.map Edge.id).Nodup := by
  obtain ⟨_, saved, descriptors, _, _, _, rfl⟩ := Flow.ofJson_eq_ok.mp imported
  have fewer : (cleaned (Flow.unfold saved descriptors)).edges.Sublist
      (Flow.unfold saved descriptors).edges := List.filter_sublist
  rw [unfold_edges] at fewer
  exact (numbered_ids_nodup 0 _).sublist (fewer.map _)

/-- Requested edge ids are refused when they are in use, so only drawn ones could clash. -/
theorem edgeIds_step {workspace : Workspace} {command : Command}
    (before : (workspace.session.graph.edges.map Edge.id).Nodup)
    (unused : workspace.DrawsUnused command) (change : Step workspace command after) :
    (after.graph.edges.map Edge.id).Nodup := by
  cases change with
  | same | add | replace | start | clear => exact before
  | erase id => exact before.sublist (List.filter_sublist.map _)
  | disconnect id => exact before.sublist (List.eraseP_sublist.map _)
  | reset => exact List.nodup_nil
  | load imported _ => exact edgeIds_load imported
  | @connect edge _ _ _ _ _ _ free =>
    have new : ∀ other ∈ workspace.session.graph.edges, other.id ≠ edge.id :=
      free.elim (unused edge.id) fun others => others
    rw [addEdge, List.map_append]
    apply before.append (List.nodup_singleton _)
    intro id old same
    obtain rfl := List.mem_singleton.mp same
    obtain ⟨other, member, clash⟩ := List.mem_map.mp old
    exact new other member clash

end Session

/-! Runs -/

theorem Workspace.consistent_runAll {workspace : Workspace} (before : workspace.session.Consistent)
    (commands : List Command) : (workspace.runAll commands).session.Consistent :=
  runAll_keeps (fun reached => reached.session.Consistent) before fun _ _ reached =>
    reached.step (step_of_run _ _)

theorem Workspace.consistent_of_runAll (ids : Supply) (commands : List Command) :
    (runAll ⟨.empty, ids⟩ commands).session.Consistent :=
  consistent_runAll Session.Consistent.empty commands

/-- Every session that can be reached from the empty one, by whatever commands, faults included, is
consistent; and if no drawn edge id was in use when it was drawn, no two edges share an id. -/
theorem Workspace.runAll_consistent (ids : Supply) (commands : List Command) :
    (runAll ⟨.empty, ids⟩ commands).session.Consistent ∧
      ((∀ index (bound : index < commands.length),
          (runAll ⟨.empty, ids⟩ (commands.take index)).DrawsUnused commands[index]) →
        ((runAll ⟨.empty, ids⟩ commands).session.graph.edges.map Edge.id).Nodup) := by
  constructor
  · exact consistent_of_runAll ids commands
  · intro unused
    apply runAll_keeps (fun workspace => (workspace.session.graph.edges.map Edge.id).Nodup)
    · exact List.nodup_nil
    · intro index bound before
      exact Session.edgeIds_step before (unused index bound) (step_of_run _ _)

/-- A condition with a check, joined twice: the second attempt is refused. -/
def branchCommands : List Command :=
  [.addNode (.str "condition") (some "ask") none none, .addNode (.str "condition_check") none none none,
    .connect "ask" "u0" none .null .null, .connect "ask" "u0" none .null .null, .setEntry "ask"]

/-- Numbered fresh ids. -/
def Supply.counted : Supply := ⟨fun count => "u" ++ toString count, 0⟩

theorem Workspace.runAll_branchCommands :
    (runAll ⟨.empty, .counted⟩ branchCommands).session.Consistent ∧
      (runAll ⟨.empty, .counted⟩ branchCommands).session.graph.edges =
        [.plain "edge-u1" "ask" "u0"] ∧
      ((runAll ⟨.empty, .counted⟩ branchCommands).session.graph.edges.map Edge.id).Nodup := by
  have both := runAll_consistent .counted branchCommands
  refine ⟨both.1, by decide +kernel, both.2 ?_⟩
  unfold DrawsUnused
  decide +kernel

end OutreachFlow
