import OutreachFlow.Proofs.Plan.NextSteps
import OutreachFlow.Proofs.Session.Invariant

/-! Which sessions respect the connection rules. Editing keeps every edge to the rules, but an import
brings edges of its own: it leaves out those to nowhere and those into the entry and does not ask
whether the others join nodes of fitting kinds. A run respects the rules all the way exactly if every
form that it imports has fitting next steps. -/
namespace OutreachFlow

/-! Kinds at the ends of edges -/

theorem Graph.linksFit_iff {graph : Graph} (unique : graph.UniqueIds) :
    graph.LinksFit ↔ ∀ link ∈ graph.links, ∃ kind other, graph.kindAt? link.1 = some kind ∧
      graph.kindAt? link.2 = some other ∧ other ∈ kind.allowedTargets := by
  constructor
  · intro fit link member
    obtain ⟨source, inside, target, inside', leaves, arrives, allowed⟩ := fit link member
    exact ⟨_, _, leaves ▸ kindAt?_of_mem unique inside, arrives ▸ kindAt?_of_mem unique inside',
      allowed⟩
  · intro fit link member
    obtain ⟨_, _, leaves, arrives, allowed⟩ := fit link member
    obtain ⟨source, inside, same, rfl⟩ := (kindAt?_eq_some unique).mp leaves
    obtain ⟨target, inside', same', rfl⟩ := (kindAt?_eq_some unique).mp arrives
    exact ⟨source, inside, target, inside', same, same', allowed⟩

/-- Edges may go, and so may whatever the remaining ones do not join. -/
theorem Graph.LinksFit.shrink {graph after : Graph} (fit : graph.LinksFit) (unique : graph.UniqueIds)
    (unique' : after.UniqueIds) (fewer : after.links ⊆ graph.links)
    (kept : ∀ link ∈ after.links, after.kindAt? link.1 = graph.kindAt? link.1 ∧
      after.kindAt? link.2 = graph.kindAt? link.2) : after.LinksFit := by
  rw [linksFit_iff unique] at fit
  rw [linksFit_iff unique']
  intro link member
  rw [(kept link member).1, (kept link member).2]
  exact fit link (fewer member)

/-! Next steps of imported forms -/

/-- Every next step that names a node of the plan other than its entry names a descriptor of a kind
that may follow there. -/
def StepsFit (descriptors : List Descriptor) : Prop :=
  ∀ descriptor ∈ descriptors, ∀ next ∈ descriptor.nextSteps, next ∈ unfoldedIds descriptors →
    descriptors.head?.map Descriptor.id ≠ some next →
      ∃ target ∈ descriptors, target.id = next ∧ target.kind ∈ descriptor.stepKind.allowedTargets

/-- The descriptors of a form that can be imported have fitting next steps. -/
def Json.NextStepsFit (form : Json) : Prop :=
  ∀ values saved descriptors, Flow.unwrap form = .ok (values, saved) →
    values.mapM Descriptor.read? = some descriptors → Unfoldable saved descriptors →
      StepsFit descriptors

section Unfolded

variable {saved : Fields} {descriptors : List Descriptor} {descriptor : Descriptor}

theorem kindAt?_primary (distinct : (unfoldedIds descriptors).Nodup)
    (member : descriptor ∈ descriptors) :
    (Flow.unfold saved descriptors).toGraph.kindAt? descriptor.id = some descriptor.kind := by
  obtain ⟨slot, inside⟩ := mem_slot member
  have node : descriptor.primary saved slot ∈ (Flow.unfold saved descriptors).toGraph.nodes :=
    node_mem_unfold inside List.mem_cons_self
  have kind : (descriptor.primary saved slot).kind = descriptor.kind := descriptor.payload_kind
  rw [← kind]
  exact Graph.kindAt?_of_mem (unfold_unique distinct) node

theorem kindAt?_branch (distinct : (unfoldedIds descriptors).Nodup)
    (member : descriptor ∈ descriptors) {entry : Branch × Nat}
    (branch : entry ∈ descriptor.branches.zipIdx) :
    (Flow.unfold saved descriptors).toGraph.kindAt? (checkNodeId descriptor.id entry.2) =
      some .conditionCheck := by
  obtain ⟨slot, inside⟩ := mem_slot member
  exact Graph.kindAt?_of_mem (unfold_unique distinct) (node_mem_unfold inside
    (List.mem_cons_of_mem _ (Descriptor.mem_branchNodes.mpr ⟨entry, branch, rfl⟩)))

/-- Nodes that are no checks have descriptors. -/
theorem descriptor_of_kindAt? (distinct : (unfoldedIds descriptors).Nodup) {id : String}
    {kind : NodeKind} (found : (Flow.unfold saved descriptors).toGraph.kindAt? id = some kind)
    (other : kind ≠ .conditionCheck) :
    ∃ descriptor ∈ descriptors, descriptor.id = id ∧ descriptor.kind = kind := by
  obtain ⟨node, inside, rfl, rfl⟩ := (Graph.kindAt?_eq_some (unfold_unique distinct)).mp found
  rw [Flow.toGraph, unfold_nodes] at inside
  obtain ⟨entry, slotted, inside⟩ := mem_unfoldedNodes.mp inside
  rcases List.mem_cons.mp inside with rfl | branch
  · exact ⟨entry.1, List.fst_mem_of_mem_zipIdx slotted, rfl, entry.1.payload_kind.symm⟩
  · obtain ⟨_, _, rfl⟩ := Descriptor.mem_branchNodes.mp branch
    exact absurd rfl other

/-- A link leads from a condition to the check of a branch, or to a next step. -/
theorem unfoldedLinks_cases (distinct : (unfoldedIds descriptors).Nodup) {link : String × String}
    (member : link ∈ unfoldedLinks descriptors) :
    ((Flow.unfold saved descriptors).toGraph.kindAt? link.1 = some .condition ∧
      (Flow.unfold saved descriptors).toGraph.kindAt? link.2 = some .conditionCheck) ∨
    ∃ descriptor ∈ descriptors, link.2 ∈ descriptor.nextSteps ∧
      (Flow.unfold saved descriptors).toGraph.kindAt? link.1 = some descriptor.stepKind := by
  obtain ⟨descriptor, listed, inside⟩ := List.mem_flatMap.mp member
  rcases List.mem_append.mp inside with own | branches
  · obtain ⟨next, follows, rfl⟩ := List.mem_map.mp own
    have step : descriptor.next = some next := Option.mem_toList.mp follows
    refine .inr ⟨descriptor, listed, Descriptor.mem_nextSteps.mpr (.inl step), ?_⟩
    rw [Descriptor.stepKind_of_next step]
    exact kindAt?_primary distinct listed
  · obtain ⟨entry, branch, leads⟩ := List.mem_flatMap.mp branches
    have kind : descriptor.kind = .condition :=
      Descriptor.kind_of_branch (List.fst_mem_of_mem_zipIdx branch)
    rcases List.mem_cons.mp leads with rfl | behind
    · refine .inl ⟨?_, kindAt?_branch distinct listed branch⟩
      rw [← kind]
      exact kindAt?_primary distinct listed
    · obtain ⟨next, follows, rfl⟩ := List.mem_map.mp behind
      refine .inr ⟨descriptor, listed, Descriptor.mem_nextSteps.mpr
        (.inr ⟨entry.1, List.fst_mem_of_mem_zipIdx branch, Option.mem_toList.mp follows⟩), ?_⟩
      rw [Descriptor.stepKind_of_condition kind]
      exact kindAt?_branch distinct listed branch

/-- Every next step has its link. -/
theorem unfoldedLink_of_nextStep (distinct : (unfoldedIds descriptors).Nodup)
    (member : descriptor ∈ descriptors) {next : String} (step : next ∈ descriptor.nextSteps) :
    ∃ source, (source, next) ∈ unfoldedLinks descriptors ∧
      (Flow.unfold saved descriptors).toGraph.kindAt? source = some descriptor.stepKind := by
  rcases Descriptor.mem_nextSteps.mp step with own | ⟨branch, inside, follows⟩
  · refine ⟨descriptor.id, List.mem_flatMap.mpr ⟨descriptor, member, List.mem_append_left _ ?_⟩, ?_⟩
    · exact List.mem_map.mpr ⟨next, Option.mem_toList.mpr own, rfl⟩
    · rw [Descriptor.stepKind_of_next own]
      exact kindAt?_primary distinct member
  · obtain ⟨entry, placed, rfl⟩ : ∃ entry ∈ descriptor.branches.zipIdx, entry.1 = branch := by
      rwa [← List.mem_map, List.zipIdx_map_fst]
    refine ⟨checkNodeId descriptor.id entry.2,
      List.mem_flatMap.mpr ⟨descriptor, member, List.mem_append_right _ ?_⟩, ?_⟩
    · have behind : (checkNodeId descriptor.id entry.2, next) ∈
          entry.1.links descriptor.id entry.2 := by
        simp [Branch.links, follows]
      exact List.mem_flatMap.mpr ⟨entry, placed, behind⟩
    · rw [Descriptor.stepKind_of_condition (Descriptor.kind_of_branch inside)]
      exact kindAt?_branch distinct member placed

/-! Cleaned imports -/

theorem mem_cleaned_links {flow : Flow} {link : String × String} :
    link ∈ (Session.cleaned flow).links ↔
      link ∈ flow.toGraph.links ∧ link.2 ≠ flow.entry ∧ flow.toGraph.has link.2 = true := by
  simp only [Graph.links, Session.cleaned, Flow.toGraph, List.mem_map, List.mem_filter]
  constructor
  · rintro ⟨edge, ⟨inside, passes⟩, rfl⟩
    exact ⟨⟨edge, inside, rfl⟩, of_decide_eq_true passes⟩
  · rintro ⟨⟨edge, inside, rfl⟩, passes⟩
    exact ⟨edge, ⟨inside, decide_eq_true passes⟩, rfl⟩

theorem has_unfold {id : String} :
    (Flow.unfold saved descriptors).toGraph.has id = true ↔ id ∈ unfoldedIds descriptors := by
  rw [Graph.has_eq_true, ← List.mem_map, Flow.toGraph, unfold_nodes, unfoldedNodes_ids]

theorem ne_entry_unfold (unfoldable : Unfoldable saved descriptors) {id : String} :
    id ≠ (Flow.unfold saved descriptors).entry ↔ descriptors.head?.map Descriptor.id ≠ some id := by
  obtain ⟨first, rest, rfl, _⟩ := unfoldable.eq_cons
  change id ≠ first.id ↔ some first.id ≠ some id
  rw [Ne, Ne, Option.some.injEq, eq_comm]

/-- What is left of an import are the links to its nodes other than the entry. -/
theorem mem_cleaned_unfold (unfoldable : Unfoldable saved descriptors) {link : String × String} :
    link ∈ (Session.cleaned (Flow.unfold saved descriptors)).links ↔
      link ∈ unfoldedLinks descriptors ∧ descriptors.head?.map Descriptor.id ≠ some link.2 ∧
        link.2 ∈ unfoldedIds descriptors := by
  rw [mem_cleaned_links, unfold_links, has_unfold, ne_entry_unfold unfoldable]

/-- What is left of an import respects the rules exactly if its next steps fit. -/
theorem cleaned_linksFit_iff (unfoldable : Unfoldable saved descriptors) :
    (Session.cleaned (Flow.unfold saved descriptors)).LinksFit ↔ StepsFit descriptors := by
  have distinct := unfoldable.distinct
  have unique : (Session.cleaned (Flow.unfold saved descriptors)).UniqueIds := unfold_unique distinct
  -- Edges are left out and no nodes, so kinds are those of the imported flow.
  have kinds (id : String) : (Session.cleaned (Flow.unfold saved descriptors)).kindAt? id =
      (Flow.unfold saved descriptors).toGraph.kindAt? id := rfl
  rw [Graph.linksFit_iff unique]
  simp only [mem_cleaned_unfold unfoldable, kinds]
  constructor
  · intro fit descriptor listed next step inside apart
    obtain ⟨source, link, leaves⟩ := unfoldedLink_of_nextStep distinct listed step
    obtain ⟨kind, other, leaves', arrives, allowed⟩ := fit (source, next) ⟨link, apart, inside⟩
    obtain rfl := Option.some.inj (leaves.symm.trans leaves')
    have stands : other ≠ .conditionCheck := by
      rcases Descriptor.kind_of_allowed allowed with rfl | rfl <;> decide
    obtain ⟨target, listed', same, rfl⟩ := descriptor_of_kindAt? distinct arrives stands
    exact ⟨target, listed', same, allowed⟩
  · rintro fit link ⟨inside, apart, arrives⟩
    rcases unfoldedLinks_cases distinct inside with
      ⟨condition, check⟩ | ⟨descriptor, listed, step, leaves⟩
    · exact ⟨_, _, condition, check, by decide⟩
    · obtain ⟨target, listed', same, allowed⟩ := fit descriptor listed link.2 step arrives apart
      exact ⟨_, _, leaves, same ▸ kindAt?_primary distinct listed', allowed⟩

end Unfolded

theorem Session.cleaned_linksFit {form : Json} {flow : Flow}
    (imported : Flow.ofJson form = .ok flow) :
    (cleaned flow).LinksFit ↔ form.NextStepsFit := by
  obtain ⟨values, saved, descriptors, unwrapped, read, unfoldable, rfl⟩ :=
    Flow.ofJson_eq_ok.mp imported
  rw [cleaned_linksFit_iff unfoldable]
  constructor
  · intro fit values' saved' descriptors' unwrapped' read' _
    obtain ⟨rfl, rfl⟩ := Prod.mk.inj (Except.ok.inj (unwrapped.symm.trans unwrapped'))
    obtain rfl := Option.some.inj (read.symm.trans read')
    exact fit
  · intro fit
    exact fit values saved descriptors unwrapped read unfoldable

/-! Compiled plans -/

theorem Descriptor.id_of_read_toJson {descriptor other : Descriptor}
    (read : read? descriptor.toJson = some other) : descriptor.id ≠ "" := by
  rintro empty
  simp [read?, toJson, Node.idOf?, Fields.valueOf, empty] at read

/-- A plan of a graph that respects the rules has fitting next steps. If it can be read at all, none
of its nodes is unnamed, and it is read as it was. -/
theorem Graph.compile_nextStepsFit {graph : Graph} {entry : Option String} (unique : graph.UniqueIds)
    (fit : graph.LinksFit) : (graph.compile entry).toJson.NextStepsFit := by
  intro values saved descriptors unwrapped read _
  rw [Flow.unwrap_toJson, Except.ok.injEq, Prod.mk.injEq] at unwrapped
  obtain ⟨rfl, rfl⟩ := unwrapped
  have ids : ∀ descriptor ∈ (graph.compile entry).descriptors, descriptor.id ≠ "" := by
    intro descriptor member
    obtain ⟨_, found⟩ := exists_mapM_some.mp ⟨_, read⟩ _ (List.mem_map_of_mem member)
    exact Descriptor.id_of_read_toJson found
  have steps : ∀ descriptor ∈ (graph.compile entry).descriptors, "" ∉ descriptor.nextSteps := by
    intro descriptor member step
    obtain ⟨target, listed, same, _⟩ := nextStep_listed unique fit member step
    exact ids target listed same
  have named : ∀ descriptor ∈ (graph.compile entry).descriptors, descriptor.Named :=
    fun descriptor member =>
      ⟨ids descriptor member,
        fun empty => steps descriptor member (Descriptor.mem_nextSteps.mpr (.inl empty)),
        fun branch inside empty => steps descriptor member
          (Descriptor.mem_nextSteps.mpr (.inr ⟨branch, inside, empty⟩))⟩
  have back : ((graph.compile entry).descriptors.map Descriptor.toJson).mapM Descriptor.read? =
      some (graph.compile entry).descriptors :=
    mapM_map_inverse fun descriptor member => Descriptor.read?_toJson (named descriptor member)
  obtain rfl := Option.some.inj (back.symm.trans read)
  intro descriptor member next step _ _
  exact nextStep_listed unique fit member step

/-! Changes -/

namespace Session

variable {session after : Session}

/-- Every edge joins two nodes that the rules let it join, and does not lead into the entry. -/
def Connectable (session : Session) : Prop :=
  ∀ edge ∈ session.graph.edges, ∃ source target, session.graph.node? edge.source = some source ∧
    session.graph.node? edge.target = some target ∧ canConnect source target session.entry = true

theorem connectable_iff (consistent : session.Consistent) :
    session.Connectable ↔ session.graph.LinksFit := by
  have unique := consistent.unique
  simp only [Connectable, canConnect, Option.isNone_iff_eq_none, refusal?_eq_none,
    Graph.node?_eq_some unique]
  constructor
  · intro connects link member
    obtain ⟨edge, inside, rfl⟩ := List.mem_map.mp member
    obtain ⟨source, target, ⟨left, leaves⟩, ⟨right, arrives⟩, _, allowed⟩ := connects edge inside
    exact ⟨source, left, target, right, leaves, arrives, allowed⟩
  · intro fit edge inside
    obtain ⟨source, left, target, right, leaves, arrives, allowed⟩ :=
      fit _ (List.mem_map_of_mem inside)
    have apart : session.entry ≠ some target.id := arrives ▸ consistent.untargeted edge inside
    exact ⟨source, target, ⟨left, leaves⟩, ⟨right, arrives⟩, apart, allowed⟩

/-- Every change but an import keeps to the rules, and an import does if its next steps fit. -/
theorem linksFit_step {workspace : Workspace} {command : Command}
    (consistent : workspace.session.Consistent) (before : workspace.session.graph.LinksFit)
    (imports : ∀ form, workspace.importedForm? command = some form → form.NextStepsFit)
    (change : Step workspace command after) : after.graph.LinksFit := by
  have unique := consistent.unique
  have unique' : after.graph.UniqueIds := (consistent.step change).unique
  cases change with
  | same | start | clear => exact before
  | reset => exact fun link member => absurd member List.not_mem_nil
  | load imported asked => exact (cleaned_linksFit imported).mpr (imports _ asked)
  | replace found same kind =>
    exact before.shrink unique unique' (fun _ member => member) fun link _ =>
      ⟨Graph.kindAt?_replace found same kind, Graph.kindAt?_replace found same kind⟩
  | disconnect id =>
    exact before.shrink unique unique' (List.eraseP_sublist.map _).subset fun _ _ => ⟨rfl, rfl⟩
  | erase id =>
    refine before.shrink unique unique' (List.filter_sublist.map _).subset ?_
    intro link member
    obtain ⟨edge, inside, rfl⟩ := List.mem_map.mp member
    obtain ⟨source, target⟩ : edge.source ≠ id ∧ edge.target ≠ id := by
      simpa using (List.mem_filter.mp inside).2
    exact ⟨Graph.kindAt?_erase.trans (if_neg source), Graph.kindAt?_erase.trans (if_neg target)⟩
  | @add node fresh _ =>
    refine before.shrink unique unique' (fun _ member => member) ?_
    intro link member
    obtain ⟨source, inside, target, inside', leaves, arrives, _⟩ := before link member
    -- A node that an edge joins is known, so it is not the new one.
    have known {other : Node} (present : other ∈ workspace.session.graph.nodes) :
        other.id ≠ node.id := fun same => Bool.eq_false_iff.mp fresh (Graph.has_eq_true.mpr ⟨other, present, same⟩)
    rw [← leaves, ← arrives]
    exact ⟨(Graph.kindAt?_append fresh).trans (if_neg (known inside)),
      (Graph.kindAt?_append fresh).trans (if_neg (known inside'))⟩
  | @connect edge source target leaves arrives allowed _ _ =>
    intro link member
    have either : link ∈ workspace.session.graph.links ∨ link = (edge.source, edge.target) := by
      simpa [Session.addEdge, Graph.links] using member
    rcases either with old | rfl
    · exact before link old
    · obtain ⟨inside, same⟩ := (Graph.node?_eq_some unique).mp leaves
      obtain ⟨inside', same'⟩ := (Graph.node?_eq_some unique).mp arrives
      exact ⟨source, inside, target, inside', same, same', (refusal?_eq_none.mp allowed).2⟩

end Session

/-! Runs -/

namespace Workspace

theorem run_importPlan (workspace : Workspace) {form : Json} {flow : Flow}
    (imported : Flow.ofJson form = .ok flow) :
    (workspace.run (.importPlan form)).1.session = ⟨Session.cleaned flow, some flow.entry⟩ := by
  have loaded : Session.importPlan form =
      .ok (⟨Session.cleaned flow, some flow.entry⟩, flow.warnings) :=
    Session.importPlan_eq_ok.mpr ⟨flow, imported, rfl, rfl⟩
  simp only [run, perform, loaded, Except.map]

theorem runAll_linksFit (ids : Supply) {commands : List Command}
    (imports : ∀ form, .importPlan form ∈ commands → form.NextStepsFit) :
    (runAll ⟨.empty, ids⟩ commands).session.graph.LinksFit := by
  apply runAll_keeps (fun workspace => workspace.session.graph.LinksFit)
  · exact fun link member => absurd member List.not_mem_nil
  · intro index bound before
    have consistent := consistent_of_runAll ids (commands.take index)
    refine Session.linksFit_step consistent before ?_ (step_of_run _ _)
    intro form asked
    cases command : commands[index] with
    | importPlan other =>
      obtain rfl : other = form := by simpa [command, importedForm?] using asked
      exact imports other (command ▸ List.getElem_mem bound)
    | reimport =>
      obtain rfl := Option.some.inj (command ▸ asked)
      exact Graph.compile_nextStepsFit consistent.unique before
    | _ => simp [command, importedForm?] at asked

/-- A run keeps to the connection rules all the way exactly if the next steps of every form that it
imports fit, where forms do not count that cannot be imported. -/
theorem runAll_connectable_iff (ids : Supply) (commands : List Command) :
    (∀ count ≤ commands.length, (runAll ⟨.empty, ids⟩ (commands.take count)).session.Connectable) ↔
      ∀ form, .importPlan form ∈ commands → form.NextStepsFit := by
  constructor
  · intro connectable form member
    obtain ⟨index, bound, found⟩ := List.getElem_of_mem member
    cases imported : Flow.ofJson form with
    | error fault =>
      intro values saved descriptors unwrapped read unfoldable
      have importable := Flow.ofJson_eq_ok.mpr
        ⟨values, saved, descriptors, unwrapped, read, unfoldable, rfl⟩
      rw [imported] at importable
      contradiction
    | ok flow =>
      have after := connectable (index + 1) bound
      rw [List.take_succ_eq_append_getElem bound, runAll_concat, found, run_importPlan _ imported,
        Session.connectable_iff (.load imported)] at after
      exact (Session.cleaned_linksFit imported).mp after
  · intro imports count _
    rw [Session.connectable_iff (consistent_of_runAll ids _)]
    exact runAll_linksFit ids fun form member => imports form (List.mem_of_mem_take member)

/-- An import of two actions, the first of which names the second as its next step. -/
def strayCommands : List Command :=
  [.importPlan (.arr
    [.obj [("id", .str "a"), ("type", .str "ACTION"), ("child", .obj [("action", .str "SEND_MESSAGE"),
        ("provider", .str "NOVA"), ("nextStepId", .str "b")])],
      .obj [("id", .str "b"), ("type", .str "ACTION"),
        ("child", .obj [("action", .str "SEND_MESSAGE"), ("provider", .str "NOVA")])]])]

theorem runAll_strayCommands :
    (runAll ⟨.empty, .counted⟩ strayCommands).session.graph.edges = [.plain "edge-0-a-b" "a" "b"] ∧
      ¬ (runAll ⟨.empty, .counted⟩ strayCommands).session.Connectable := by
  have edges : (runAll ⟨.empty, .counted⟩ strayCommands).session.graph.edges =
      [.plain "edge-0-a-b" "a" "b"] := by decide +kernel
  have kinds : (runAll ⟨.empty, .counted⟩ strayCommands).session.graph.kindAt? "a" = some .action ∧
      (runAll ⟨.empty, .counted⟩ strayCommands).session.graph.kindAt? "b" = some .action := by
    decide +kernel
  have consistent := consistent_of_runAll .counted strayCommands
  refine ⟨edges, fun connectable => ?_⟩
  have link : ("a", "b") ∈ (runAll ⟨.empty, .counted⟩ strayCommands).session.graph.links := by
    rw [Graph.links, edges]
    exact List.mem_singleton_self _
  obtain ⟨source, target, leaves, arrives, allowed⟩ := (Graph.linksFit_iff consistent.unique).mp
    ((Session.connectable_iff consistent).mp connectable) _ link
  obtain rfl := Option.some.inj (kinds.1.symm.trans leaves)
  obtain rfl := Option.some.inj (kinds.2.symm.trans arrives)
  exact absurd allowed (by decide)

end Workspace

end OutreachFlow
