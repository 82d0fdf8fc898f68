import OutreachFlow.Proofs.Plan.Interleaving
import OutreachFlow.Proofs.Plan.Pruning
import OutreachFlow.Proofs.Plan.RoundTrip
import OutreachFlow.Proofs.Session.Connectivity

/-! Imports of exports of an import. The first import leaves out stray edges, and its plan may list
the descriptors in another order than the form did. The plan of what was imported has no stray edges
any more, so the second import leaves nothing out, and it lists its descriptors in the order in which
compiling will list them again. From then on everything stays as it is. -/
namespace OutreachFlow

/-- The plan of a flow, which starts at its entry. -/
def Flow.plan (flow : Flow) : Plan := flow.toGraph.compile (some flow.entry)

/-- The flow that the plan of a flow unfolds to. -/
def Flow.reopened (flow : Flow) : Flow := unfold flow.plan.saved flow.plan.descriptors

/-- Descriptors that can be unfolded and written, and have no stray next steps. -/
structure Tidy (saved : Fields) (descriptors : List Descriptor) : Prop where
  unfoldable : Unfoldable saved descriptors
  named : ∀ descriptor ∈ descriptors, descriptor.Named
  follows : ∀ link ∈ unfoldedLinks descriptors, mayFollow descriptors link.2 = true

section Unfolded

variable {saved before : Fields} {descriptors reordered : List Descriptor}

/-! What is left of an import -/

theorem tidy_tidied (unfoldable : Unfoldable saved descriptors)
    (named : ∀ descriptor ∈ descriptors, descriptor.Named) : Tidy saved (tidied descriptors) := by
  refine ⟨unfoldable.tidied, ?_, ?_⟩
  · intro descriptor member
    obtain ⟨original, inside, rfl⟩ := List.mem_map.mp member
    exact Descriptor.named_pruned (named original inside)
  · intro link member
    rw [tidied_links unfoldable.distinct] at member
    rw [mayFollow_tidied]
    exact (List.mem_filter.mp member).2

/-- The edges that are left are those along which a next step may follow. -/
theorem cleaned_unfold_edges (unfoldable : Unfoldable saved descriptors) :
    (Session.cleaned (Flow.unfold saved descriptors)).edges =
      (Flow.unfold saved descriptors).edges.filter fun edge => mayFollow descriptors edge.target := by
  apply List.filter_congr
  intro edge _
  rw [mayFollow, decide_eq_decide, ne_entry_unfold unfoldable, has_unfold, and_comm]

/-- An imported flow without its stray edges has the links of tidied descriptors. -/
theorem cleaned_unfold_links (unfoldable : Unfoldable saved descriptors) :
    (Session.cleaned (Flow.unfold saved descriptors)).links =
      (Flow.unfold saved (tidied descriptors)).toGraph.links := by
  rw [unfold_links, tidied_links unfoldable.distinct, ← unfold_links saved descriptors, Graph.links,
    Graph.links, cleaned_unfold_edges unfoldable, List.filter_map]
  rfl

theorem cleaned_unfold_nodes :
    (Session.cleaned (Flow.unfold saved descriptors)).nodes =
      (Flow.unfold saved (tidied descriptors)).toGraph.nodes := by
  rw [Flow.toGraph, unfold_nodes, tidied_nodes, ← unfold_nodes]
  rfl

theorem unfold_tidied_entry :
    (Flow.unfold saved (tidied descriptors)).entry = (Flow.unfold saved descriptors).entry :=
  congrArg (Option.getD · "") tidied_head

theorem Tidy.cleaned (tidy : Tidy saved descriptors) :
    Session.cleaned (Flow.unfold saved descriptors) = (Flow.unfold saved descriptors).toGraph := by
  have all : (Session.cleaned (Flow.unfold saved descriptors)).edges =
      (Flow.unfold saved descriptors).edges := by
    rw [cleaned_unfold_edges tidy.unfoldable, List.filter_eq_self]
    intro edge member
    apply tidy.follows (edge.source, edge.target)
    rw [← unfold_links saved descriptors]
    exact List.mem_map_of_mem member
  rw [Session.cleaned, Flow.toGraph] at all ⊢
  exact congrArg _ all

/-! Plans of unfolded flows -/

theorem plan_unfold (unfoldable : Unfoldable saved descriptors) :
    ∃ first rest, descriptors = first :: rest ∧
      (Flow.unfold saved descriptors).plan.descriptors = first :: byKind rest := by
  obtain ⟨first, rest, rfl, _⟩ := unfoldable.eq_cons
  exact ⟨first, rest, rfl, compile_unfold unfoldable.distinct⟩

theorem plan_perm (unfoldable : Unfoldable saved descriptors) :
    (Flow.unfold saved descriptors).plan.descriptors.Perm descriptors := by
  obtain ⟨first, rest, rfl, sorted⟩ := plan_unfold unfoldable
  rw [sorted]
  exact (byKind_perm rest).cons first

theorem plan_head (unfoldable : Unfoldable saved descriptors) :
    (Flow.unfold saved descriptors).plan.descriptors.head? = descriptors.head? := by
  obtain ⟨first, rest, rfl, sorted⟩ := plan_unfold unfoldable
  rw [sorted]
  rfl

theorem plan_settles (unfoldable : Unfoldable saved descriptors) :
    Settles (Flow.unfold saved descriptors).plan.saved (unfoldedNodes saved 0 descriptors) :=
  settles_compile _ unfoldable.distinct

theorem mayFollow_perm (perm : reordered.Perm descriptors)
    (leads : reordered.head? = descriptors.head?) : mayFollow reordered = mayFollow descriptors := by
  funext next
  have ids : next ∈ unfoldedIds reordered ↔ next ∈ unfoldedIds descriptors :=
    (perm.flatMap_right Descriptor.nodeIds).mem_iff
  rw [mayFollow, mayFollow, leads, decide_eq_decide, ids]

theorem Tidy.plan (tidy : Tidy saved descriptors) :
    Tidy (Flow.unfold saved descriptors).plan.saved
      (Flow.unfold saved descriptors).plan.descriptors := by
  have perm := plan_perm tidy.unfoldable
  have leads := plan_head tidy.unfoldable
  refine ⟨unfoldable_reordered (plan_settles tidy.unfoldable) perm leads tidy.unfoldable, ?_, ?_⟩
  · exact fun descriptor member => tidy.named descriptor (perm.mem_iff.mp member)
  · intro link member
    rw [mayFollow_perm perm leads]
    exact tidy.follows link ((perm.flatMap_right Descriptor.links).mem_iff.mp member)

/-- The second plan lists the descriptors as the first does. -/
theorem plan_reopened (tidy : Tidy saved descriptors) :
    (Flow.unfold saved descriptors).reopened.plan.descriptors =
      (Flow.unfold saved descriptors).plan.descriptors := by
  obtain ⟨first, rest, rfl, sorted⟩ := plan_unfold tidy.unfoldable
  obtain ⟨first', rest', listed, again⟩ := plan_unfold tidy.plan.unfoldable
  rw [sorted] at listed
  obtain ⟨rfl, rfl⟩ := List.cons.inj listed
  rw [Flow.reopened, again, sorted, byKind_byKind]

/-- Where all places are saved, descriptors unfold as they did. -/
theorem unfold_settled (settled : Settles saved (unfoldedNodes before 0 descriptors)) :
    Flow.unfold saved descriptors = Flow.unfold before descriptors := by
  have nodes : unfoldedNodes saved 0 descriptors = unfoldedNodes before 0 descriptors := by
    apply List.flatMap_congr
    intro entry inside
    exact Descriptor.nodes_of_settled (settles_slot settled inside)
  rw [Flow.unfold, Flow.unfold, nodes]

end Unfolded

/-! The second import and the third -/

/-- The same plan: the same descriptors in the same order, and every id at the same position. -/
structure Plan.Alike (plan other : Plan) : Prop where
  descriptors : plan.descriptors = other.descriptors
  positions : ∀ id, plan.positions.lookup id = other.positions.lookup id

namespace Session

/-- The same flow, whatever the order of nodes and edges and the ids of the edges: the same entry,
the same nodes, found under the same ids, and the same links, each as often. -/
structure Alike (session other : Session) : Prop where
  entry : session.entry = other.entry
  nodes : session.graph.nodes.Perm other.graph.nodes
  lookup : ∀ id, session.graph.node? id = other.graph.node? id
  links : session.graph.links.Perm other.graph.links

/-- The session that shows a flow with all its edges. -/
def ofFlow (flow : Flow) : Session := ⟨flow.toGraph, some flow.entry⟩

variable {saved : Fields} {descriptors : List Descriptor}

/-- The plan of tidy descriptors is imported without warnings, and nothing is left out. -/
theorem importPlan_plan (tidy : Tidy saved descriptors) :
    importPlan (Flow.unfold saved descriptors).plan.toJson =
      .ok (ofFlow (Flow.unfold saved descriptors).reopened, []) := by
  have again := tidy.plan
  have arrives : ∀ link ∈ unfoldedLinks (Flow.unfold saved descriptors).plan.descriptors,
      link.2 ∈ unfoldedIds (Flow.unfold saved descriptors).plan.descriptors :=
    fun link member => (of_decide_eq_true (again.follows link member)).1
  refine importPlan_eq_ok.mpr
    ⟨_, (Flow.ofJson_toJson again.named).mpr ⟨again.unfoldable, rfl⟩, ?_, ?_⟩
  · rw [again.cleaned]
    rfl
  · exact unfold_warnings_eq_nil arrives

/-- A reopened flow stays as it is when it is reopened again. -/
theorem reopened_reopened (tidy : Tidy saved descriptors) :
    (Flow.unfold saved descriptors).reopened.reopened = (Flow.unfold saved descriptors).reopened := by
  rw [Flow.reopened, plan_reopened tidy]
  exact unfold_settled (plan_settles tidy.plan.unfoldable)

theorem Alike.trans {first second third : Session} (before : first.Alike second)
    (after : second.Alike third) : first.Alike third where
  entry := before.entry.trans after.entry
  nodes := before.nodes.trans after.nodes
  lookup id := (before.lookup id).trans (after.lookup id)
  links := before.links.trans after.links

/-- Without its stray edges an imported flow is that of the tidied descriptors. -/
theorem alike_cleaned (unfoldable : Unfoldable saved descriptors) :
    (ofFlow (Flow.unfold saved (tidied descriptors))).Alike
      ⟨cleaned (Flow.unfold saved descriptors), some (Flow.unfold saved descriptors).entry⟩ := by
  have nodes : (Flow.unfold saved (tidied descriptors)).toGraph.nodes =
      (cleaned (Flow.unfold saved descriptors)).nodes := cleaned_unfold_nodes.symm
  exact ⟨congrArg some unfold_tidied_entry, .of_eq nodes,
    Graph.node?_perm (unfold_unique unfoldable.distinct) (.of_eq nodes),
    .of_eq (cleaned_unfold_links unfoldable).symm⟩

/-- An unfolded flow that is reopened is the same flow. -/
theorem alike_reopened (unfoldable : Unfoldable saved descriptors) :
    (ofFlow (Flow.unfold saved descriptors).reopened).Alike
      (ofFlow (Flow.unfold saved descriptors)) := by
  have nodes := unfoldedNodes_perm (plan_settles unfoldable) (plan_perm unfoldable)
  rw [← unfold_nodes, ← unfold_nodes] at nodes
  refine ⟨?_, nodes, Graph.node?_perm (unfold_unique unfoldable.distinct) nodes,
    unfold_links_perm (plan_perm unfoldable)⟩
  exact congrArg (fun first => some ((Option.map Descriptor.id first).getD "")) (plan_head unfoldable)

/-- Whatever could be imported can be exported and imported again without warnings. The second
session shows the same flow as the first and has the same plan, and a third import gives exactly the
second session again: the nodes and the edges in the same order, the edges under the same ids. -/
theorem importPlan_settles {form : Json} {session : Session} {warnings : List Warning}
    (imported : importPlan form = .ok (session, warnings)) :
    ∃ plan again plan', session.exportPlan false = .ok plan ∧
      importPlan plan.toJson = .ok (again, []) ∧ again.Alike session ∧
      again.exportPlan false = .ok plan' ∧ plan'.Alike plan ∧
      importPlan plan'.toJson = .ok (again, []) := by
  obtain ⟨flow, read, rfl, rfl⟩ := importPlan_eq_ok.mp imported
  obtain ⟨values, saved, descriptors, _, found, unfoldable, rfl⟩ := Flow.ofJson_eq_ok.mp read
  have tidy : Tidy saved (tidied descriptors) :=
    tidy_tidied unfoldable (Descriptor.named_of_mapM found)
  let clean := Flow.unfold saved (tidied descriptors)
  have plan : (cleaned (Flow.unfold saved descriptors)).compile
      (some (Flow.unfold saved descriptors).entry) = clean.plan := by
    rw [← unfold_tidied_entry]
    exact Graph.compile_congr cleaned_unfold_nodes (cleaned_unfold_links unfoldable) _
  have alike : (ofFlow clean.reopened).Alike
      ⟨cleaned (Flow.unfold saved descriptors), some (Flow.unfold saved descriptors).entry⟩ :=
    (alike_reopened tidy.unfoldable).trans (alike_cleaned unfoldable)
  have positions (id : String) :
      clean.reopened.plan.positions.lookup id = clean.plan.positions.lookup id := by
    rw [← plan, Flow.plan, Graph.lookup_positions, Graph.lookup_positions]
    exact congrArg _ (alike.lookup id)
  have third : importPlan clean.reopened.plan.toJson = .ok (ofFlow clean.reopened, []) := by
    have again : importPlan clean.reopened.plan.toJson = .ok (ofFlow clean.reopened.reopened, []) :=
      importPlan_plan tidy.plan
    rwa [reopened_reopened tidy] at again
  exact ⟨clean.plan, ofFlow clean.reopened, clean.reopened.plan, congrArg _ plan,
    importPlan_plan tidy, alike, rfl, ⟨plan_reopened tidy, positions⟩, third⟩

/-- Steps that lead to no node and back to the entry, and a check that comes before an action. -/
def strayForm : Json := .arr
  [.obj [("id", .str "ask"), ("type", .str "CONDITION"), ("child", .arr
      [.obj [("checks", .arr []), ("nextStepId", .str "gone")],
        .obj [("checks", .arr []), ("nextStepId", .str "loose")]])],
    .obj [("id", .str "loose"), ("type", .str "CONDITION_CHECK"), ("conditions", .arr []),
      ("nextStepId", .str "tell")],
    .obj [("id", .str "tell"), ("type", .str "ACTION"), ("child", .obj
      [("action", .str "SEND_MESSAGE"), ("provider", .str "NOVA"), ("nextStepId", .str "ask")])]]

theorem importPlan_settles_strayForm :
    ∃ session plan again plan', importPlan strayForm = .ok (session, [⟨"ask-check-0", "gone"⟩]) ∧
      session.exportPlan false = .ok plan ∧ importPlan plan.toJson = .ok (again, []) ∧
      again.Alike session ∧ again.exportPlan false = .ok plan' ∧ plan'.Alike plan ∧
      importPlan plan'.toJson = .ok (again, []) := by
  have warned : (importPlan strayForm).map Prod.snd = .ok [⟨"ask-check-0", "gone"⟩] := by
    decide +kernel
  obtain ⟨⟨session, warnings⟩, imported, rfl⟩ := map_eq_ok.mp warned
  obtain ⟨plan, again, plan', settles⟩ := importPlan_settles imported
  exact ⟨session, plan, again, plan', imported, settles⟩

end Session

end OutreachFlow
