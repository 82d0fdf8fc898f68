import OutreachFlow.Proofs.Import.Grammar
import OutreachFlow.Proofs.Plan.RoundTrip

/-! Descriptors in another order. Whether a list of descriptors can be imported depends on which they are and
on the first of them, and so does what comes of it: the order of the others is left in the order of nodes and
edges, in the numbers in edge ids, and in the places of nodes without a saved position. Only one condition of
an import looks at those places, that there is room for branches, and beside a slot there always is. -/
namespace OutreachFlow

/-- The same form, but for the order of the descriptors behind the first one. -/
inductive Json.Rearranged : Json → Json → Prop
  | bare {values others : List Json} (perm : others.Perm values) (leads : others.head? = values.head?) :
      Rearranged (.arr values) (.arr others)
  | wrapped {fields fields' : Fields} {values others : List Json}
      (nodes : fields.get? "nodes" = some (.arr values))
      (nodes' : fields'.get? "nodes" = some (.arr others))
      (rest : ∀ key, key ≠ "nodes" → fields'.get? key = fields.get? key)
      (perm : others.Perm values) (leads : others.head? = values.head?) :
      Rearranged (.obj fields) (.obj fields')

/-- Two flows that only differ in order, in edge ids and in the places of nodes without a saved position. -/
structure Flow.Rearranges (saved : Fields) (other flow : Flow) : Prop where
  entry : other.entry = flow.entry
  nodes : (other.nodes.map fun node => (node.id, node.payload)).Perm
    (flow.nodes.map fun node => (node.id, node.payload))
  places : ∀ node position, savedPosition? saved node.id = some position →
    (node ∈ other.nodes ↔ node ∈ flow.nodes) ∧ (node ∈ flow.nodes → node.position = position)
  links : other.toGraph.links.Perm flow.toGraph.links
  warnings : other.warnings.Perm flow.warnings

/-! Forms -/

namespace Json.Rearranged

variable {form other : Json} {values : List Json} {saved : Fields}

theorem symm (rearranged : form.Rearranged other) : other.Rearranged form := by
  cases rearranged with
  | bare perm leads => exact .bare perm.symm leads.symm
  | wrapped nodes nodes' rest perm leads =>
    exact .wrapped nodes' nodes (fun key apart => (rest key apart).symm) perm.symm leads.symm

theorem unwrap (rearranged : form.Rearranged other) (unwrapped : Flow.unwrap form = .ok (values, saved)) :
    ∃ others, Flow.unwrap other = .ok (others, saved) ∧ others.Perm values ∧
      others.head? = values.head? := by
  cases rearranged with
  | bare perm leads =>
    obtain ⟨rfl, rfl⟩ := Prod.mk.inj (Except.ok.inj unwrapped)
    exact ⟨_, rfl, perm, leads⟩
  | wrapped nodes nodes' rest perm leads =>
    obtain ⟨listed, supported, positions⟩ := Flow.unwrap_obj.mp unwrapped
    obtain rfl := Json.arr.inj (Option.some.inj (nodes.symm.trans listed))
    refine ⟨_, Flow.unwrap_obj.mpr ⟨nodes', ?_, ?_⟩, perm, leads⟩
    · rwa [rest "version" (by decide)]
    · rwa [Fields.valueOf, rest "positions" (by decide)]

end Json.Rearranged

/-- Reading goes item by item, so what is read comes in the order of what is written. -/
theorem mapM_perm {α β : Type} {read : α → Option β} {values others : List α} {items : List β}
    (perm : others.Perm values) (leads : others.head? = values.head?)
    (all : values.mapM read = some items) :
    ∃ items', others.mapM read = some items' ∧ items'.Perm items ∧ items'.head? = items.head? := by
  have first {values : List α} {items : List β} (all : values.mapM read = some items) :
      items.head? = values.head?.bind read := by
    cases mapM_eq_some.mp all with
    | nil => rfl
    | cons found _ => exact found.symm
  obtain ⟨items', each, perm'⟩ := List.perm_comp_forall₂ perm (mapM_eq_some.mp all)
  have all' := mapM_eq_some.mpr each
  exact ⟨items', all', perm', by rw [first all', first all, leads]⟩

/-! Slots -/

section Slots

variable {saved : Fields} {descriptor : Descriptor} {descriptors others : List Descriptor} {node : Node}
  {position : Position} {slot : Nat}

namespace Descriptor

/-- There is room beside every slot, so a place can only be missing beside a saved position. -/
theorem placed_slot (placed : descriptor.Placed saved slot) (slot' : Nat) :
    descriptor.Placed saved slot' := by
  intro entry branch
  refine (placed entry branch).imp_right fun room => ?_
  rw [Layout.child?_isSome (primaryPosition_numeric _ _ _), primaryPosition] at room ⊢
  cases found : savedPosition? saved descriptor.id with
  | none => exact Position.doubles_fit _ _
  | some position => simpa [found] using room

/-- Ids and payloads of the nodes that a descriptor gives. -/
def contents (descriptor : Descriptor) : List (String × Payload) :=
  (descriptor.id, descriptor.payload) :: descriptor.branches.zipIdx.map fun entry =>
    (checkNodeId descriptor.id entry.2, .conditionCheck entry.1.checks)

theorem nodes_contents (saved : Fields) (slot : Nat) (descriptor : Descriptor) :
    (descriptor.nodes saved slot).map (fun node => (node.id, node.payload)) = descriptor.contents := by
  simp [nodes, branchNodes, contents, primary, Branch.node]

theorem position_of_saved (member : node ∈ descriptor.nodes saved slot)
    (found : savedPosition? saved node.id = some position) : node.position = position := by
  rcases List.mem_cons.mp member with rfl | branch
  · exact congrArg (Option.getD · _) found
  · obtain ⟨_, _, rfl⟩ := mem_branchNodes.mp branch
    exact congrArg (Option.getD · _) found

/-- A node with a saved position is the same in every slot. -/
theorem mem_nodes_of_saved (member : node ∈ descriptor.nodes saved slot)
    (found : savedPosition? saved node.id = some position) (slot' : Nat) :
    node ∈ descriptor.nodes saved slot' := by
  rcases List.mem_cons.mp member with rfl | branch
  · change savedPosition? saved descriptor.id = some position at found
    have same : descriptor.primary saved slot = descriptor.primary saved slot' := by
      simp [primary, primaryPosition, found]
    exact same ▸ List.mem_cons_self
  · obtain ⟨entry, inside, rfl⟩ := mem_branchNodes.mp branch
    change savedPosition? saved (checkNodeId descriptor.id entry.2) = some position at found
    refine List.mem_cons_of_mem _ (mem_branchNodes.mpr ⟨entry, inside, ?_⟩)
    simp [Branch.node, branchPosition, found]

end Descriptor

theorem unfoldedNodes_contents (saved : Fields) (descriptors : List Descriptor) :
    (unfoldedNodes saved 0 descriptors).map (fun node => (node.id, node.payload)) =
      descriptors.flatMap Descriptor.contents :=
  unfoldedNodes_map (Descriptor.nodes_contents saved) 0 descriptors

theorem Unfoldable.perm (unfoldable : Unfoldable saved descriptors) (perm : others.Perm descriptors)
    (leads : others.head? = descriptors.head?) : Unfoldable saved others := by
  refine unfoldable.of_perm perm leads fun descriptor member slot => ?_
  obtain ⟨place, original⟩ := mem_slot member
  exact Descriptor.placed_slot (unfoldable.placed _ original) slot

theorem mem_unfold_of_saved (perm : others.Perm descriptors)
    (found : savedPosition? saved node.id = some position)
    (member : node ∈ (Flow.unfold saved descriptors).nodes) :
    node ∈ (Flow.unfold saved others).nodes := by
  rw [unfold_nodes] at member ⊢
  obtain ⟨entry, inside, member⟩ := mem_unfoldedNodes.mp member
  obtain ⟨slot, moved⟩ := mem_slot (perm.mem_iff.mpr (List.fst_mem_of_mem_zipIdx inside))
  exact mem_unfoldedNodes.mpr ⟨_, moved, Descriptor.mem_nodes_of_saved member found slot⟩

theorem unfold_rearranges (perm : others.Perm descriptors) (leads : others.head? = descriptors.head?) :
    (Flow.unfold saved others).Rearranges saved (Flow.unfold saved descriptors) where
  entry := congrArg (fun first => (first.map Descriptor.id).getD "") leads
  nodes := by
    rw [unfold_nodes, unfold_nodes, unfoldedNodes_contents, unfoldedNodes_contents]
    exact perm.flatMap_right _
  places node position found := by
    refine ⟨⟨mem_unfold_of_saved perm.symm found, mem_unfold_of_saved perm found⟩, ?_⟩
    intro member
    rw [unfold_nodes] at member
    obtain ⟨_, _, member⟩ := mem_unfoldedNodes.mp member
    exact Descriptor.position_of_saved member found
  links := unfold_links_perm perm
  warnings := unfold_warnings_perm perm

end Slots

/-! Imports -/

namespace Flow

variable {form other : Json} {flow flow' : Flow}

/-- What one form is imported as, the other one is imported as too. -/
theorem exists_rearranged (rearranged : form.Rearranged other) (imported : ofJson form = .ok flow) :
    ∃ values saved flow', form.Lists values saved ∧ ofJson other = .ok flow' ∧
      flow'.Rearranges saved flow := by
  obtain ⟨values, saved, descriptors, unwrapped, read, unfoldable, rfl⟩ := ofJson_eq_ok.mp imported
  obtain ⟨others, unwrapped', perm, leads⟩ := rearranged.unwrap unwrapped
  obtain ⟨items, read', perm', leads'⟩ := mapM_perm perm leads read
  refine ⟨values, saved, _, unwrap_eq_ok.mp unwrapped, ?_, unfold_rearranges perm' leads'⟩
  exact ofJson_eq_ok.mpr ⟨others, saved, items, unwrapped', read', unfoldable.perm perm' leads', rfl⟩

/-- The order of the descriptors behind the first one has no meaning. Forms that differ in nothing else are
imported both or not at all, with the same entry, the same nodes, where positions are saved also at the same
places, the same links and the same warnings. -/
theorem ofJson_rearranged (rearranged : form.Rearranged other) :
    ((∃ flow, ofJson form = .ok flow) ↔ ∃ flow', ofJson other = .ok flow') ∧
      ∀ flow flow', ofJson form = .ok flow → ofJson other = .ok flow' →
        ∃ values saved, form.Lists values saved ∧ flow'.Rearranges saved flow := by
  refine ⟨⟨?_, ?_⟩, ?_⟩
  · rintro ⟨flow, imported⟩
    obtain ⟨_, _, flow', _, imported', _⟩ := exists_rearranged rearranged imported
    exact ⟨flow', imported'⟩
  · rintro ⟨flow', imported'⟩
    obtain ⟨_, _, flow, _, imported, _⟩ := exists_rearranged rearranged.symm imported'
    exact ⟨flow, imported⟩
  · intro flow flow' imported imported'
    obtain ⟨values, saved, found, lists, again, rearranges⟩ := exists_rearranged rearranged imported
    obtain rfl := Except.ok.inj (imported'.symm.trans again)
    exact ⟨values, saved, lists, rearranges⟩

/-- A form that lists an action first, with places for a check and for one of two branches. -/
def shuffledFields (others : List Json) : Fields :=
  [("positions", .obj [("late", .obj [("x", .int 3), ("y", .bool true)]),
      ("ask-check-1", .obj [("x", .double 0.5), ("y", .int 0)]), ("ask", .obj [("x", .null)])]),
    ("nodes", .arr (.obj [("id", .str "tell"), ("type", .str "ACTION"), ("nextStepId", .str "ask"),
      ("action", .str "SEND_MESSAGE"), ("provider", .str "NOVA")] :: others))]

/-- A condition with a step to nowhere and one to a check. -/
def shuffledCondition : Json := .obj
  [("id", .str "ask"), ("type", .str "CONDITION"),
    ("child", .arr [.obj [("nextStepId", .str "gone")], .obj [("nextStepId", .str "late")]])]

/-- A check that leads back to the start. -/
def shuffledCheck : Json := .obj
  [("id", .str "late"), ("type", .str "CONDITION_CHECK"), ("nextStepId", .str "tell")]

theorem ofJson_rearranged_shuffled :
    ∃ flow flow', ofJson (.obj (shuffledFields [shuffledCondition, shuffledCheck])) = .ok flow ∧
      ofJson (.obj (shuffledFields [shuffledCheck, shuffledCondition])) = .ok flow' ∧
        ∃ values saved, (Json.obj (shuffledFields [shuffledCondition, shuffledCheck])).Lists values saved ∧
          flow'.Rearranges saved flow := by
  have rearranged : (Json.obj (shuffledFields [shuffledCondition, shuffledCheck])).Rearranged
      (.obj (shuffledFields [shuffledCheck, shuffledCondition])) := by
    refine .wrapped rfl rfl ?_ (.cons _ (.swap _ _ _)) rfl
    intro key apart
    simp [shuffledFields, apart.symm]
  have read : (ofJson (.obj (shuffledFields [shuffledCondition, shuffledCheck]))).toOption.isSome := by
    decide +kernel
  obtain ⟨flow, found⟩ := Option.isSome_iff_exists.mp read
  have imported := toOption_eq_some.mp found
  obtain ⟨both, alike⟩ := ofJson_rearranged rearranged
  obtain ⟨flow', imported'⟩ := both.mp ⟨flow, imported⟩
  exact ⟨flow, flow', imported, imported', alike flow flow' imported imported'⟩

end Flow

end OutreachFlow
