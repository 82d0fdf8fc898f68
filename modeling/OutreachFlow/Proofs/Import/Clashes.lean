import OutreachFlow.Proofs.Import.Room
import OutreachFlow.Proofs.Import.Shape

/-! Clashes of ids in an import. The ids that an import makes up never clash with each other, so where it
reports that an id comes twice, some descriptor brings that id: another one brings it too, or it is made up
for a branch of another. -/
namespace OutreachFlow

namespace Json

/-- The id that a descriptor brings. -/
def ownId? (descriptor : Json) : Option String := descriptor.nodeIds.head?

/-- The ids that are made up for its branches. -/
def derivedIds (descriptor : Json) : List String := descriptor.nodeIds.tail

/-- Two descriptors of a list want the same id: both bring it, or one brings what is made up for a branch of
the other. -/
inductive ClashOver (descriptors : List Json) (id : String) : Prop
  | shared (first second : Nat) (before : first < second)
      (own : descriptors[first]?.bind ownId? = some id) (again : descriptors[second]?.bind ownId? = some id)
  | derived (bringer parent : Json) (listed : bringer ∈ descriptors) (listed' : parent ∈ descriptors)
      (own : bringer.ownId? = some id) (made : id ∈ parent.derivedIds)

theorem mem_nodeIds {descriptor : Json} {id : String} :
    id ∈ descriptor.nodeIds ↔ descriptor.ownId? = some id ∨ id ∈ descriptor.derivedIds := by
  unfold ownId? derivedIds
  cases descriptor.nodeIds <;> simp [eq_comm]

theorem nodeIds_obj {fields : Fields} {own : String} (named : Node.idOf? fields = some own) :
    (obj fields).nodeIds =
      own :: (List.range fields.branchForms.length).map (checkNodeId own) := by
  rw [nodeIds, Fields.nodeIds, (Node.idOf?_eq_some.mp named).2]

/-- Whoever has a branch's id made up has the id of the branch's condition. -/
theorem ownId?_of_derived {descriptor : Json} {condition : String} {index : Nat}
    (made : checkNodeId condition index ∈ descriptor.derivedIds) : descriptor.ownId? = some condition := by
  unfold derivedIds at made
  unfold ownId?
  cases descriptor with
  | obj fields =>
    rw [nodeIds, Fields.nodeIds] at made ⊢
    split at made
    · obtain ⟨place, _, same⟩ := List.mem_map.mp made
      rw [List.head?_cons, (checkNodeId_inj.mp same).1]
    · contradiction
  | _ => contradiction

end Json

namespace Draft

variable {saved : Fields} {id twice : String} {parent : Position} {slot index : Nat} {fields : Fields}
  {value : Json} {branches : List Json} {draft : Draft}

/-! Which step reports an id -/

theorem within_ne_duplicate {α : Type} (part : Except DescriptorFault α) :
    within id part ≠ .error (.invalid (.duplicateNode twice)) := by
  cases part <;> simp [within, Except.mapError]

theorem childPosition_ne_duplicate :
    childPosition saved id parent index ≠ .error (.invalid (.duplicateNode twice)) := by
  unfold childPosition
  split <;> simp

theorem add_duplicate {node : Node} :
    draft.add node = .error (.invalid (.duplicateNode twice)) ↔
      draft.has twice = true ∧ node.id = twice := by
  unfold add
  split
  · rename_i known
    simp only [Except.error.injEq, ImportError.invalid.injEq, ImportFault.duplicateNode.injEq]
    exact ⟨fun same => ⟨same ▸ known, same⟩, And.right⟩
  · rename_i new
    simp only [reduceCtorEq, false_iff]
    rintro ⟨known, rfl⟩
    exact new known

theorem addBranch_duplicate
    (fails : draft.addBranch saved id parent index value = .error (.invalid (.duplicateNode twice))) :
    draft.has twice = true ∧ checkNodeId id index = twice := by
  cases value with
  | obj fields =>
    simp only [addBranch, bind_eq_error, within_ne_duplicate, childPosition_ne_duplicate, add_duplicate,
      pure, Except.pure, reduceCtorEq, and_false, exists_false, or_false, false_or] at fails
    obtain ⟨_, _, _, _, known, same⟩ := fails
    exact ⟨known, same⟩
  | _ => exact absurd fails (within_ne_duplicate _)

/-- A branch's id differs from those of its condition and of the branches before it, so it has been there
before the condition. -/
theorem addBranches_duplicate
    (fails : draft.addBranches saved id parent 0 branches = .error (.invalid (.duplicateNode twice))) :
    ∃ place < branches.length, checkNodeId id place = twice ∧ draft.has twice = true := by
  obtain ⟨front, branch, back, reached, rfl, went, fails⟩ := (isRunOf_addBranches saved id parent).eq_error.mp fails
  obtain ⟨known, same⟩ := addBranch_duplicate fails
  rw [Nat.zero_add] at same
  refine ⟨front.length, by simp, same, ?_⟩
  obtain ⟨earlier, read, _, _, rfl⟩ := addBranches_eq_ok.mp went
  rw [has_iff, extend, List.map_append, List.mem_append] at known
  rcases known with old | new
  · exact has_iff.mpr old
  · obtain ⟨node, inside, named⟩ := List.mem_map.mp new
    obtain ⟨entry, listed, rfl⟩ := List.mem_map.mp inside
    -- A branch before this one has a smaller index.
    have place : entry.2 = front.length := (checkNodeId_inj.mp (named.trans same.symm)).2
    have bound : entry.2 < earlier.length := by simpa using List.snd_lt_of_mem_zipIdx listed
    rw [place, (mapM_eq_some.mp read).length_eq] at bound
    exact absurd bound (Nat.lt_irrefl _)

theorem addAction_duplicate
    (fails : draft.addAction saved slot id fields = .error (.invalid (.duplicateNode twice))) :
    draft.has twice = true ∧ id = twice := by
  simp only [addAction, bind_eq_error, within_ne_duplicate, add_duplicate, pure, Except.pure, reduceCtorEq,
    and_false, exists_false, or_false, false_or] at fails
  obtain ⟨_, _, _, _, known, same⟩ := fails
  exact ⟨known, same⟩

theorem addStandaloneCheck_duplicate
    (fails : draft.addStandaloneCheck saved slot id fields = .error (.invalid (.duplicateNode twice))) :
    draft.has twice = true ∧ id = twice := by
  simp only [addStandaloneCheck, bind_eq_error, within_ne_duplicate, add_duplicate, pure, Except.pure,
    reduceCtorEq, and_false, exists_false, or_false, false_or] at fails
  obtain ⟨_, _, known, same⟩ := fails
  exact ⟨known, same⟩

theorem addCondition_duplicate
    (fails : draft.addCondition saved slot id fields = .error (.invalid (.duplicateNode twice))) :
    draft.has twice = true ∧ (id = twice ∨
      draft.has id = false ∧ ∃ written, Source.branches fields = .ok written ∧
        ∃ place < written.length, checkNodeId id place = twice) := by
  simp only [addCondition, bind_eq_error, within_ne_duplicate, false_or, within_eq_ok, add_duplicate,
    add_eq_ok] at fails
  obtain ⟨written, read, ⟨known, same⟩ | ⟨_, ⟨admits, rfl⟩, fails⟩⟩ := fails
  · exact ⟨known, .inl same⟩
  · obtain ⟨place, bound, rfl, known⟩ := addBranches_duplicate fails
    have old : draft.has (checkNodeId id place) = true := by
      rw [has_iff, extend, List.map_append, List.mem_append, List.map_singleton, List.mem_singleton] at known
      exact has_iff.mpr (known.resolve_right (checkNodeId_ne_self id place))
    exact ⟨old, .inr ⟨admits_singleton.mp admits, written, read, place, bound, rfl⟩⟩

/-- A descriptor is refused for an id that is there already: the one that it brings, or one that is made up
for a branch of it while its own is new. -/
theorem addDescriptor_duplicate
    (fails : draft.addDescriptor saved slot value = .error (.invalid (.duplicateNode twice))) :
    draft.has twice = true ∧ (value.ownId? = some twice ∨
      ∃ own place, value.ownId? = some own ∧ draft.has own = false ∧ checkNodeId own place = twice ∧
        twice ∈ value.derivedIds) := by
  cases value with
  | obj fields =>
    cases named : Node.idOf? fields with
    | none => simp [addDescriptor, named] at fails
    | some id =>
      have ids := Json.nodeIds_obj named
      have own : (Json.obj fields).ownId? = some id := by rw [Json.ownId?, ids, List.head?_cons]
      rw [own]
      simp only [addDescriptor, named] at fails
      split at fails
      · simp at fails
      · obtain ⟨known, rfl⟩ := addAction_duplicate fails
        exact ⟨known, .inl rfl⟩
      · rename_i tagged
        obtain ⟨known, rfl | ⟨new, written, read, place, bound, same⟩⟩ := addCondition_duplicate fails
        · exact ⟨known, .inl rfl⟩
        · refine ⟨known, .inr ⟨id, place, rfl, new, same, ?_⟩⟩
          have forms := Descriptor.branchForms_of_read read (NodeKind.ofTagValue?_eq_some.mp tagged)
          rw [Json.derivedIds, ids, List.tail_cons, forms]
          exact List.mem_map.mpr ⟨place, List.mem_range.mpr bound, same⟩
      · split at fails
        · simp at fails
        · obtain ⟨known, rfl⟩ := addStandaloneCheck_duplicate fails
          exact ⟨known, .inl rfl⟩
  | _ => simp [addDescriptor] at fails

/-- Descriptors are refused for an id only if two of them clash over it. -/
theorem addDescriptors_duplicate {values : List Json}
    (fails : empty.addDescriptors saved 0 values = .error (.invalid (.duplicateNode twice))) :
    Json.ClashOver values twice := by
  obtain ⟨front, value, back, reached, rfl, went, fails⟩ := (isRunOf_addDescriptors saved).eq_error.mp fails
  have holds (id : String) : reached.has id = true ↔ ∃ earlier ∈ front, id ∈ earlier.nodeIds := by
    obtain ⟨descriptors, read, _, _, _, rfl⟩ := addDescriptors_eq_ok.mp went
    rw [has_iff, extend, empty, List.nil_append, unfoldedNodes_ids, ← nodeIds_of_mapM read, List.mem_flatMap]
  have inFront {earlier : Json} (member : earlier ∈ front) : earlier ∈ front ++ value :: back :=
    List.mem_append_left _ member
  have inMiddle : value ∈ front ++ value :: back := by simp
  obtain ⟨known, own | ⟨own, place, named, new, rfl, made⟩⟩ := addDescriptor_duplicate fails
  · obtain ⟨earlier, member, taken⟩ := (holds twice).mp known
    rcases Json.mem_nodeIds.mp taken with brought | derived
    · obtain ⟨index, bound, rfl⟩ := List.getElem_of_mem member
      refine .shared index front.length bound ?_ ?_
      · rw [List.getElem?_append_left bound, List.getElem?_eq_getElem bound]
        exact brought
      · simpa using own
    · exact .derived value earlier inMiddle (inFront member) own derived
  · obtain ⟨earlier, member, taken⟩ := (holds _).mp known
    rcases Json.mem_nodeIds.mp taken with brought | derived
    · exact .derived earlier value (inFront member) inMiddle brought made
    · -- Made up twice, the id has one condition only, which would have been refused itself.
      have brought := Json.ownId?_of_derived derived
      have there := (holds own).mpr ⟨earlier, member, Json.mem_nodeIds.mpr (.inl brought)⟩
      rw [new] at there
      contradiction

end Draft

namespace Flow

theorem edgeIds_nodup {form : Json} {flow : Flow} (imported : ofJson form = .ok flow) :
    (flow.edges.map Edge.id).Nodup := by
  obtain ⟨_, saved, descriptors, _, _, _, rfl⟩ := ofJson_eq_ok.mp imported
  rw [unfold_edges]
  exact numbered_ids_nodup 0 _

/-- Before any descriptor is read there is no id to come twice. -/
theorem unwrap_ne_duplicate {form : Json} {id : String} : unwrap form ≠ .error (.duplicateNode id) := by
  cases form with
  | arr descriptors => simp [unwrap]
  | obj fields =>
    cases listed : Fields.get? fields "nodes" with
    | none => simp [unwrap, listed]
    | some nodes =>
      cases supported : isSupported ((Fields.get? fields "version").getD (.int Plan.version)) with
      | false => simp [unwrap, listed, supported, bind, Except.bind]
      | true =>
        cases nodes with
        | arr descriptors =>
          cases places : Fields.valueOf fields "positions" <;>
            simp [unwrap, listed, supported, places, pure, Except.pure]
        | _ => simp [unwrap, listed, supported]
  | _ => simp [unwrap]

theorem clash_of_duplicate {form : Json} {id : String}
    (fails : ofJson form = .error (.invalid (.duplicateNode id))) :
    ∃ descriptors saved, form.Lists descriptors saved ∧ Json.ClashOver descriptors id := by
  rw [ofJson, bind_eq_error] at fails
  rcases fails with unlisted | ⟨⟨descriptors, saved⟩, unwrapped, fails⟩
  · rw [mapError_eq_error] at unlisted
    obtain ⟨fault, stops, same⟩ := unlisted
    obtain rfl := ImportError.invalid.inj same
    exact absurd stops unwrap_ne_duplicate
  · refine ⟨descriptors, saved, unwrap_eq_ok.mp (mapError_eq_ok.mp unwrapped), ?_⟩
    rw [bind_eq_error] at fails
    rcases fails with stops | ⟨draft, _, stops⟩
    · exact Draft.addDescriptors_duplicate stops
    · split at stops <;> simp [pure, Except.pure] at stops

/-- Ids that an import makes up are all different: those of branches, whatever the ids of their conditions look
like, and those of the edges of one flow. So an id is reported to come twice only if two descriptors bring it, or
one brings what is made up for a branch of another. -/
theorem made_up_ids_apart :
    (∀ condition other index place, checkNodeId condition index = checkNodeId other place →
      condition = other ∧ index = place) ∧
    (∀ form flow, ofJson form = .ok flow → (flow.edges.map Edge.id).Nodup) ∧
    ∀ form id, ofJson form = .error (.invalid (.duplicateNode id)) →
      ∃ descriptors saved, form.Lists descriptors saved ∧ Json.ClashOver descriptors id :=
  ⟨fun _ _ _ _ => checkNodeId_inj.mp, fun _ _ => edgeIds_nodup, fun _ _ => clash_of_duplicate⟩

/-- A condition under an id that looks made up, with branches that lead to what could be read as one edge. -/
def dashedForm : Json := .arr
  [.obj [("id", .str "a-check-1"), ("type", .str "CONDITION"),
      ("child", .arr [.obj [("nextStepId", .str "b-c")], .obj [("nextStepId", .str "b-c")]])],
    .obj [("id", .str "a"), ("type", .str "CONDITION"), ("child", .arr [.obj [("nextStepId", .str "b")]])]]

/-- The same with a further branch, the id of which is that of the first condition. -/
def clashingForm : Json := .arr
  [.obj [("id", .str "a-check-1"), ("type", .str "CONDITION"), ("child", .arr [.obj []])],
    .obj [("id", .str "a"), ("type", .str "CONDITION"), ("child", .arr [.obj [], .obj []])]]

theorem made_up_ids_apart_dashed :
    checkNodeId "a-check-1" 1 ≠ checkNodeId "a" 11 ∧
      (∃ flow, ofJson dashedForm = .ok flow ∧ (flow.edges.map Edge.id).Nodup) ∧
      ofJson clashingForm = .error (.invalid (.duplicateNode "a-check-1")) ∧
      ∃ descriptors saved, clashingForm.Lists descriptors saved ∧ Json.ClashOver descriptors "a-check-1" := by
  obtain ⟨branches, edges, clashes⟩ := made_up_ids_apart
  have read : (ofJson dashedForm).toOption.isSome := by decide +kernel
  obtain ⟨flow, found⟩ := Option.isSome_iff_exists.mp read
  have imported := toOption_eq_some.mp found
  have fails : ofJson clashingForm = .error (.invalid (.duplicateNode "a-check-1")) := by decide +kernel
  exact ⟨fun same => absurd (branches _ _ _ _ same).2 (by decide), ⟨flow, imported, edges _ _ imported⟩, fails,
    clashes _ _ fails⟩

end Flow

end OutreachFlow
