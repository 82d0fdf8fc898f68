import OutreachFlow.Proofs.Import.Unfolding

/-! Import as reading followed by unfolding. Each written descriptor stands for at most one
descriptor, in whichever shape it was written, and an import succeeds exactly if all of them can
be read and what they stand for can be unfolded; the flow is then what they unfold to. -/
namespace OutreachFlow

theorem bind_eq_ok {ε α β : Type} {part : Except ε α} {next : α → Except ε β} {result : β} :
    (part >>= next) = .ok result ↔ ∃ value, part = .ok value ∧ next value = .ok result := by
  cases part <;> simp [bind, Except.bind]

theorem toOption_eq_some {ε α : Type} {part : Except ε α} {value : α} :
    part.toOption = some value ↔ part = .ok value := by
  cases part <;> simp [Except.toOption]

theorem mapError_eq_ok {ε ε' α : Type} {part : Except ε α} {change : ε → ε'} {value : α} :
    part.mapError change = .ok value ↔ part = .ok value := by
  cases part <;> simp [Except.mapError]

theorem map_eq_ok {ε α β : Type} {part : Except ε α} {change : α → β} {result : β} :
    part.map change = .ok result ↔ ∃ value, part = .ok value ∧ change value = result := by
  cases part <;> simp [Except.map]

theorem bind_eq_error {ε α β : Type} {part : Except ε α} {next : α → Except ε β} {fault : ε} :
    (part >>= next) = .error fault ↔
      part = .error fault ∨ ∃ value, part = .ok value ∧ next value = .error fault := by
  cases part <;> simp [bind, Except.bind]

theorem mapError_eq_error {ε ε' α : Type} {part : Except ε α} {change : ε → ε'} {fault : ε'} :
    part.mapError change = .error fault ↔ ∃ cause, part = .error cause ∧ change cause = fault := by
  cases part <;> simp [Except.mapError]

theorem map_eq_error {ε α β : Type} {part : Except ε α} {change : α → β} {fault : ε} :
    part.map change = .error fault ↔ part = .error fault := by
  cases part <;> simp [Except.map]

/-- The branch that a written one stands for. -/
def Branch.read? : Json → Option Branch
  | .obj fields => do
    let checks ← (Source.branchChecks fields).toOption
    let next ← (Source.nextStep fields).toOption
    return ⟨checks, next⟩
  | _ => none

namespace Descriptor

/-- The descriptor that the fields of one of a given kind stand for. -/
def readAs? (id : String) (fields : Fields) : NodeKind → Option Descriptor
  | .action => do
    let step ← (Source.actionStep fields).toOption
    let next ← (Source.actionNext fields).toOption
    return .action id step next
  | .condition => do
    let written ← (Source.branches fields).toOption
    let branches ← written.mapM Branch.read?
    return .condition id branches
  | .conditionCheck => do
    let checks ← (Source.standaloneChecks fields).toOption
    let next ← (Source.nextStep fields).toOption
    return .conditionCheck id checks next

/-- The descriptor that a written one stands for. -/
def read? : Json → Option Descriptor
  | .obj fields => do
    let id ← Node.idOf? fields
    let kind ← NodeKind.ofTagValue? (Fields.valueOf fields "type")
    readAs? id fields kind
  | _ => none

theorem kind_of_readAs {id : String} {fields : Fields} {kind : NodeKind} {descriptor : Descriptor}
    (read : readAs? id fields kind = some descriptor) : descriptor.kind = kind := by
  cases kind <;>
    simp only [readAs?, pure, Option.bind_eq_bind, Option.bind_eq_some_iff, Option.some.injEq] at read <;>
    obtain ⟨_, _, _, _, rfl⟩ := read <;> rfl

theorem id_of_readAs {id : String} {fields : Fields} {kind : NodeKind} {descriptor : Descriptor}
    (read : readAs? id fields kind = some descriptor) : descriptor.id = id := by
  cases kind <;>
    simp only [readAs?, pure, Option.bind_eq_bind, Option.bind_eq_some_iff, Option.some.injEq] at read <;>
    obtain ⟨_, _, _, _, rfl⟩ := read <;> rfl

end Descriptor

namespace Draft

theorem within_eq_ok {α : Type} {id : String} {part : Except DescriptorFault α} {value : α} :
    within id part = .ok value ↔ part = .ok value := mapError_eq_ok

theorem addBranch_eq_ok {saved : Fields} {id : String} {parent : Position} {index : Nat}
    {value : Json} {draft after : Draft} :
    draft.addBranch saved id parent index value = .ok after ↔
      ∃ branch, Branch.read? value = some branch ∧ BranchPlaced saved id parent index ∧
        draft.Admits [branch.node saved id parent index] ∧
        draft.extend [branch.node saved id parent index] (branch.links id index) = after := by
  cases value with
  | obj fields =>
    simp only [addBranch, bind_eq_ok, within_eq_ok, childPosition_eq_ok, add_eq_ok, pure,
      Except.pure, Except.ok.injEq, link_eq_extend, linkNext_eq_extend, Branch.read?,
      Option.bind_eq_bind, Option.bind_eq_some_iff, toOption_eq_some, Option.some.injEq]
    constructor
    · rintro ⟨checks, readChecks, _, ⟨placed, rfl⟩, _, ⟨admits, rfl⟩, next, readNext, rfl⟩
      refine ⟨⟨checks, next⟩, ⟨checks, readChecks, next, readNext, rfl⟩, placed, admits, ?_⟩
      simp only [extend_extend, List.append_nil, List.nil_append, List.singleton_append]
      rfl
    · rintro ⟨_, ⟨checks, readChecks, next, readNext, rfl⟩, placed, admits, rfl⟩
      refine ⟨checks, readChecks, _, ⟨placed, rfl⟩, _, ⟨admits, rfl⟩, next, readNext, ?_⟩
      simp only [extend_extend, List.append_nil, List.nil_append, List.singleton_append]
      rfl
  | _ => simp [addBranch, Branch.read?, within, Except.mapError]

theorem addBranches_eq_ok {saved : Fields} {id : String} {parent : Position} {index : Nat}
    {values : List Json} {draft after : Draft} :
    draft.addBranches saved id parent index values = .ok after ↔
      ∃ branches, values.mapM Branch.read? = some branches ∧
        (∀ entry ∈ branches.zipIdx index, BranchPlaced saved id parent entry.2) ∧
        draft.Admits ((branches.zipIdx index).map fun entry =>
          entry.1.node saved id parent entry.2) ∧
        draft.extend ((branches.zipIdx index).map fun entry => entry.1.node saved id parent entry.2)
          ((branches.zipIdx index).flatMap fun entry => entry.1.links id entry.2) = after := by
  induction values generalizing index draft with
  | nil => simp [addBranches, Admits, extend_nil]
  | cons value rest ih =>
    simp only [addBranches, bind_eq_ok, addBranch_eq_ok, ih, List.mapM_cons, pure,
      Option.bind_eq_bind, Option.bind_eq_some_iff, Option.some.injEq]
    constructor
    · rintro ⟨_, ⟨branch, readFirst, placed, admits, rfl⟩, branches, readRest, others, further, rfl⟩
      refine ⟨branch :: branches, ⟨branch, readFirst, branches, readRest, rfl⟩, ?_, ?_, ?_⟩
      · exact List.forall_mem_cons.mpr ⟨placed, others⟩
      · exact (admits_append (branch.links id index)).mpr ⟨admits, further⟩
      · rw [extend_extend]
        rfl
    · rintro ⟨_, ⟨branch, readFirst, branches, readRest, rfl⟩, placed, admits, rfl⟩
      obtain ⟨placed, others⟩ := List.forall_mem_cons.mp placed
      obtain ⟨admits, further⟩ := (admits_append (branch.links id index)).mp
        (show draft.Admits ([branch.node saved id parent index] ++ _) from admits)
      refine ⟨_, ⟨branch, readFirst, placed, admits, rfl⟩, branches, readRest, others, further, ?_⟩
      rw [extend_extend]
      rfl

/-- What a descriptor must meet to be added in a slot, and the draft after it. -/
def Grows (saved : Fields) (slot : Nat) (descriptor : Descriptor) (draft after : Draft) : Prop :=
  descriptor.Placed saved slot ∧ draft.Admits (descriptor.nodes saved slot) ∧
    draft.extend (descriptor.nodes saved slot) descriptor.links = after

/-- A descriptor without branches is placed anyway, and adds one node with its next step. -/
theorem grows_single {saved : Fields} {slot : Nat} {descriptor : Descriptor} {draft after : Draft}
    (single : descriptor.branches = []) :
    Grows saved slot descriptor draft after ↔
      draft.Admits [descriptor.primary saved slot] ∧
        (draft.extend [descriptor.primary saved slot] []).linkNext descriptor.id descriptor.next =
          after := by
  simp [Grows, Descriptor.Placed, Descriptor.nodes, Descriptor.branchNodes, Descriptor.links, single,
    linkNext_eq_extend, extend_extend]

theorem addAction_eq_ok {saved : Fields} {slot : Nat} {id : String} {fields : Fields}
    {draft after : Draft} :
    draft.addAction saved slot id fields = .ok after ↔
      ∃ descriptor, Descriptor.readAs? id fields .action = some descriptor ∧
        Grows saved slot descriptor draft after := by
  simp only [addAction, bind_eq_ok, within_eq_ok, add_eq_ok, pure, Except.pure, Except.ok.injEq,
    Descriptor.readAs?, Option.bind_eq_bind, Option.bind_eq_some_iff, toOption_eq_some, Option.some.injEq]
  constructor
  · rintro ⟨step, readStep, next, readNext, _, ⟨admits, rfl⟩, rfl⟩
    exact ⟨_, ⟨step, readStep, next, readNext, rfl⟩, (grows_single rfl).mpr ⟨admits, rfl⟩⟩
  · rintro ⟨_, ⟨step, readStep, next, readNext, rfl⟩, grows⟩
    obtain ⟨admits, rfl⟩ := (grows_single rfl).mp grows
    exact ⟨step, readStep, next, readNext, _, ⟨admits, rfl⟩, rfl⟩

theorem addStandaloneCheck_eq_ok {saved : Fields} {slot : Nat} {id : String} {fields : Fields}
    {draft after : Draft} :
    draft.addStandaloneCheck saved slot id fields = .ok after ↔
      ∃ descriptor, Descriptor.readAs? id fields .conditionCheck = some descriptor ∧
        Grows saved slot descriptor draft after := by
  simp only [addStandaloneCheck, bind_eq_ok, within_eq_ok, add_eq_ok, pure, Except.pure,
    Except.ok.injEq, Descriptor.readAs?, Option.bind_eq_bind, Option.bind_eq_some_iff, toOption_eq_some,
    Option.some.injEq]
  constructor
  · rintro ⟨checks, readChecks, _, ⟨admits, rfl⟩, next, readNext, rfl⟩
    exact ⟨_, ⟨checks, readChecks, next, readNext, rfl⟩, (grows_single rfl).mpr ⟨admits, rfl⟩⟩
  · rintro ⟨_, ⟨checks, readChecks, next, readNext, rfl⟩, grows⟩
    obtain ⟨admits, rfl⟩ := (grows_single rfl).mp grows
    exact ⟨checks, readChecks, _, ⟨admits, rfl⟩, next, readNext, rfl⟩

theorem addCondition_eq_ok {saved : Fields} {slot : Nat} {id : String} {fields : Fields}
    {draft after : Draft} :
    draft.addCondition saved slot id fields = .ok after ↔
      ∃ descriptor, Descriptor.readAs? id fields .condition = some descriptor ∧
        Grows saved slot descriptor draft after := by
  simp only [addCondition, bind_eq_ok, within_eq_ok, add_eq_ok, addBranches_eq_ok,
    Descriptor.readAs?, pure, Option.bind_eq_bind, Option.bind_eq_some_iff, toOption_eq_some, Option.some.injEq]
  constructor
  · rintro ⟨written, readWritten, _, ⟨admits, rfl⟩, branches, readBranches, placed, further, rfl⟩
    refine ⟨_, ⟨written, readWritten, branches, readBranches, rfl⟩, placed, ?_, ?_⟩
    · exact (admits_append []).mpr ⟨admits, further⟩
    · rw [extend_extend]
      rfl
  · rintro ⟨_, ⟨written, readWritten, branches, readBranches, rfl⟩, placed, admits, rfl⟩
    obtain ⟨admits, further⟩ := (admits_append []).mp
      (show draft.Admits ([⟨id, .condition, primaryPosition saved id slot⟩] ++ _) from admits)
    refine ⟨written, readWritten, _, ⟨admits, rfl⟩, branches, readBranches, placed, further, ?_⟩
    rw [extend_extend]
    rfl

theorem addDescriptor_eq_ok {saved : Fields} {slot : Nat} {value : Json} {draft after : Draft} :
    draft.addDescriptor saved slot value = .ok after ↔
      ∃ descriptor, Descriptor.read? value = some descriptor ∧
        (slot = 0 → descriptor.kind ≠ .conditionCheck) ∧
        Grows saved slot descriptor draft after := by
  cases value with
  | obj fields =>
    cases named : Node.idOf? fields with
    | none => simp [addDescriptor, Descriptor.read?, named]
    | some id =>
      cases tagged : NodeKind.ofTagValue? (Fields.valueOf fields "type") with
      | none => simp [addDescriptor, Descriptor.read?, named, tagged]
      | some kind =>
        have read : Descriptor.read? (.obj fields) = Descriptor.readAs? id fields kind := by
          simp [Descriptor.read?, named, tagged]
        have kinds (descriptor : Descriptor) (h : Descriptor.readAs? id fields kind = some descriptor) :
            descriptor.kind = kind := Descriptor.kind_of_readAs h
        rw [read]
        -- In the first slot a check on its own is refused before it is read.
        cases kind with
        | action =>
          simp only [addDescriptor, named, tagged, addAction_eq_ok]
          grind
        | condition =>
          simp only [addDescriptor, named, tagged, addCondition_eq_ok]
          grind
        | conditionCheck =>
          by_cases first : slot = 0
          · simp only [addDescriptor, named, tagged, first, if_true]
            grind
          · simp only [addDescriptor, named, tagged, first, if_false, addStandaloneCheck_eq_ok]
            grind
  | _ => simp [addDescriptor, Descriptor.read?]

theorem addDescriptors_eq_ok {saved : Fields} {slot : Nat} {values : List Json}
    {draft after : Draft} :
    draft.addDescriptors saved slot values = .ok after ↔
      ∃ descriptors, values.mapM Descriptor.read? = some descriptors ∧
        (slot = 0 → ∀ first ∈ descriptors.head?, first.kind ≠ .conditionCheck) ∧
        (∀ entry ∈ descriptors.zipIdx slot, entry.1.Placed saved entry.2) ∧
        draft.Admits (unfoldedNodes saved slot descriptors) ∧
        draft.extend (unfoldedNodes saved slot descriptors) (unfoldedLinks descriptors) = after := by
  induction values generalizing slot draft with
  | nil => simp [addDescriptors, Admits, unfoldedNodes, unfoldedLinks, extend_nil]
  | cons value rest ih =>
    simp only [addDescriptors, bind_eq_ok, addDescriptor_eq_ok, ih, List.mapM_cons, pure,
      Option.bind_eq_bind, Option.bind_eq_some_iff, Option.some.injEq]
    constructor
    · rintro ⟨_, ⟨first, readFirst, start, placed, admits, rfl⟩, others, readRest, _, placedRest,
        further, rfl⟩
      refine ⟨first :: others, ⟨first, readFirst, others, readRest, rfl⟩, ?_, ?_, ?_, ?_⟩
      · simpa using start
      · exact List.forall_mem_cons.mpr ⟨placed, placedRest⟩
      · exact (admits_append first.links).mpr ⟨admits, further⟩
      · rw [extend_extend]
        rfl
    · rintro ⟨_, ⟨first, readFirst, others, readRest, rfl⟩, start, placed, admits, rfl⟩
      obtain ⟨placed, placedRest⟩ := List.forall_mem_cons.mp placed
      obtain ⟨admits, further⟩ := (admits_append first.links).mp
        (show draft.Admits (first.nodes saved slot ++ _) from admits)
      refine ⟨_, ⟨first, readFirst, by simpa using start, placed, admits, rfl⟩, others, readRest,
        by simp, placedRest, further, ?_⟩
      rw [extend_extend]
      rfl

end Draft

theorem Draft.empty_admits {nodes : List Node} :
    Draft.empty.Admits nodes ↔ (nodes.map Node.id).Nodup := by
  simp [Draft.Admits, Draft.has, Draft.empty]

theorem head_of_unfold (saved : Fields) (first : Descriptor) (rest : List Descriptor) :
    ∃ nodes, (Draft.empty.extend (unfoldedNodes saved 0 (first :: rest))
      (unfoldedLinks (first :: rest))).nodes = first.primary saved 0 :: nodes :=
  ⟨_, rfl⟩

namespace Flow

/-- Import succeeds exactly on readable documents whose descriptors can be unfolded, and gives
what they unfold to. -/
theorem ofJson_eq_ok {form : Json} {flow : Flow} :
    ofJson form = .ok flow ↔
      ∃ values saved descriptors, unwrap form = .ok (values, saved) ∧
        values.mapM Descriptor.read? = some descriptors ∧ Unfoldable saved descriptors ∧
        unfold saved descriptors = flow := by
  simp only [ofJson, bind_eq_ok, mapError_eq_ok, Prod.exists, Draft.addDescriptors_eq_ok,
    Draft.empty_admits, unfoldedNodes_ids]
  constructor
  · rintro ⟨values, saved, unwrapped, _, ⟨descriptors, read, start, placed, distinct, rfl⟩, entered⟩
    cases descriptors with
    | nil => simp [Draft.extend, Draft.empty, unfoldedNodes] at entered
    | cons first rest =>
      refine ⟨values, saved, first :: rest, unwrapped, read,
        ⟨⟨first, rfl, start trivial first rfl⟩, distinct, placed⟩, ?_⟩
      obtain ⟨nodes, shape⟩ := head_of_unfold saved first rest
      rw [shape] at entered
      exact Except.ok.inj entered
  · rintro ⟨values, saved, descriptors, unwrapped, read, unfoldable, rfl⟩
    obtain ⟨first, rest, rfl, start⟩ := unfoldable.eq_cons
    refine ⟨values, saved, unwrapped, _, ⟨first :: rest, read, by simpa using start,
      unfoldable.placed, unfoldable.distinct, rfl⟩, ?_⟩
    obtain ⟨nodes, shape⟩ := head_of_unfold saved first rest
    rw [shape]
    rfl

end Flow

end OutreachFlow
