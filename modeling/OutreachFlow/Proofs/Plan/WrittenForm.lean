import OutreachFlow.Proofs.Import.Reading
import OutreachFlow.Proofs.Json.Fields

/-! The written form of a plan is read back as that plan, as long as no id and no next step in it
is empty: an empty next step means that nothing follows. Whatever is read has no empty names. -/
namespace OutreachFlow

open Fields (valueOf)

/-- Reading what was written, item by item. -/
theorem mapM_map_inverse {m : Type → Type} [Monad m] [LawfulMonad m] {α β : Type}
    {write : α → β} {read : β → m α} {items : List α}
    (inverse : ∀ item ∈ items, read (write item) = pure item) :
    (items.map write).mapM read = pure items := by
  induction items with
  | nil => simp
  | cons item rest ih =>
    obtain ⟨first, others⟩ := List.forall_mem_cons.mp inverse
    simp [first, ih others]

/-- A vocabulary whose words are told apart. -/
class LawfulVocabulary (α : Type) [Vocabulary α] : Prop where
  ofWord?_word : ∀ member : α, Vocabulary.ofWord? (Vocabulary.word member) = some member

instance : LawfulVocabulary ActionKind := ⟨fun member => by cases member <;> decide⟩

instance : LawfulVocabulary Provider := ⟨fun member => by cases member <;> decide⟩

instance : LawfulVocabulary Predicate := ⟨fun member => by cases member <;> decide⟩

theorem readWord_word {α : Type} [Vocabulary α] [LawfulVocabulary α] (field : String)
    (member : α) : readWord field (.str (Vocabulary.word member)) = .ok member := by
  simp [readWord, Vocabulary.read, Vocabulary.ofJson?, Json.asString?,
    LawfulVocabulary.ofWord?_word, Except.mapError]

theorem NodeKind.ofTagValue?_tag (kind : NodeKind) : ofTagValue? (.str kind.tag) = some kind := by
  cases kind <;> decide

namespace Check

theorem ofJson_toNested (check : Check) : ofJson check.toNested = .ok check := by
  obtain ⟨condition, outcome, hours⟩ := check
  cases hours <;>
    simp [ofJson, toNested, ofFields, words, readOutcome, hoursValue, readHours, valueOf,
      readWord_word, bind, Except.bind, pure, Except.pure]

theorem listOfJson_checksForm (checks : List Check) :
    listOfJson (checksForm checks) = .ok checks :=
  mapM_map_inverse fun check _ => ofJson_toNested check

end Check

/-- The message stands in a data object, where reading finds it. -/
theorem ActionStep.ofData_actionForm (step : ActionStep) (next : Option String) :
    ofData (Source.actionFields (Descriptor.actionForm step next)) = .ok step := by
  obtain ⟨action, provider, message⟩ := step
  cases message <;>
    simp [Source.actionFields, Descriptor.actionForm, nextField, words, valueOf, Fields.set,
      Fields.has, ofData, ofFields, readMessage, readWord_word, bind, Except.bind, pure, Except.pure]

namespace Source

theorem nextStep_of_get? {fields : Fields} {next : Option String}
    (found : fields.get? "nextStepId" = next.map .str) (named : next ≠ some "") :
    nextStep fields = .ok next := by
  unfold nextStep valueOf
  rw [found]
  cases next with
  | none => rfl
  | some id =>
    have nonempty : id ≠ "" := fun empty => named (empty ▸ rfl)
    simp [nonempty]

end Source

/-- A branch whose next step, if there is one, is not empty. -/
def Branch.Named (branch : Branch) : Prop := branch.next ≠ some ""

theorem Branch.read?_toJson {branch : Branch} (named : branch.Named) :
    read? branch.toJson = some branch := by
  have found : Source.nextStep (nextField branch.next ++ [("checks", checksForm branch.checks)]) =
      .ok branch.next :=
    Source.nextStep_of_get? (by simp [nextField]) named
  have checks : Source.branchChecks (nextField branch.next ++
      [("checks", checksForm branch.checks)]) = .ok branch.checks := by
    simp [Source.branchChecks, Source.checksUnder, nextField, Check.listOfJson_checksForm,
      Except.mapError]
  simp [read?, toJson, found, checks, Except.toOption]

namespace Descriptor

/-- A descriptor whose id is not empty, and none of whose next steps is. -/
structure Named (descriptor : Descriptor) : Prop where
  id : descriptor.id ≠ ""
  next : descriptor.next ≠ some ""
  branches : ∀ branch ∈ descriptor.branches, branch.Named

theorem actionStep_toJson (id : String) (step : ActionStep) (next : Option String) :
    ∃ fields, (action id step next).toJson = .obj fields ∧ Source.actionStep fields = .ok step := by
  refine ⟨_, rfl, ?_⟩
  simp [Source.actionStep, Source.actionRecord, body, valueOf, ActionStep.ofData_actionForm,
    Except.mapError]

theorem readAs?_toJson {descriptor : Descriptor} (named : descriptor.Named) :
    readAs? descriptor.id ([("id", .str descriptor.id), ("type", .str descriptor.kind.tag)] ++
      descriptor.body) descriptor.kind = some descriptor := by
  cases descriptor with
  | action id step next =>
    have follows : Source.nextStep (actionForm step next) = .ok next :=
      Source.nextStep_of_get? (by simp [actionForm, ActionStep.words, nextField]) named.next
    -- Without a next step the descriptor is asked, which has none either.
    have outside : Source.nextStep [("id", .str id), ("type", .str "ACTION"),
        ("child", .obj (actionForm step next))] = .ok none := rfl
    have child : Source.actionNext [("id", .str id), ("type", .str "ACTION"),
        ("child", .obj (actionForm step next))] = .ok next := by
      cases next <;>
        simp [Source.actionNext, Source.actionRecord, valueOf, follows, outside, bind, Except.bind,
          pure, Except.pure]
    have content : Source.actionStep [("id", .str id), ("type", .str "ACTION"),
        ("child", .obj (actionForm step next))] = .ok step := by
      obtain ⟨fields, written, read⟩ := actionStep_toJson id step next
      obtain rfl := Json.obj.inj written
      exact read
    simp [readAs?, body, kind, NodeKind.tag, Descriptor.id, child, content, Except.toOption]
  | condition id branches =>
    have read : (branches.map Branch.toJson).mapM Branch.read? = some branches :=
      mapM_map_inverse fun branch member => Branch.read?_toJson (named.branches branch member)
    simp [readAs?, body, kind, Descriptor.id, Source.branches, valueOf, read, Except.toOption]
  | conditionCheck id checks next =>
    have follows : Source.nextStep ([("id", .str id), ("type", .str "CONDITION_CHECK")] ++
        ("conditions", checksForm checks) :: nextField next) = .ok next :=
      Source.nextStep_of_get? (by simp [nextField]) named.next
    have content : Source.standaloneChecks ([("id", .str id), ("type", .str "CONDITION_CHECK")] ++
        ("conditions", checksForm checks) :: nextField next) = .ok checks := by
      simp [Source.standaloneChecks, Source.checksUnder, Check.listOfJson_checksForm,
        Except.mapError]
    simp only [readAs?, body, kind, NodeKind.tag, Descriptor.id, follows, content, Except.toOption]
    rfl

theorem read?_toJson {descriptor : Descriptor} (named : descriptor.Named) :
    read? descriptor.toJson = some descriptor := by
  have first : Node.idOf? ([("id", .str descriptor.id), ("type", .str descriptor.kind.tag)] ++
      descriptor.body) = some descriptor.id := by
    simp [Node.idOf?, valueOf, named.id]
  have second : NodeKind.ofTagValue? (valueOf ([("id", .str descriptor.id),
      ("type", .str descriptor.kind.tag)] ++ descriptor.body) "type") = some descriptor.kind := by
    simp [valueOf, NodeKind.ofTagValue?_tag]
  simp only [read?, toJson, first, second, Option.bind_eq_bind, Option.bind_some]
  exact readAs?_toJson named

end Descriptor

/-! Names that are read -/

theorem Source.nextStep_named {fields : Fields} {next : Option String}
    (read : nextStep fields = .ok next) : next ≠ some "" := by
  unfold nextStep at read
  split at read
  · obtain rfl := Except.ok.inj read
    exact Option.some_ne_none "" ∘ Eq.symm
  · split at read <;> obtain rfl := Except.ok.inj read
    · exact Option.some_ne_none "" ∘ Eq.symm
    · rename_i nonempty
      exact fun empty => nonempty (Option.some.inj empty)
  · contradiction

theorem Source.actionNext_named {fields : Fields} {next : Option String}
    (read : actionNext fields = .ok next) : next ≠ some "" := by
  obtain ⟨own, readOwn, chosen⟩ := bind_eq_ok.mp read
  cases own with
  | none => exact nextStep_named chosen
  | some id =>
    obtain rfl := Except.ok.inj chosen
    exact nextStep_named readOwn

theorem Branch.named_of_read {value : Json} {branch : Branch} (read : read? value = some branch) :
    branch.Named := by
  cases value with
  | obj fields =>
    simp only [read?, pure, Option.bind_eq_bind, Option.bind_eq_some_iff, toOption_eq_some,
      Option.some.injEq] at read
    obtain ⟨_, _, _, readNext, rfl⟩ := read
    exact Source.nextStep_named readNext
  | _ => contradiction

theorem Node.idOf?_nonempty {fields : Fields} {id : String} (read : idOf? fields = some id) :
    id ≠ "" := by
  unfold idOf? at read
  split at read
  · split at read
    · contradiction
    · rename_i nonempty
      exact Option.some.inj read ▸ nonempty
  · contradiction

theorem mem_of_mapM {α β : Type} {read : α → Option β} {values : List α} {items : List β}
    (all : values.mapM read = some items) : ∀ item ∈ items, ∃ value ∈ values, read value = some item := by
  induction values generalizing items with
  | nil => simp_all
  | cons value rest ih =>
    simp only [List.mapM_cons, pure, Option.bind_eq_bind, Option.bind_eq_some_iff,
      Option.some.injEq] at all
    obtain ⟨first, readFirst, others, readOthers, rfl⟩ := all
    refine List.forall_mem_cons.mpr ⟨⟨value, List.mem_cons_self, readFirst⟩, ?_⟩
    intro item member
    obtain ⟨source, inside, found⟩ := ih readOthers item member
    exact ⟨source, List.mem_cons_of_mem _ inside, found⟩

/-- Items have counterparts one by one if each of them has one. -/
theorem exists_forall₂ {α β : Type} {fits : α → β → Prop} {items : List α} :
    (∃ others, List.Forall₂ fits items others) ↔ ∀ item ∈ items, ∃ other, fits item other := by
  induction items with
  | nil => simp
  | cons item rest ih =>
    rw [List.forall_mem_cons, ← ih]
    constructor
    · rintro ⟨_, all⟩
      obtain ⟨other, others, first, each, _⟩ := List.forall₂_cons_left_iff.mp all
      exact ⟨⟨other, first⟩, others, each⟩
    · rintro ⟨⟨other, first⟩, others, each⟩
      exact ⟨other :: others, .cons first each⟩

/-- Reading a list is reading its items one by one. -/
theorem mapM_eq_some {α β : Type} {read : α → Option β} {values : List α} {items : List β} :
    values.mapM read = some items ↔
      List.Forall₂ (fun value item => read value = some item) values items := by
  induction values generalizing items with
  | nil => simp [eq_comm]
  | cons value rest ih =>
    simp only [List.mapM_cons, pure, Option.bind_eq_bind, Option.bind_eq_some_iff,
      Option.some.injEq, List.forall₂_cons_left_iff, ← ih]
    grind

theorem mapM_eq_ok {ε α β : Type} {read : α → Except ε β} {values : List α} {items : List β} :
    values.mapM read = .ok items ↔
      List.Forall₂ (fun value item => read value = .ok item) values items := by
  induction values generalizing items with
  | nil => simp [pure, Except.pure, eq_comm]
  | cons value rest ih =>
    simp only [List.mapM_cons, bind_eq_ok, pure, Except.pure, Except.ok.injEq,
      List.forall₂_cons_left_iff, ← ih]
    grind

theorem exists_mapM_some {α β : Type} {read : α → Option β} {values : List α} :
    (∃ items, values.mapM read = some items) ↔ ∀ value ∈ values, ∃ item, read value = some item := by
  simp only [mapM_eq_some, exists_forall₂]

/-- Whatever is read names every node and every next step. -/
theorem Descriptor.named_of_read {value : Json} {descriptor : Descriptor}
    (read : read? value = some descriptor) : descriptor.Named := by
  cases value with
  | obj fields =>
    simp only [read?, Option.bind_eq_bind, Option.bind_eq_some_iff] at read
    obtain ⟨id, readId, kind, _, read⟩ := read
    have nonempty : descriptor.id ≠ "" := id_of_readAs read ▸ Node.idOf?_nonempty readId
    cases kind <;> simp only [readAs?, pure, Option.bind_eq_bind, Option.bind_eq_some_iff,
      toOption_eq_some, Option.some.injEq] at read
    · obtain ⟨_, _, _, readNext, rfl⟩ := read
      exact ⟨nonempty, Source.actionNext_named readNext, by simp [branches]⟩
    · obtain ⟨_, _, branches, readBranches, rfl⟩ := read
      refine ⟨nonempty, by simp [next], ?_⟩
      intro branch member
      obtain ⟨_, _, found⟩ := mem_of_mapM readBranches branch member
      exact Branch.named_of_read found
    · obtain ⟨_, _, _, readNext, rfl⟩ := read
      exact ⟨nonempty, Source.nextStep_named readNext, by simp [branches]⟩
  | _ => contradiction

theorem Descriptor.named_of_mapM {values : List Json} {descriptors : List Descriptor}
    (read : values.mapM read? = some descriptors) : ∀ descriptor ∈ descriptors, descriptor.Named := by
  intro descriptor member
  obtain ⟨_, _, found⟩ := mem_of_mapM read descriptor member
  exact named_of_read found

/-! Whole plans -/

/-- The saved positions of a written plan. -/
def Plan.saved (plan : Plan) : Fields :=
  plan.positions.map fun entry => (entry.1, entry.2.toJson)

theorem Flow.unwrap_toJson (plan : Plan) :
    unwrap plan.toJson = .ok (plan.descriptors.map Descriptor.toJson, plan.saved) := by
  have supported : isSupported (.int Plan.version) = true := by decide
  simp [unwrap, Plan.toJson, valueOf, supported, Plan.saved, pure, Except.pure]

/-- A written plan without empty names is imported exactly if its descriptors can be unfolded, and
gives what they unfold to. -/
theorem Flow.ofJson_toJson {plan : Plan} {flow : Flow}
    (named : ∀ descriptor ∈ plan.descriptors, descriptor.Named) :
    ofJson plan.toJson = .ok flow ↔
      Unfoldable plan.saved plan.descriptors ∧ unfold plan.saved plan.descriptors = flow := by
  have read : (plan.descriptors.map Descriptor.toJson).mapM Descriptor.read? =
      some plan.descriptors :=
    mapM_map_inverse fun descriptor member => Descriptor.read?_toJson (named descriptor member)
  rw [ofJson_eq_ok]
  constructor
  · rintro ⟨values, saved, descriptors, unwrapped, found, unfoldable, rfl⟩
    rw [unwrap_toJson, Except.ok.injEq, Prod.mk.injEq] at unwrapped
    obtain ⟨rfl, rfl⟩ := unwrapped
    obtain rfl := Option.some.inj (found.symm.trans read)
    exact ⟨unfoldable, rfl⟩
  · rintro ⟨unfoldable, rfl⟩
    exact ⟨_, _, _, unwrap_toJson plan, read, unfoldable, rfl⟩

end OutreachFlow
