import OutreachFlow.Json.Order
import OutreachFlow.Proofs.Payload.Meaning
import OutreachFlow.Proofs.Plan.Places

/-! Which documents are plans. The grammar says so of the document alone, without a word on what it
is read as or in which order; older shapes are part of it. An import succeeds exactly on the plans,
apart from coordinates that no double can hold. -/
namespace OutreachFlow

open Fields (valueOf)

/-! The grammar -/

namespace Json

def IsOptionalText (value : Json) : Prop := value = .null ∨ ∃ text, value = .str text

/-- Null or a number. Truth values are no numbers here. -/
def IsOptionalNumber (value : Json) : Prop := value = .null ∨ ∃ number, value = .num number

def IsWord (α : Type) [Vocabulary α] (value : Json) : Prop :=
  ∃ member : α, value = .str (Vocabulary.word member)

def IsObject (holds : Fields → Prop) (value : Json) : Prop :=
  ∃ fields, value = .obj fields ∧ holds fields

/-- Null or a list of objects. -/
def IsOptionalList (holds : Fields → Prop) (value : Json) : Prop :=
  value = .null ∨ ∃ items, value = .arr items ∧ ∀ item ∈ items, item.IsObject holds

end Json

namespace Fields

/-- A check. Its outcome may be missing but not null; the extra value counts only where there is no
waiting time beside the condition. -/
structure IsCheck (fields : Fields) : Prop where
  condition : (fields.valueOf "condition").IsWord Predicate
  outcome : ∀ value, fields.get? "value" = some value → ∃ truth, value = .bool truth
  hours : (fields.valueOf "timeInHours").IsOptionalNumber
  extra : fields.valueOf "timeInHours" = .null →
    ∀ extra, fields.valueOf "conditionExtraValue" = .obj extra →
      (valueOf extra "timeInHours").IsOptionalNumber

/-- A list of checks under the first of two keys; the second counts only if the first is missing. -/
structure HasChecks (key other : String) (fields : Fields) : Prop where
  first : ∀ value, fields.get? key = some value → value.IsOptionalList IsCheck
  second : fields.get? key = none → (fields.valueOf other).IsOptionalList IsCheck

def HasNextStep (fields : Fields) : Prop := (fields.valueOf "nextStepId").IsOptionalText

def LacksNextStep (fields : Fields) : Prop :=
  fields.valueOf "nextStepId" = .null ∨ fields.valueOf "nextStepId" = .str ""

/-- What an action does and through whom, with a message that may stand elsewhere. -/
structure IsActionStep (fields : Fields) (message : Json) : Prop where
  action : (fields.valueOf "action").IsWord ActionKind
  provider : (fields.valueOf "provider").IsWord Provider
  message : message.IsOptionalText

/-- The data of an action. A list of actions stands for its first one and an empty list for the default;
without a list the data are an action themselves. -/
@[mk_iff]
inductive IsActionData (data : Fields) : Prop
  | default (none : data.valueOf "actions" = .arr [])
  | listed (first : Fields) (rest : List Json)
      (list : data.valueOf "actions" = .arr (.obj first :: rest))
      (step : first.IsActionStep (first.valueOf "message"))
  | own (unlisted : ∀ actions, data.valueOf "actions" ≠ .arr actions)
      (step : data.IsActionStep (data.valueOf "message"))

/-- The record of an action. A list of actions stands for its first one, which keeps its message to
itself, and an empty list for the default. -/
@[mk_iff]
inductive IsActionRecord (record : Fields) : Prop
  | default (none : record.valueOf "actions" = .arr [])
  | listed (first : Fields) (rest : List Json)
      (list : record.valueOf "actions" = .arr (.obj first :: rest))
      (step : first.IsActionStep (first.valueOf "message"))
  | own (unlisted : ∀ actions, record.valueOf "actions" ≠ .arr actions)
      (step : record.IsActionStep record.messageOf)

/-- An action, with its record in a child object or flat. The descriptor is asked for the next step
where its child has none. -/
inductive IsAction (descriptor : Fields) : Prop
  | nested (child : Fields) (inside : descriptor.valueOf "child" = .obj child)
      (record : child.IsActionRecord) (next : child.HasNextStep)
      (outside : child.LacksNextStep → descriptor.HasNextStep)
  | flat (childless : ∀ child, descriptor.valueOf "child" ≠ .obj child)
      (record : descriptor.IsActionRecord) (next : descriptor.HasNextStep)

/-- Checks with the step behind them. -/
structure IsGuard (key other : String) (fields : Fields) : Prop where
  checks : fields.HasChecks key other
  next : fields.HasNextStep

def IsBranch (branch : Fields) : Prop := branch.IsGuard "checks" "conditions"

/-- A condition, with its branches in place of a child; null stands for none. -/
def IsCondition (descriptor : Fields) : Prop := (descriptor.valueOf "child").IsOptionalList IsBranch

def IsConditionCheck (descriptor : Fields) : Prop := descriptor.IsGuard "conditions" "checks"

def IsOfKind (descriptor : Fields) : NodeKind → Prop
  | .action => descriptor.IsAction
  | .condition => descriptor.IsCondition
  | .conditionCheck => descriptor.IsConditionCheck

def HasTag (descriptor : Fields) (kind : NodeKind) : Prop := descriptor.valueOf "type" = .str kind.tag

theorem HasTag.unique {descriptor : Fields} {kind other : NodeKind} (tag : descriptor.HasTag kind)
    (tag' : descriptor.HasTag other) : kind = other := by
  have same := tag.symm.trans tag'
  revert same
  cases kind <;> cases other <;> decide

/-- A descriptor: an id that is not empty, the tag of a kind, and what that kind asks for. -/
def IsDescriptor (descriptor : Fields) : Prop :=
  (∃ id, id ≠ "" ∧ descriptor.valueOf "id" = .str id) ∧
    ∃ kind, descriptor.HasTag kind ∧ descriptor.IsOfKind kind

/-- The branches of a condition, as they are written. -/
def branchForms (descriptor : Fields) : List Json :=
  if descriptor.valueOf "type" = .str NodeKind.condition.tag then
    match descriptor.valueOf "child" with
    | .arr branches => branches
    | _ => []
  else []

/-- The ids that a descriptor takes up: its own, and one for each branch. -/
def nodeIds (descriptor : Fields) : List String :=
  match descriptor.valueOf "id" with
  | .str id => id :: (List.range descriptor.branchForms.length).map (checkNodeId id)
  | _ => []

end Fields

namespace Json

/-- What a form lists: a bare list has no positions, an object may have them. The version may be any
value that equals the known one, a truth value included. -/
inductive Lists : Json → List Json → Fields → Prop
  | bare (descriptors : List Json) : Lists (.arr descriptors) descriptors []
  | wrapped (fields : Fields) (descriptors : List Json) (saved : Fields)
      (nodes : fields.get? "nodes" = some (.arr descriptors))
      (version : ∀ version, fields.get? "version" = some version → version.same (.int Plan.version))
      (positions : fields.valueOf "positions" = .obj saved ∨
        fields.valueOf "positions" = .null ∧ saved = []) :
      Lists (.obj fields) descriptors saved

/-- The ids of a descriptor, none where there is no object. -/
def nodeIds : Json → List String
  | .obj descriptor => Fields.nodeIds descriptor
  | _ => []

/-- A plan: descriptors that take up no id twice, of which the first is no check on its own. -/
def IsPlan (form : Json) : Prop :=
  ∃ descriptors saved, form.Lists descriptors saved ∧
    (∃ first rest, descriptors = .obj first :: rest ∧ ¬ Fields.HasTag first .conditionCheck) ∧
    (∀ value ∈ descriptors, value.IsObject Fields.IsDescriptor) ∧
    (descriptors.flatMap nodeIds).Nodup

/-- No saved coordinate is an integer beyond the doubles. -/
def CoordinatesFit (form : Json) : Prop :=
  ∀ fields saved, form = .obj fields → valueOf fields "positions" = .obj saved →
    ∀ id place, valueOf saved id = .obj place →
      Position.FitsDoubles ⟨valueOf place "x", valueOf place "y"⟩

end Json

theorem exists_mapM_ok {ε α β : Type} {read : α → Except ε β} {values : List α} :
    (∃ items, values.mapM read = .ok items) ↔ ∀ value ∈ values, ∃ item, read value = .ok item := by
  simp only [mapM_eq_ok, exists_forall₂]

/-! What has a meaning is in the grammar, and the other way round. -/

namespace Fields

variable {fields : Fields} {message : Json}

theorem exists_meansHours :
    (∃ hours, fields.MeansHours hours) ↔
      (fields.valueOf "timeInHours").IsOptionalNumber ∧
        (fields.valueOf "timeInHours" = .null →
          ∀ extra, fields.valueOf "conditionExtraValue" = .obj extra →
            (valueOf extra "timeInHours").IsOptionalNumber) := by
  have readable {value : Json} : (∃ hours, Check.readHours value = .ok hours) ↔ value.IsOptionalNumber := by
    cases value <;> simp [Check.readHours, Json.IsOptionalNumber]
  simp only [← Check.readHours_hoursValue, readable, Check.hoursValue, Json.IsOptionalNumber]
  cases fields.valueOf "timeInHours" with
  | null => cases fields.valueOf "conditionExtraValue" <;> simp
  | _ => simp

theorem exists_meansCheck : (∃ check, fields.MeansCheck check) ↔ fields.IsCheck := by
  constructor
  · rintro ⟨check, means⟩
    obtain ⟨hours, extra⟩ := exists_meansHours.mp ⟨_, means.hours⟩
    refine ⟨⟨_, means.condition⟩, fun value found => ?_, hours, extra⟩
    rcases means.outcome with given | ⟨missing, _⟩
    · exact ⟨_, Option.some.inj (found.symm.trans given)⟩
    · simp [missing] at found
  · intro check
    obtain ⟨condition, word⟩ := check.condition
    obtain ⟨hours, waits⟩ := exists_meansHours.mpr ⟨check.hours, check.extra⟩
    cases found : fields.get? "value" with
    | none => exact ⟨⟨condition, true, hours⟩, word, .inr ⟨found, rfl⟩, waits⟩
    | some value =>
      obtain ⟨truth, rfl⟩ := check.outcome value found
      exact ⟨⟨condition, truth, hours⟩, word, .inl found, waits⟩

theorem exists_meansStep : (∃ step, fields.MeansStep message step) ↔ fields.IsActionStep message := by
  constructor
  · rintro ⟨⟨action, provider, text⟩, means⟩
    refine ⟨⟨action, means.action⟩, ⟨provider, means.provider⟩, ?_⟩
    cases text with
    | none => exact .inl means.message
    | some text => exact .inr ⟨text, means.message⟩
  · rintro ⟨⟨action, acts⟩, ⟨provider, through⟩, rfl | ⟨text, rfl⟩⟩
    · exact ⟨⟨action, provider, none⟩, acts, through, rfl⟩
    · exact ⟨⟨action, provider, some text⟩, acts, through, rfl⟩

/-- Which steps a record means, by what its list of actions is. -/
theorem exists_meansAction :
    (∃ step, fields.MeansAction message step) ↔
      fields.valueOf "actions" = .arr [] ∨
        (∃ first rest, fields.valueOf "actions" = .arr (.obj first :: rest) ∧
          IsActionStep first (valueOf first "message")) ∨
        (∀ actions, fields.valueOf "actions" ≠ .arr actions) ∧ fields.IsActionStep message := by
  simp only [← exists_meansStep]
  constructor
  · rintro ⟨_, empty | ⟨first, rest, _, list, means⟩ | ⟨_, unlisted, means⟩⟩
    · exact .inl empty
    · exact .inr (.inl ⟨first, rest, list, _, means⟩)
    · exact .inr (.inr ⟨unlisted, _, means⟩)
  · rintro (empty | ⟨first, rest, list, step, means⟩ | ⟨unlisted, step, means⟩)
    · exact ⟨_, .default empty⟩
    · exact ⟨step, .listed first rest step list means⟩
    · exact ⟨step, .own step unlisted means⟩

end Fields

/-! Reading succeeds on the grammar -/

namespace Check

variable {value : Json}

theorem exists_ofJson : (∃ check, ofJson value = .ok check) ↔ value.IsObject Fields.IsCheck := by
  simp only [ofJson_eq_ok, Json.IsObject, ← Fields.exists_meansCheck, ← exists_and_left]
  exact exists_comm

theorem exists_listOfJson :
    (∃ checks, listOfJson value = .ok checks) ↔ value.IsOptionalList Fields.IsCheck := by
  cases value with
  | arr items => simp [listOfJson, exists_mapM_ok, exists_ofJson, Json.IsOptionalList]
  | _ => simp [listOfJson, Json.IsOptionalList]

end Check

namespace ActionStep

variable {fields : Fields}

theorem exists_ofFields :
    (∃ step, ofFields fields = .ok step) ↔ fields.IsActionStep (fields.valueOf "message") := by
  simp only [ofFields_eq_ok, Fields.exists_meansStep]

theorem exists_ofData : (∃ step, ofData fields = .ok step) ↔ fields.IsActionData := by
  simp only [ofData_eq_ok, Fields.exists_meansAction, Fields.isActionData_iff]

end ActionStep

namespace Source

variable {fields record : Fields}

theorem exists_nextStep : (∃ next, nextStep fields = .ok next) ↔ fields.HasNextStep := by
  unfold nextStep Fields.HasNextStep Json.IsOptionalText
  cases fields.valueOf "nextStepId" <;> simp

theorem nextStep_eq_none : nextStep fields = .ok none ↔ fields.LacksNextStep := by
  unfold nextStep Fields.LacksNextStep
  cases fields.valueOf "nextStepId" <;> simp

theorem exists_ofData :
    (∃ step, ActionStep.ofData (actionFields record) = .ok step) ↔ record.IsActionRecord := by
  simp only [ofData_actionFields, Fields.exists_meansAction, Fields.isActionRecord_iff]

theorem exists_checksUnder {key other : String} :
    (∃ checks, checksUnder key other fields = .ok checks) ↔ fields.HasChecks key other := by
  simp only [checksUnder, mapError_eq_ok, Check.exists_listOfJson]
  cases found : fields.get? key with
  | none =>
    rw [Option.getD_none]
    exact ⟨fun checks => ⟨by simp [found], fun _ => checks⟩, fun has => has.second found⟩
  | some value =>
    rw [Option.getD_some]
    exact ⟨fun checks => ⟨by simpa [found] using checks, by simp [found]⟩,
      fun has => has.first value found⟩

theorem exists_guard {key other : String} :
    (∃ checks, checksUnder key other fields = .ok checks ∧ ∃ next, nextStep fields = .ok next) ↔
      fields.IsGuard key other := by
  constructor
  · rintro ⟨checks, readChecks, next, readNext⟩
    exact ⟨exists_checksUnder.mp ⟨checks, readChecks⟩, exists_nextStep.mp ⟨next, readNext⟩⟩
  · rintro ⟨has, follows⟩
    obtain ⟨checks, readChecks⟩ := exists_checksUnder.mpr has
    obtain ⟨next, readNext⟩ := exists_nextStep.mpr follows
    exact ⟨checks, readChecks, next, readNext⟩

/-- The record is asked for the next step first, and the descriptor only if the record has none. -/
theorem exists_actionNext :
    (∃ next, actionNext fields = .ok next) ↔
      (actionRecord fields).HasNextStep ∧
        ((actionRecord fields).LacksNextStep → fields.HasNextStep) := by
  rw [← exists_nextStep, ← nextStep_eq_none, ← exists_nextStep]
  cases read : nextStep (actionRecord fields) with
  | error fault => simp [actionNext, read, bind, Except.bind]
  | ok next => cases next <;> simp [actionNext, read, bind, Except.bind, pure, Except.pure]

theorem exists_action :
    ((∃ step, actionStep fields = .ok step) ∧ ∃ next, actionNext fields = .ok next) ↔
      fields.IsAction := by
  rw [exists_actionNext]
  simp only [actionStep, mapError_eq_ok, exists_ofData]
  rcases actionRecord_cases fields with ⟨child, inside, same⟩ | ⟨childless, same⟩ <;> rw [same]
  · constructor
    · rintro ⟨record, next, outside⟩
      exact .nested child inside record next outside
    · rintro (⟨other, inside', record, next, outside⟩ | ⟨childless, _, _⟩)
      · obtain rfl := Json.obj.inj (inside'.symm.trans inside)
        exact ⟨record, next, outside⟩
      · exact absurd inside (childless child)
  · constructor
    · rintro ⟨record, next, _⟩
      exact .flat childless record next
    · rintro (⟨child, inside, _, _, _⟩ | ⟨_, record, next⟩)
      · exact absurd inside (childless child)
      · exact ⟨record, next, fun _ => next⟩

end Source

theorem Branch.exists_read {value : Json} :
    (∃ branch, Branch.read? value = some branch) ↔ value.IsObject Fields.IsBranch := by
  cases value with
  | obj fields =>
    simp only [read?, pure, Option.bind_eq_bind, Option.bind_eq_some_iff, toOption_eq_some,
      Option.some.injEq, Json.IsObject, Json.obj.injEq, exists_eq_left', Fields.IsBranch,
      ← Source.exists_guard, Source.branchChecks]
    grind
  | _ => simp [read?, Json.IsObject]

theorem Node.idOf?_eq_some {fields : Fields} {id : String} :
    Node.idOf? fields = some id ↔ id ≠ "" ∧ fields.valueOf "id" = .str id := by
  unfold idOf?
  cases fields.valueOf "id" with
  | str text => by_cases empty : text = "" <;> grind
  | _ => simp

theorem NodeKind.ofTagValue?_eq_some {value : Json} {kind : NodeKind} :
    ofTagValue? value = some kind ↔ value = .str kind.tag := by
  constructor
  · cases value with
    | str text =>
      intro found
      have same : kind.tag = text := by simpa using List.find?_some found
      rw [same]
    | _ => simp [ofTagValue?, Json.asString?]
  · rintro rfl
    exact ofTagValue?_tag kind

namespace Descriptor

variable {id : String} {fields : Fields} {kind : NodeKind} {descriptor : Descriptor} {value : Json}

theorem exists_condition :
    (∃ written, Source.branches fields = .ok written ∧
      ∃ branches, written.mapM Branch.read? = some branches) ↔ fields.IsCondition := by
  simp only [exists_mapM_some, Branch.exists_read, Source.branches, Fields.IsCondition,
    Json.IsOptionalList]
  cases fields.valueOf "child" <;> simp

theorem exists_readAs :
    (∃ descriptor, readAs? id fields kind = some descriptor) ↔ fields.IsOfKind kind := by
  cases kind <;> simp only [readAs?, pure, Option.bind_eq_bind, Option.bind_eq_some_iff,
    toOption_eq_some, Option.some.injEq, Fields.IsOfKind]
  · rw [← Source.exists_action]
    grind
  · rw [← exists_condition]
    grind
  · rw [Fields.IsConditionCheck, ← Source.exists_guard, ← Source.standaloneChecks]
    grind

theorem exists_read :
    (∃ descriptor, read? value = some descriptor) ↔ value.IsObject Fields.IsDescriptor := by
  cases value with
  | obj fields =>
    simp only [read?, Option.bind_eq_bind, Option.bind_eq_some_iff, Node.idOf?_eq_some,
      NodeKind.ofTagValue?_eq_some, Json.IsObject, Json.obj.injEq, exists_eq_left']
    constructor
    · rintro ⟨descriptor, id, named, kind, tag, read⟩
      exact ⟨⟨id, named⟩, kind, tag, exists_readAs.mp ⟨descriptor, read⟩⟩
    · rintro ⟨⟨id, named⟩, kind, tag, holds⟩
      obtain ⟨descriptor, read⟩ := exists_readAs.mpr holds
      exact ⟨descriptor, id, named, kind, tag, read⟩
  | _ => simp [read?, Json.IsObject]

/-- A descriptor that is read keeps its tag, and takes up the ids that it takes up as written. -/
theorem tag_of_read (read : read? (.obj fields) = some descriptor) :
    fields.HasTag descriptor.kind := by
  simp only [read?, Option.bind_eq_bind, Option.bind_eq_some_iff,
    NodeKind.ofTagValue?_eq_some] at read
  obtain ⟨_, _, kind, tag, read⟩ := read
  rwa [kind_of_readAs read]

theorem branchForms_of_read {written : List Json} (read : Source.branches fields = .ok written)
    (tag : fields.HasTag .condition) : fields.branchForms = written := by
  unfold Source.branches at read
  unfold Fields.branchForms
  rw [tag]
  cases found : fields.valueOf "child" <;> simp_all

theorem length_branchForms (read : readAs? id fields kind = some descriptor)
    (tag : fields.HasTag kind) : fields.branchForms.length = descriptor.branches.length := by
  cases kind with
  | condition =>
    simp only [readAs?, pure, Option.bind_eq_bind, Option.bind_eq_some_iff, toOption_eq_some,
      Option.some.injEq] at read
    obtain ⟨written, readWritten, branches, readBranches, rfl⟩ := read
    rw [branchForms_of_read readWritten tag, Descriptor.branches]
    exact (mapM_eq_some.mp readBranches).length_eq
  | action | conditionCheck =>
    simp only [readAs?, pure, Option.bind_eq_bind, Option.bind_eq_some_iff, Option.some.injEq] at read
    obtain ⟨_, _, _, _, rfl⟩ := read
    unfold Fields.branchForms
    rw [tag]
    rfl

theorem nodeIds_of_read (read : read? value = some descriptor) :
    value.nodeIds = descriptor.nodeIds := by
  cases value with
  | obj fields =>
    simp only [read?, Option.bind_eq_bind, Option.bind_eq_some_iff, Node.idOf?_eq_some,
      NodeKind.ofTagValue?_eq_some] at read
    obtain ⟨id, ⟨_, named⟩, kind, tag, read⟩ := read
    rw [Json.nodeIds, Fields.nodeIds, named, nodeIds, branchIds_eq, id_of_readAs read,
      ← length_branchForms read tag]
  | _ => contradiction

end Descriptor

/-- What every item says as it does when it is written, the whole list says. -/
theorem flatMap_of_mapM {α β γ : Type} {read : α → Option β} {values : List α} {items : List β}
    {written : α → List γ} {meant : β → List γ}
    (same : ∀ value item, read value = some item → written value = meant item)
    (all : values.mapM read = some items) : values.flatMap written = items.flatMap meant := by
  rw [mapM_eq_some] at all
  induction all with
  | nil => rfl
  | cons found _ ih => rw [List.flatMap_cons, List.flatMap_cons, same _ _ found, ih]

theorem nodeIds_of_mapM {values : List Json} {descriptors : List Descriptor}
    (read : values.mapM Descriptor.read? = some descriptors) :
    values.flatMap Json.nodeIds = unfoldedIds descriptors :=
  flatMap_of_mapM (fun _ _ => Descriptor.nodeIds_of_read) read

/-! The whole form -/

/-- Against an integer, equality by value is the numeric comparison. -/
theorem Flow.isSupported_eq (version : Json) :
    isSupported version = version.same (.int Plan.version) := by
  have agrees (number : Number) (value : Int) :
      number.agrees (.int value) = number.sameValue (.int value) := by
    simp [Number.agrees, Number.isNaN]
  cases version <;>
    simp [isSupported, Json.same, Json.asNumber?, Json.asString?, Json.int, agrees]

theorem Flow.unwrap_obj {fields : Fields} {values : List Json} {saved : Fields} :
    unwrap (.obj fields) = .ok (values, saved) ↔
      fields.get? "nodes" = some (.arr values) ∧
        isSupported ((fields.get? "version").getD (.int Plan.version)) = true ∧
        (fields.valueOf "positions" = .obj saved ∨
          fields.valueOf "positions" = .null ∧ saved = []) := by
  cases listed : fields.get? "nodes" with
  | none => simp [unwrap, listed]
  | some nodes =>
    cases supported : isSupported ((fields.get? "version").getD (.int Plan.version)) with
    | false => simp [unwrap, listed, supported, bind, Except.bind]
    | true =>
      cases nodes with
      | arr descriptors =>
        cases places : fields.valueOf "positions" <;>
          simp [unwrap, listed, supported, places, pure, Except.pure, eq_comm]
      | _ => simp [unwrap, listed, supported]

theorem Flow.unwrap_eq_ok {form : Json} {values : List Json} {saved : Fields} :
    unwrap form = .ok (values, saved) ↔ form.Lists values saved := by
  constructor
  · intro unwrapped
    cases form with
    | arr descriptors =>
      obtain ⟨rfl, rfl⟩ := Prod.mk.inj (Except.ok.inj unwrapped)
      exact .bare _
    | obj fields =>
      obtain ⟨nodes, version, positions⟩ := unwrap_obj.mp unwrapped
      refine .wrapped fields values saved nodes ?_ positions
      intro given found
      rwa [found, Option.getD_some, isSupported_eq] at version
    | _ => contradiction
  · rintro (_ | ⟨fields, _, _, nodes, version, positions⟩)
    · rfl
    · refine unwrap_obj.mpr ⟨nodes, ?_, positions⟩
      cases found : fields.get? "version" with
      | none => decide
      | some given => exact (isSupported_eq given).trans (version given found)

/-- Where saved coordinates fit, every branch has a place beside its condition. -/
theorem Descriptor.placed_of_fits {saved : Fields}
    (fits : ∀ id position, savedPosition? saved id = some position → position.FitsDoubles)
    (descriptor : Descriptor) (slot : Nat) : descriptor.Placed saved slot := by
  intro entry _
  right
  rw [Layout.child?_isSome (primaryPosition_numeric saved descriptor.id slot), primaryPosition]
  cases found : savedPosition? saved descriptor.id with
  | none => exact Position.doubles_fit _ _
  | some position => exact fits _ position found

theorem Json.CoordinatesFit.saved {form : Json} {values : List Json} {saved : Fields}
    (fits : form.CoordinatesFit) (lists : form.Lists values saved) {id : String} {position : Position}
    (found : savedPosition? saved id = some position) : position.FitsDoubles := by
  obtain ⟨place, inside, _, rfl⟩ := savedPosition?_eq_some.mp found
  cases lists with
  | bare => simp at inside
  | wrapped fields _ _ _ _ positions =>
    rcases positions with object | ⟨_, rfl⟩
    · exact fits fields saved rfl object id place (by rw [valueOf, inside]; rfl)
    · simp at inside

/-- Import accepts exactly the plans, as long as no saved coordinate is beyond the doubles. -/
theorem Flow.exists_ofJson_iff {form : Json} (fits : form.CoordinatesFit) :
    (∃ flow, ofJson form = .ok flow) ↔ form.IsPlan := by
  constructor
  · rintro ⟨flow, imported⟩
    obtain ⟨values, saved, descriptors, unwrapped, read, unfoldable, _⟩ := ofJson_eq_ok.mp imported
    refine ⟨values, saved, unwrap_eq_ok.mp unwrapped, ?_, ?_, ?_⟩
    · obtain ⟨first, rest, rfl, kind⟩ := unfoldable.eq_cons
      obtain ⟨value, others, found, _, rfl⟩ := List.forall₂_cons_right_iff.mp (mapM_eq_some.mp read)
      obtain ⟨fields, rfl, _⟩ := Descriptor.exists_read.mp ⟨first, found⟩
      refine ⟨fields, others, rfl, fun tag => kind ?_⟩
      exact Fields.HasTag.unique (Descriptor.tag_of_read found) tag
    · intro value listed
      exact Descriptor.exists_read.mp (exists_mapM_some.mp ⟨descriptors, read⟩ value listed)
    · rw [nodeIds_of_mapM read]
      exact unfoldable.distinct
  · rintro ⟨values, saved, lists, ⟨first, rest, rfl, start⟩, each, distinct⟩
    obtain ⟨descriptors, read⟩ := exists_mapM_some.mpr fun value listed =>
      Descriptor.exists_read.mpr (each value listed)
    rw [nodeIds_of_mapM read] at distinct
    suffices unfoldable : Unfoldable saved descriptors from
      ⟨_, ofJson_eq_ok.mpr ⟨_, saved, descriptors, unwrap_eq_ok.mpr lists, read, unfoldable, rfl⟩⟩
    refine ⟨?_, distinct, ?_⟩
    · obtain ⟨descriptor, others, found, _, rfl⟩ :=
        List.forall₂_cons_left_iff.mp (mapM_eq_some.mp read)
      refine ⟨descriptor, rfl, fun kind => start ?_⟩
      exact kind ▸ Descriptor.tag_of_read found
    · intro entry _
      exact Descriptor.placed_of_fits (fun _ _ found => fits.saved lists found) entry.1 entry.2

/-- A form in older shapes: a truth value for the version, a waiting time in an extra value under the
other key for checks, a list of actions, and an empty next step outside of the record. -/
def legacyForm : Json := .obj
  [("version", .bool true), ("positions", .obj [("ask", .obj [("x", .int 3), ("y", .double 0.5)])]),
    ("nodes", .arr
      [.obj [("id", .str "ask"), ("type", .str "CONDITION"),
        ("child", .arr [.obj [("conditions", .arr [.obj [("condition", .str "HAS_TIME_PASSED"),
          ("conditionExtraValue", .obj [("timeInHours", .int 2)])]]), ("nextStepId", .str "tell")]])],
      .obj [("id", .str "tell"), ("type", .str "ACTION"), ("nextStepId", .str ""),
        ("child", .obj [("actions", .arr [.obj [("action", .str "SEND_MESSAGE"),
          ("provider", .str "NOVA"), ("message", .str "hi")], .null])])]])]

theorem Flow.exists_ofJson_iff_legacyForm :
    legacyForm.CoordinatesFit ∧ (∃ flow, ofJson legacyForm = .ok flow) ∧ legacyForm.IsPlan := by
  have fits : legacyForm.CoordinatesFit := by
    intro fields saved form positions id place found
    obtain rfl := Json.obj.inj form
    obtain rfl : [("ask", .obj [("x", .int 3), ("y", .double 0.5)])] = saved := Json.obj.inj positions
    by_cases same : "ask" = id
    · obtain rfl : [("x", .int 3), ("y", .double 0.5)] = place := by simpa [valueOf, same] using found
      have small : (Number.floatOfInt? 3).isSome := by decide +kernel
      simpa [valueOf, Position.FitsDoubles, Json.int, Json.double] using small
    · simp [valueOf, same] at found
  have read : (ofJson legacyForm).toOption.isSome := by decide +kernel
  obtain ⟨flow, found⟩ := Option.isSome_iff_exists.mp read
  have imported : ∃ flow, ofJson legacyForm = .ok flow := ⟨flow, toOption_eq_some.mp found⟩
  exact ⟨fits, imported, (exists_ofJson_iff fits).mp imported⟩

end OutreachFlow
