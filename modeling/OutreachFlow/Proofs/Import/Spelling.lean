import OutreachFlow.Proofs.Graph.EditorForm
import OutreachFlow.Proofs.Import.Grammar

/-! Spellings of a plan. Descriptors are written in one way and have been written in others: action
fields outside of a child or in a list of actions, a message beside them or in a data object, a next
step in either of two places, checks under either of two keys, waiting times beside the condition, and
forms without a version or without any wrapping. The spellings of the parts can be mixed at will, and
every mixture is imported as the plan that it spells. -/
namespace OutreachFlow

open Fields (valueOf)

/-- Two objects with the same fields in any order. -/
def Json.Reorders (value other : Json) : Prop :=
  ∃ fields shape : Fields, value = .obj fields ∧ other = .obj shape ∧
    ∀ key, fields.get? key = shape.get? key

theorem Json.reorders_obj {value : Json} {shape : Fields} :
    value.Reorders (.obj shape) ↔
      ∃ fields : Fields, value = .obj fields ∧ ∀ key, fields.get? key = shape.get? key := by
  constructor
  · rintro ⟨fields, _, rfl, same, agrees⟩
    obtain rfl := Json.obj.inj same
    exact ⟨fields, rfl, agrees⟩
  · rintro ⟨fields, rfl, agrees⟩
    exact ⟨fields, shape, rfl, rfl, agrees⟩

namespace Spelling

/-- A step that follows is named; where nothing follows, the field is missing, null or empty. -/
inductive NextStep : Option String → Fields → Prop
  | named (id : String) : NextStep (some id) [("nextStepId", .str id)]
  | missing : NextStep none []
  | null : NextStep none [("nextStepId", .null)]
  | empty : NextStep none [("nextStepId", .str "")]

/-- A check has its waiting time in an extra value or beside the condition. -/
inductive OfCheck (check : Check) (value : Json) : Prop
  | nested (content : value.Reorders check.toNested)
  | flat (content : value.Reorders check.toFlat)

/-- Checks with the step behind them. The checks stand under either key. -/
inductive Guard (checks : List Check) (next : Option String) : Fields → Prop
  | intro (key : String) (written : List Json) (follows : Fields)
      (either : key = "checks" ∨ key = "conditions") (each : List.Forall₂ OfCheck checks written)
      (step : NextStep next follows) : Guard checks next ((key, .arr written) :: follows)

inductive OfBranch (branch : Branch) (value : Json) : Prop
  | intro (shape : Fields) (guard : Guard branch.checks branch.next shape)
      (content : value.Reorders (.obj shape))

/-- The fields of an action: with the message beside them, with the message in a data object, or as
the first of a list in which anything may follow. -/
inductive ActionRecord (step : ActionStep) : Fields → Prop
  | beside : ActionRecord step step.toFields
  | inData : ActionRecord step (step.words ++
      Json.optional "data" (step.message.map fun text => .obj [("message", .str text)]))
  | listed (first : Json) (rest : List Json) (content : first.Reorders (.obj step.toFields)) :
      ActionRecord step [("actions", .arr (first :: rest))]

def head (id : String) (kind : NodeKind) : Fields := [("id", .str id), ("type", .str kind.tag)]

/-- An action has its record in a child, with the next step in the child or outside of it, or has no
child. Conditions have their branches for a child, and nothing follows them. -/
inductive OfDescriptor : Descriptor → Json → Prop
  | nested {id step next} {child value : Json} {record inside outside : Fields}
      (spelled : ActionRecord step record)
      (steps : NextStep next inside ∧ NextStep none outside ∨
        NextStep none inside ∧ NextStep next outside)
      (inner : child.Reorders (.obj (record ++ inside)))
      (content : value.Reorders (.obj (head id .action ++ ("child", child) :: outside))) :
      OfDescriptor (.action id step next) value
  | flat {id step next} {value : Json} {record follows : Fields} (spelled : ActionRecord step record)
      (steps : NextStep next follows)
      (content : value.Reorders (.obj (head id .action ++ (record ++ follows)))) :
      OfDescriptor (.action id step next) value
  | condition {id branches} {value : Json} {written : List Json} {follows : Fields}
      (each : List.Forall₂ OfBranch branches written) (steps : NextStep none follows)
      (content : value.Reorders (.obj (head id .condition ++ ("child", .arr written) :: follows))) :
      OfDescriptor (.condition id branches) value
  | check {id checks next} {value : Json} {shape : Fields} (guard : Guard checks next shape)
      (content : value.Reorders (.obj (head id .conditionCheck ++ shape))) :
      OfDescriptor (.conditionCheck id checks next) value

/-- A form lists descriptors, with or without a version. It may be a bare list if no positions are
saved. -/
inductive OfForm (values : List Json) : Option Json → Json → Prop
  | wrapped {positions : Option Json} {version : Fields} {form : Json}
      (either : version = [("version", .int Plan.version)] ∨ version = [])
      (content : form.Reorders
        (.obj (version ++ ("nodes", .arr values) :: Json.optional "positions" positions))) :
      OfForm values positions form
  | bare : OfForm values none (.arr values)

end Spelling

/-! What is written today -/

/-- The form in which descriptors are written, with whatever is saved of their positions. -/
def Plan.form (descriptors : List Descriptor) (positions : Option Json) : Json :=
  .obj ([("version", .int Plan.version)] ++
    ("nodes", .arr (descriptors.map Descriptor.toJson)) :: Json.optional "positions" positions)

namespace Spelling

theorem reorders_self (fields : Fields) : (Json.obj fields).Reorders (.obj fields) :=
  Json.reorders_obj.mpr ⟨fields, rfl, fun _ => rfl⟩

theorem nextStep_nextField (next : Option String) : NextStep next (nextField next) := by
  cases next with
  | none => exact .missing
  | some id => exact .named id

theorem NextStep.get?_of_ne {next : Option String} {shape : Fields} (step : NextStep next shape)
    {key : String} (other : key ≠ "nextStepId") : shape.get? key = none := by
  cases step <;> simp [other.symm]

theorem forall₂_toNested (checks : List Check) :
    List.Forall₂ OfCheck checks (checks.map Check.toNested) := by
  rw [List.forall₂_map_right_iff, List.forall₂_same]
  exact fun check _ => .nested (reorders_self _)

/-- A branch is written with its next step before its checks. -/
theorem ofBranch_toJson (branch : Branch) : OfBranch branch branch.toJson := by
  refine .intro _ (.intro "checks" _ _ (.inl rfl) (forall₂_toNested _) (nextStep_nextField _)) ?_
  refine Json.reorders_obj.mpr ⟨_, rfl, fun key => ?_⟩
  by_cases same : key = "checks"
  · have free : (nextField branch.next).get? key = none :=
      (nextStep_nextField branch.next).get?_of_ne (by rw [same]; decide)
    rw [Fields.get?_append, free, Option.none_or, same]
    rfl
  · simp [Ne.symm same]

/-- What is written today is one of the spellings. -/
theorem ofDescriptor_toJson (descriptor : Descriptor) : OfDescriptor descriptor descriptor.toJson := by
  cases descriptor with
  | action id step next =>
    exact .nested .inData (.inl ⟨nextStep_nextField next, .missing⟩) (reorders_self _) (reorders_self _)
  | condition id branches =>
    have each : List.Forall₂ OfBranch branches (branches.map Branch.toJson) := by
      rw [List.forall₂_map_right_iff, List.forall₂_same]
      exact fun branch _ => ofBranch_toJson branch
    exact .condition each .missing (reorders_self _)
  | conditionCheck id checks next =>
    exact .check (.intro "conditions" _ _ (.inr rfl) (forall₂_toNested checks) (nextStep_nextField next))
      (reorders_self _)

theorem ofForm_form (descriptors : List Descriptor) (positions : Option Json) :
    OfForm (descriptors.map Descriptor.toJson) positions (Plan.form descriptors positions) :=
  .wrapped (.inl rfl) (reorders_self _)

/-! Reading a spelling -/

/-- An empty name of a next step says that nothing follows. -/
def statedNext (next : Option String) : Option String := next.filter (· ≠ "")

theorem NextStep.read {next : Option String} {shape fields : Fields} (step : NextStep next shape)
    (agrees : fields.get? "nextStepId" = shape.get? "nextStepId") :
    Source.nextStep fields = .ok (statedNext next) := by
  rw [Source.nextStep, valueOf, agrees]
  cases step with
  | named id => by_cases blank : id = "" <;> simp [statedNext, Option.filter, blank]
  | missing | null | empty => rfl

theorem OfCheck.read {check : Check} {value : Json} (spelled : OfCheck check value) :
    Check.ofJson value = .ok check := by
  have same {fields shape : Fields} (agrees : ∀ key, fields.get? key = shape.get? key) :
      Check.ofJson (.obj fields) = Check.ofJson (.obj shape) := by
    simp only [Check.ofJson, Check.ofFields, Check.readOutcome, Check.hoursValue, valueOf, agrees]
  cases spelled with
  | nested content =>
    obtain ⟨fields, rfl, agrees⟩ := Json.reorders_obj.mp content
    exact (same agrees).trans (Check.ofJson_toNested check)
  | flat content =>
    obtain ⟨fields, rfl, agrees⟩ := Json.reorders_obj.mp content
    exact (same agrees).trans (Check.ofJson_toFlat check)

theorem listOfJson_of_forall₂ {checks : List Check} {written : List Json}
    (each : List.Forall₂ OfCheck checks written) : Check.listOfJson (.arr written) = .ok checks := by
  rw [Check.listOfJson, mapM_eq_ok]
  exact each.flip.imp fun _ _ spelled => spelled.read

namespace Guard

variable {checks : List Check} {next : Option String} {shape fields : Fields}

/-- Whichever key is looked for first, the checks are found: the other key is not there. -/
theorem read_checks (guard : Guard checks next shape) {key other : String}
    (keys : key = "checks" ∧ other = "conditions" ∨ key = "conditions" ∧ other = "checks")
    (agrees : ∀ name ∈ [key, other], fields.get? name = shape.get? name) :
    Source.checksUnder key other fields = .ok checks := by
  obtain ⟨name, written, follows, either, each, step⟩ := guard
  have rest : ∀ key ∈ ["checks", "conditions"], follows.get? key = none := by
    intro key member
    refine step.get?_of_ne ?_
    rintro rfl
    simp at member
  have found : (fields.get? key).getD (fields.valueOf other) = .arr written := by
    rcases keys with ⟨rfl, rfl⟩ | ⟨rfl, rfl⟩ <;> rcases either with rfl | rfl <;>
      simp_all [valueOf]
  rw [Source.checksUnder, found, listOfJson_of_forall₂ each]
  rfl

theorem read_next (guard : Guard checks next shape)
    (agrees : fields.get? "nextStepId" = shape.get? "nextStepId") :
    Source.nextStep fields = .ok (statedNext next) := by
  obtain ⟨name, written, follows, either, each, step⟩ := guard
  refine step.read (agrees.trans ?_)
  rcases either with rfl | rfl <;> simp

end Guard

end Spelling

open Spelling

def Branch.stated (branch : Branch) : Branch := { branch with next := statedNext branch.next }

/-- The descriptor without empty names of next steps. -/
def Descriptor.stated : Descriptor → Descriptor
  | action id step next => action id step (statedNext next)
  | condition id branches => condition id (branches.map Branch.stated)
  | conditionCheck id checks next => conditionCheck id checks (statedNext next)

namespace Spelling

theorem OfBranch.read {branch : Branch} {value : Json} (spelled : OfBranch branch value) :
    Branch.read? value = some branch.stated := by
  obtain ⟨shape, guard, content⟩ := spelled
  obtain ⟨fields, rfl, agrees⟩ := Json.reorders_obj.mp content
  have checks : Source.branchChecks fields = .ok branch.checks :=
    guard.read_checks (.inl ⟨rfl, rfl⟩) fun key _ => agrees key
  have next := guard.read_next (agrees "nextStepId")
  simp [Branch.read?, checks, next, Except.toOption, Branch.stated]

/-- The keys under which the fields of an action are looked for. -/
def actionKeys : List String := ["action", "provider", "message", "data", "actions"]

/-- Only what stands under those keys matters. -/
theorem ofData_congr {fields record : Fields}
    (agrees : ∀ key ∈ actionKeys, fields.get? key = record.get? key) :
    ActionStep.ofData (Source.actionFields fields) =
      ActionStep.ofData (Source.actionFields record) := by
  have message : fields.messageOf = record.messageOf := by
    simp only [Fields.messageOf, valueOf, agrees "message" (by decide), agrees "data" (by decide)]
  have same : ∀ key ∈ actionKeys,
      (Source.actionFields fields).valueOf key = (Source.actionFields record).valueOf key := by
    intro key member
    rw [Source.valueOf_actionFields, Source.valueOf_actionFields, message, valueOf, valueOf,
      agrees key member]
  simp only [ActionStep.ofData, ActionStep.ofFields, same "actions" (by decide),
    same "message" (by decide), same "action" (by decide), same "provider" (by decide)]

theorem ActionRecord.read {step : ActionStep} {record : Fields} (spelled : ActionRecord step record) :
    ActionStep.ofData (Source.actionFields record) = .ok step := by
  cases spelled with
  | beside =>
    have own : Source.actionFields step.toFields = step.toFields := by
      obtain ⟨action, provider, message⟩ := step
      cases message <;> simp [Source.actionFields, ActionStep.toFields, ActionStep.words, valueOf]
    rw [own, ActionStep.ofData_toFields]
  | inData => simpa [Descriptor.actionForm, nextField, Json.optional] using
      ActionStep.ofData_actionForm step none
  | listed first rest content =>
    obtain ⟨fields, rfl, agrees⟩ := Json.reorders_obj.mp content
    have read : ActionStep.ofFields fields = .ok step := by
      have whole := ActionStep.ofData_toFields step
      have unlisted : step.toFields.valueOf "actions" = .null := by
        simp [ActionStep.toFields, ActionStep.words, valueOf]
      rw [ActionStep.ofData, unlisted] at whole
      simpa only [ActionStep.ofFields, valueOf, agrees] using whole
    simp [Source.actionFields, ActionStep.ofData, ActionStep.ofJson, valueOf, read]

theorem ActionRecord.get?_other {step : ActionStep} {record : Fields}
    (spelled : ActionRecord step record) {key : String} (other : key ∉ actionKeys) :
    record.get? key = none := by
  simp only [actionKeys, List.mem_cons, List.not_mem_nil, or_false, not_or] at other
  obtain ⟨action, provider, message, data, actions⟩ := other
  cases spelled <;>
    simp [ActionStep.toFields, ActionStep.words, Ne.symm action, Ne.symm provider, Ne.symm message,
      Ne.symm data, Ne.symm actions]

/-- Fields of an action with the step that follows, wherever they stand: on a descriptor or in its
child. -/
theorem ActionRecord.read_own {step : ActionStep} {next : Option String} {record follows own : Fields}
    (spelled : ActionRecord step record) (steps : NextStep next follows)
    (agrees : ∀ key, key ≠ "id" → key ≠ "type" → own.get? key = (record ++ follows).get? key) :
    ActionStep.ofData (Source.actionFields own) = .ok step ∧
      Source.nextStep own = .ok (statedNext next) ∧ own.valueOf "child" = .null := by
  have same : ∀ key ∈ actionKeys, own.get? key = record.get? key := by
    intro key member
    have apart : key ≠ "id" ∧ key ≠ "type" ∧ key ≠ "nextStepId" := by
      refine ⟨?_, ?_, ?_⟩ <;> rintro rfl <;> simp [actionKeys] at member
    rw [agrees key apart.1 apart.2.1, Fields.get?_append, steps.get?_of_ne apart.2.2, Option.or_none]
  have behind : own.get? "nextStepId" = follows.get? "nextStepId" := by
    rw [agrees _ (by decide) (by decide), Fields.get?_append, spelled.get?_other (by decide),
      Option.none_or]
  have childless : own.valueOf "child" = .null := by
    rw [valueOf, agrees _ (by decide) (by decide), Fields.get?_append, spelled.get?_other (by decide),
      steps.get?_of_ne (by decide)]
    rfl
  exact ⟨(ofData_congr same).trans spelled.read, steps.read behind, childless⟩

/-- In a child the fields come first; outside of it there may be the step that follows. -/
theorem ActionRecord.read_nested {step : ActionStep} {next : Option String}
    {record inside outside own fields : Fields} (spelled : ActionRecord step record)
    (steps : NextStep next inside ∧ NextStep none outside ∨ NextStep none inside ∧ NextStep next outside)
    (within : ∀ key, own.get? key = (record ++ inside).get? key)
    (child : fields.valueOf "child" = .obj own)
    (behind : fields.get? "nextStepId" = outside.get? "nextStepId") :
    Source.actionStep fields = .ok step ∧ Source.actionNext fields = .ok (statedNext next) := by
  have taken : Source.actionRecord fields = own := by rw [Source.actionRecord, child]
  rw [Source.actionStep, Source.actionNext, taken]
  rcases steps with ⟨first, second⟩ | ⟨first, second⟩
  · obtain ⟨content, read, _⟩ := spelled.read_own first fun key _ _ => within key
    have rest : Source.nextStep fields = .ok none := second.read behind
    refine ⟨by rw [content, Except.mapError], ?_⟩
    cases stated : statedNext next <;>
      simp [read, rest, stated, bind, Except.bind, pure, Except.pure]
  · obtain ⟨content, read, _⟩ := spelled.read_own first fun key _ _ => within key
    have rest : Source.nextStep fields = .ok (statedNext next) := second.read behind
    refine ⟨by rw [content, Except.mapError], ?_⟩
    simp [read, rest, statedNext, bind, Except.bind]

theorem ActionRecord.read_flat {step : ActionStep} {next : Option String}
    {record follows fields : Fields} (spelled : ActionRecord step record) (steps : NextStep next follows)
    (agrees : ∀ key, key ≠ "id" → key ≠ "type" → fields.get? key = (record ++ follows).get? key) :
    Source.actionStep fields = .ok step ∧ Source.actionNext fields = .ok (statedNext next) := by
  obtain ⟨content, read, childless⟩ := spelled.read_own steps agrees
  have taken : Source.actionRecord fields = fields := by rw [Source.actionRecord, childless]
  rw [Source.actionStep, Source.actionNext, taken]
  refine ⟨by rw [content, Except.mapError], ?_⟩
  cases stated : statedNext next <;> simp [read, stated, bind, Except.bind, pure, Except.pure]

theorem listed_forall₂ {branches : List Branch} {written : List Json}
    (each : List.Forall₂ OfBranch branches written) :
    written.mapM Branch.read? = some (branches.map Branch.stated) := by
  rw [mapM_eq_some]
  induction each with
  | nil => exact .nil
  | cons first _ ih => exact .cons first.read ih

theorem get?_behind_head {id : String} {kind : NodeKind} {body : Fields} {key : String}
    (named : key ≠ "id") (typed : key ≠ "type") : (head id kind ++ body).get? key = body.get? key := by
  simp [head, named.symm, typed.symm]

theorem read?_of_head {descriptor : Descriptor} {fields body : Fields}
    (agrees : ∀ key, fields.get? key = (head descriptor.id descriptor.kind ++ body).get? key)
    (read : Descriptor.readAs? descriptor.id fields descriptor.kind = some descriptor.stated) :
    Descriptor.read? (.obj fields) = if descriptor.id = "" then none else some descriptor.stated := by
  have named : fields.get? "id" = some (.str descriptor.id) := by simp [agrees, head]
  have kind : NodeKind.ofTagValue? ((fields.get? "type").getD .null) = some descriptor.kind := by
    have typed : fields.get? "type" = some (.str descriptor.kind.tag) := by simp [agrees, head]
    rw [typed]
    exact NodeKind.ofTagValue?_tag _
  by_cases blank : descriptor.id = "" <;>
    simp [Descriptor.read?, Node.idOf?, valueOf, named, kind, blank, read]

/-- However a descriptor is spelled, it is read as what it states; without an id it is not read. -/
theorem OfDescriptor.read {descriptor : Descriptor} {value : Json}
    (spelled : OfDescriptor descriptor value) :
    Descriptor.read? value = if descriptor.id = "" then none else some descriptor.stated := by
  cases spelled with
  | @nested id step next child _ record inside outside spelled steps inner content =>
    obtain ⟨own, rfl, within⟩ := Json.reorders_obj.mp inner
    obtain ⟨fields, rfl, agrees⟩ := Json.reorders_obj.mp content
    have child : fields.valueOf "child" = .obj own := by simp [valueOf, agrees, head]
    have behind : fields.get? "nextStepId" = outside.get? "nextStepId" := by simp [agrees, head]
    obtain ⟨read, follows⟩ := spelled.read_nested steps within child behind
    refine read?_of_head agrees ?_
    simp [Descriptor.readAs?, Descriptor.kind, Descriptor.id, Descriptor.stated, read, follows,
      Except.toOption]
  | @flat id step next _ record follows spelled steps content =>
    obtain ⟨fields, rfl, agrees⟩ := Json.reorders_obj.mp content
    obtain ⟨read, follows⟩ := spelled.read_flat steps fun key named typed =>
      (agrees key).trans (get?_behind_head named typed)
    refine read?_of_head agrees ?_
    simp [Descriptor.readAs?, Descriptor.kind, Descriptor.id, Descriptor.stated, read, follows,
      Except.toOption]
  | @condition id branches _ written follows each steps content =>
    obtain ⟨fields, rfl, agrees⟩ := Json.reorders_obj.mp content
    have listed : Source.branches fields = .ok written := by
      simp [Source.branches, valueOf, agrees, head]
    refine read?_of_head agrees ?_
    simp [Descriptor.readAs?, Descriptor.kind, Descriptor.id, Descriptor.stated, listed,
      listed_forall₂ each, Except.toOption]
  | @check id checks next _ shape guard content =>
    obtain ⟨fields, rfl, agrees⟩ := Json.reorders_obj.mp content
    have found {key : String} (named : key ≠ "id") (typed : key ≠ "type") :
        fields.get? key = shape.get? key := (agrees key).trans (get?_behind_head named typed)
    have read : Source.standaloneChecks fields = .ok checks :=
      guard.read_checks (.inr ⟨rfl, rfl⟩) (by simp [found])
    have follows := guard.read_next (found (by decide) (by decide))
    refine read?_of_head agrees ?_
    simp [Descriptor.readAs?, Descriptor.kind, Descriptor.id, Descriptor.stated, read, follows,
      Except.toOption]

/-- All spellings of a list of descriptors are read alike. -/
theorem mapM_read? {descriptors : List Descriptor} {values : List Json}
    (each : List.Forall₂ OfDescriptor descriptors values) :
    values.mapM Descriptor.read? =
      descriptors.mapM fun descriptor => if descriptor.id = "" then none else some descriptor.stated := by
  induction each with
  | nil => rfl
  | cons first _ ih => rw [List.mapM_cons, List.mapM_cons, first.read, ih]

theorem OfForm.unwrap {values : List Json} {positions : Option Json} {form : Json} {listed : List Json}
    {saved : Fields} (spelled : OfForm values positions form) :
    Flow.unwrap form = .ok (listed, saved) ↔
      listed = values ∧ (positions.getD .null = .obj saved ∨ positions.getD .null = .null ∧ saved = []) := by
  cases spelled with
  | bare => simp [Flow.unwrap, eq_comm]
  | wrapped either content =>
    obtain ⟨fields, rfl, agrees⟩ := Json.reorders_obj.mp content
    have supported : Flow.isSupported (.int Plan.version) = true := by decide
    rw [Flow.unwrap_obj]
    rcases either with rfl | rfl <;> simp [valueOf, agrees, supported, eq_comm]

end Spelling

/-- However a list of descriptors is spelled, part by part and as a whole, its import succeeds exactly
if that of the form written today does, and gives the same flow. -/
theorem Flow.ofJson_respelled {descriptors : List Descriptor} {values : List Json}
    {positions : Option Json} {form : Json} (each : List.Forall₂ OfDescriptor descriptors values)
    (spelled : OfForm values positions form) (flow : Flow) :
    ofJson form = .ok flow ↔ ofJson (Plan.form descriptors positions) = .ok flow := by
  have today : List.Forall₂ OfDescriptor descriptors (descriptors.map Descriptor.toJson) := by
    rw [List.forall₂_map_right_iff, List.forall₂_same]
    exact fun descriptor _ => ofDescriptor_toJson descriptor
  have read : values.mapM Descriptor.read? = (descriptors.map Descriptor.toJson).mapM Descriptor.read? :=
    (mapM_read? each).trans (mapM_read? today).symm
  simp only [ofJson_eq_ok, spelled.unwrap, (ofForm_form descriptors positions).unwrap]
  constructor
  · rintro ⟨_, saved, found, ⟨rfl, places⟩, all, unfolded⟩
    exact ⟨_, saved, found, ⟨rfl, places⟩, read ▸ all, unfolded⟩
  · rintro ⟨_, saved, found, ⟨rfl, places⟩, all, unfolded⟩
    exact ⟨_, saved, found, ⟨rfl, places⟩, read ▸ all, unfolded⟩

/-- A flow of four descriptors. -/
def respelledDescriptors : List Descriptor :=
  [.action "tell" ⟨.sendMessage, .nova, some "hi"⟩ (some "ask"),
    .condition "ask" [⟨[⟨.hasTimePassed, true, some (.int 2)⟩], some "add"⟩],
    .action "add" ActionStep.default none, .conditionCheck "late" [⟨.isLinkedInContact, false, none⟩] none]

/-- The same in a bare list: a flat action with a list of actions, a branch with the key of a check and
its waiting time beside the condition, a child whose next step is empty outside of it, and a check with
the key of a branch and null for its next step. -/
def respelledValues : List Json :=
  [.obj [("id", .str "tell"), ("type", .str "ACTION"),
      ("actions", .arr [.obj (ActionStep.toFields ⟨.sendMessage, .nova, some "hi"⟩), .str "and more"]),
      ("nextStepId", .str "ask")],
    .obj [("id", .str "ask"), ("type", .str "CONDITION"),
      ("child", .arr [.obj [("conditions", .arr [Check.toFlat ⟨.hasTimePassed, true, some (.int 2)⟩]),
        ("nextStepId", .str "add")]])],
    .obj [("id", .str "add"), ("type", .str "ACTION"), ("child", .obj ActionStep.default.toFields),
      ("nextStepId", .str "")],
    .obj [("id", .str "late"), ("type", .str "CONDITION_CHECK"),
      ("checks", .arr [Check.toNested ⟨.isLinkedInContact, false, none⟩]), ("nextStepId", .null)]]

theorem Flow.ofJson_respelled_bareList :
    ∃ flow, ofJson (.arr respelledValues) = .ok flow ∧
      ofJson (Plan.form respelledDescriptors none) = .ok flow := by
  have each : List.Forall₂ OfDescriptor respelledDescriptors respelledValues := by
    refine .cons ?tell (.cons ?ask (.cons ?add (.cons ?late .nil)))
    case tell => exact .flat (.listed _ _ (reorders_self _)) (.named _) (reorders_self _)
    case ask =>
      refine .condition (.cons (.intro _ ?_ (reorders_self _)) .nil) .missing (reorders_self _)
      exact .intro "conditions" _ _ (.inr rfl) (.cons (.flat (reorders_self _)) .nil) (.named _)
    case add => exact .nested .beside (.inr ⟨.missing, .empty⟩) (reorders_self _) (reorders_self _)
    case late =>
      refine .check (.intro "checks" _ _ (.inl rfl) ?_ .null) (reorders_self _)
      exact .cons (.nested (reorders_self _)) .nil
  have read : (ofJson (.arr respelledValues)).toOption.isSome := by decide +kernel
  obtain ⟨flow, found⟩ := Option.isSome_iff_exists.mp read
  have imported := toOption_eq_some.mp found
  exact ⟨flow, imported, (ofJson_respelled each .bare flow).mp imported⟩

end OutreachFlow
