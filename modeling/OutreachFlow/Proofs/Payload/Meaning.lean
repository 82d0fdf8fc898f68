import Mathlib.Tactic.MkIffOfInductiveProp
import OutreachFlow.Proofs.Plan.WrittenForm

/-! What a written payload means. Checks and actions have been written in several shapes, and one value may mix
them: it can have two waiting times or two messages, a list of actions where there should be one, and fields that
are null or missing. The rules below settle what counts, without a word on the order in which it is looked for,
and what is read is exactly what the value means. -/
namespace OutreachFlow

open Fields (valueOf)

/-! The rules -/

namespace Fields

/-- The waiting time of a check: the one beside the condition or, if that is missing, the one in the extra value.
An extra value that is no object holds none. -/
inductive MeansHours (fields : Fields) : Option Number → Prop
  | beside (hours : Number) (own : fields.valueOf "timeInHours" = .num hours) : MeansHours fields (some hours)
  | inside (extra : Fields) (hours : Option Number) (unset : fields.valueOf "timeInHours" = .null)
      (object : fields.valueOf "conditionExtraValue" = .obj extra)
      (held : valueOf extra "timeInHours" = hours.elim .null .num) : MeansHours fields hours
  | nowhere (unset : fields.valueOf "timeInHours" = .null)
      (loose : ∀ extra, fields.valueOf "conditionExtraValue" ≠ .obj extra) : MeansHours fields none

/-- A check. The outcome is true where it is missing, while null is no outcome. -/
@[mk_iff]
structure MeansCheck (fields : Fields) (check : Check) : Prop where
  condition : fields.valueOf "condition" = .str (Vocabulary.word check.condition)
  outcome : fields.get? "value" = some (.bool check.outcome) ∨ fields.get? "value" = none ∧ check.outcome = true
  hours : fields.MeansHours check.hours

/-- What an action does and through whom, with a message that may stand elsewhere. -/
@[mk_iff]
structure MeansStep (fields : Fields) (message : Json) (step : ActionStep) : Prop where
  action : fields.valueOf "action" = .str (Vocabulary.word step.action)
  provider : fields.valueOf "provider" = .str (Vocabulary.word step.provider)
  message : message = step.message.elim .null .str

/-- The action of a record. A list of actions means what its first one does, which keeps its message to itself,
and an empty list means the default. -/
inductive MeansAction (record : Fields) (message : Json) : ActionStep → Prop
  | default (empty : record.valueOf "actions" = .arr []) : MeansAction record message .default
  | listed (first : Fields) (rest : List Json) (step : ActionStep)
      (list : record.valueOf "actions" = .arr (.obj first :: rest))
      (means : first.MeansStep (first.valueOf "message") step) : MeansAction record message step
  | own (step : ActionStep) (unlisted : ∀ actions, record.valueOf "actions" ≠ .arr actions)
      (means : record.MeansStep message step) : MeansAction record message step

/-- The message of a record: its own, or else the one in its data object. -/
def messageOf (record : Fields) : Json :=
  match record.valueOf "message", record.valueOf "data" with
  | .null, .obj data => valueOf data "message"
  | message, _ => message

/-- The action of a descriptor, whose record is its child object or else the descriptor itself. -/
inductive MeansRecord (descriptor : Fields) (step : ActionStep) : Prop
  | nested (child : Fields) (inside : descriptor.valueOf "child" = .obj child)
      (means : child.MeansAction child.messageOf step)
  | flat (childless : ∀ child, descriptor.valueOf "child" ≠ .obj child)
      (means : descriptor.MeansAction descriptor.messageOf step)

end Fields

/-- A list of checks. Null means that there are none. -/
inductive Json.MeansChecks : Json → List Check → Prop
  | none : MeansChecks .null []
  | list {items : List Json} {checks : List Check}
      (each : List.Forall₂ (fun item check => ∃ fields : Fields, item = .obj fields ∧ fields.MeansCheck check)
        items checks) : MeansChecks (.arr items) checks

/-! What is read -/

theorem Vocabulary.word_of_ofWord? {α : Type} [Vocabulary α] {text : String} {member : α}
    (found : ofWord? text = some member) : word member = text := by
  simpa using List.find?_some found

theorem Vocabulary.ofJson?_eq_some {α : Type} [Vocabulary α] [LawfulVocabulary α] {value : Json} {member : α} :
    ofJson? value = some member ↔ value = .str (word member) := by
  constructor
  · cases value with
    | str text =>
      intro found
      rw [word_of_ofWord? found]
    | _ => simp [ofJson?, Json.asString?]
  · rintro rfl
    exact LawfulVocabulary.ofWord?_word member

theorem readWord_eq_ok {α : Type} [Vocabulary α] [LawfulVocabulary α] {field : String} {value : Json}
    {member : α} : readWord field value = .ok member ↔ value = .str (Vocabulary.word member) := by
  rw [readWord, mapError_eq_ok, Vocabulary.read, ← Vocabulary.ofJson?_eq_some]
  cases Vocabulary.ofJson? (α := α) value <;> simp

namespace Check

variable {fields : Fields} {value : Json} {check : Check} {hours : Option Number} {outcome : Bool}

theorem readOutcome_eq_ok : readOutcome fields = .ok outcome ↔
    fields.get? "value" = some (.bool outcome) ∨ fields.get? "value" = none ∧ outcome = true := by
  unfold readOutcome
  cases fields.get? "value" with
  | none => simp [eq_comm]
  | some value => cases value <;> simp

theorem readHours_eq_ok : readHours value = .ok hours ↔ value = hours.elim .null .num := by
  cases value <;> cases hours <;> simp [readHours]

theorem readHours_hoursValue : readHours (hoursValue fields) = .ok hours ↔ fields.MeansHours hours := by
  rw [readHours_eq_ok, hoursValue]
  constructor
  · intro found
    split at found
    · rename_i extra unset object
      exact .inside extra hours unset object found
    · rename_i loose
      cases hours with
      | none => exact .nowhere found fun extra object => loose extra found object
      | some hours => exact .beside hours found
  · rintro (⟨_, own⟩ | ⟨extra, _, unset, object, held⟩ | ⟨unset, loose⟩)
    · rw [own]
      rfl
    · rw [unset, object]
      exact held
    · rw [unset]
      split
      · rename_i object
        exact absurd object (loose _)
      · rfl

theorem ofJson_eq_ok :
    ofJson value = .ok check ↔ ∃ fields : Fields, value = .obj fields ∧ fields.MeansCheck check := by
  obtain ⟨condition, outcome, hours⟩ := check
  cases value with
  | obj fields =>
    simp only [ofJson, ofFields, bind_eq_ok, readOutcome_eq_ok, readHours_hoursValue, readWord_eq_ok, pure,
      Except.pure, Except.ok.injEq, Check.mk.injEq, Json.obj.injEq, exists_eq_left', Fields.meansCheck_iff]
    -- The same parts on both sides; the condition is read last.
    grind
  | _ => simp [ofJson]

theorem listOfJson_eq_ok {checks : List Check} : listOfJson value = .ok checks ↔ value.MeansChecks checks := by
  constructor
  · intro read
    unfold listOfJson at read
    split at read
    · obtain rfl := Except.ok.inj read
      exact .none
    · exact .list ((mapM_eq_ok.mp read).imp fun _ _ => ofJson_eq_ok.mp)
    · contradiction
  · rintro (_ | each)
    · rfl
    · exact mapM_eq_ok.mpr (each.imp fun _ _ => ofJson_eq_ok.mpr)

end Check

namespace ActionStep

variable {fields data : Fields} {value : Json} {step : ActionStep} {message : Option String}

theorem readMessage_eq_ok : readMessage value = .ok message ↔ value = message.elim .null .str := by
  cases value <;> cases message <;> simp [readMessage]

theorem ofFields_eq_ok : ofFields fields = .ok step ↔ fields.MeansStep (fields.valueOf "message") step := by
  obtain ⟨action, provider, message⟩ := step
  simp only [ofFields, bind_eq_ok, readMessage_eq_ok, readWord_eq_ok, pure, Except.pure, Except.ok.injEq,
    ActionStep.mk.injEq, Fields.meansStep_iff]
  grind

theorem ofData_eq_ok : ofData data = .ok step ↔ data.MeansAction (data.valueOf "message") step := by
  constructor
  · intro read
    unfold ofData at read
    split at read
    · rename_i empty
      obtain rfl := Except.ok.inj read
      exact .default empty
    · rename_i first rest list
      cases first with
      | obj fields => exact .listed fields rest step list (ofFields_eq_ok.mp read)
      | _ => contradiction
    · rename_i unempty unlisted
      refine .own step (fun actions list => ?_) (ofFields_eq_ok.mp read)
      cases actions with
      | nil => exact unempty list
      | cons first rest => exact unlisted first rest list
  · rintro (empty | ⟨first, rest, _, list, means⟩ | ⟨_, unlisted, means⟩)
    · rw [ofData, empty]
    · rw [ofData, list]
      exact ofFields_eq_ok.mpr means
    · rw [ofData]
      split
      · rename_i list
        exact absurd list (unlisted _)
      · rename_i list
        exact absurd list (unlisted _)
      · exact ofFields_eq_ok.mpr means

end ActionStep

namespace Source

variable {record descriptor : Fields} {step : ActionStep}

theorem actionFields_cases (record : Fields) :
    actionFields record = record.set "message" record.messageOf ∨
      actionFields record = record ∧ record.messageOf = record.valueOf "message" := by
  cases own : record.valueOf "message" <;> cases data : record.valueOf "data" <;>
    simp [actionFields, Fields.messageOf, own, data]

/-- Taking over the message changes nothing else. -/
theorem valueOf_actionFields (record : Fields) (key : String) :
    (actionFields record).valueOf key =
      if key = "message" then record.messageOf else record.valueOf key := by
  rcases actionFields_cases record with taken | ⟨kept, own⟩
  · rw [taken, valueOf, Fields.get?_set]
    split <;> rfl
  · rw [kept, own]
    split
    · rename_i same
      rw [same]
    · rfl

/-- Taking over the message makes action data of a record, and a list of actions is not touched. -/
theorem ofData_actionFields :
    ActionStep.ofData (actionFields record) = .ok step ↔ record.MeansAction record.messageOf step := by
  have actions : (actionFields record).valueOf "actions" = record.valueOf "actions" :=
    valueOf_actionFields record "actions"
  have same {step : ActionStep} : (actionFields record).MeansStep ((actionFields record).valueOf "message") step ↔
      record.MeansStep record.messageOf step := by
    simp [Fields.meansStep_iff, valueOf_actionFields]
  rw [ActionStep.ofData_eq_ok]
  constructor
  · rintro (empty | ⟨first, rest, _, list, means⟩ | ⟨_, unlisted, means⟩)
    · exact .default (actions ▸ empty)
    · exact .listed first rest step (actions ▸ list) means
    · exact .own step (actions ▸ unlisted) (same.mp means)
  · rintro (empty | ⟨first, rest, _, list, means⟩ | ⟨_, unlisted, means⟩)
    · exact .default (actions ▸ empty)
    · exact .listed first rest step (actions ▸ list) means
    · exact .own step (actions ▸ unlisted) (same.mpr means)

theorem actionRecord_cases (fields : Fields) :
    (∃ child, fields.valueOf "child" = .obj child ∧ actionRecord fields = child) ∨
      (∀ child, fields.valueOf "child" ≠ .obj child) ∧ actionRecord fields = fields := by
  unfold actionRecord
  cases fields.valueOf "child" <;> simp

theorem actionStep_eq_ok : actionStep descriptor = .ok step ↔ descriptor.MeansRecord step := by
  rw [actionStep, mapError_eq_ok, ofData_actionFields]
  rcases actionRecord_cases descriptor with ⟨child, inside, same⟩ | ⟨childless, same⟩ <;> rw [same]
  · constructor
    · exact .nested child inside
    · rintro (⟨other, inside', means⟩ | ⟨childless, _⟩)
      · obtain rfl := Json.obj.inj (inside'.symm.trans inside)
        exact means
      · exact absurd inside (childless child)
  · constructor
    · exact .flat childless
    · rintro (⟨child, inside, _⟩ | ⟨_, means⟩)
      · exact absurd inside (childless child)
      · exact means

end Source

end OutreachFlow
