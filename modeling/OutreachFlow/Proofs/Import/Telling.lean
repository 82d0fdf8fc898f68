import OutreachFlow.Proofs.Import.Room

/-! Which imports end in a flow or are reported as invalid. What is wrong with a form is told by a message. Some
messages show a value that they found, and only such a value can keep them from being made. -/
namespace OutreachFlow

open Fields (valueOf)

namespace ImportFault

/-- What is wrong is in the form, and the property holds of the value that the message shows. -/
def Shows (holds : Json → Prop) : ImportFault → Prop
  | unreadable _ => False
  | unsupportedVersion value | unknownType _ value => holds value
  | descriptor _ fault => ∀ value ∈ fault.shown?, holds value
  | _ => True

end ImportFault

variable {limit : Nat}

section Shown

variable {holds : Json → Prop} (hereditary : Json.IsHereditary holds) {fields saved : Fields} {value : Json}
include hereditary

namespace Source

variable {fault : DescriptorFault}

theorem shown_of_nextStep (all : ∀ field ∈ fields, holds field.2) (fails : nextStep fields = .error fault) :
    ∀ value ∈ fault.shown?, holds value := by
  have next := hereditary.valueOf all "nextStepId"
  unfold nextStep at fails
  split at fails
  · contradiction
  · contradiction
  · obtain rfl := Except.error.inj fails
    rintro _ shown
    exact Option.some.inj shown ▸ next

theorem holds_actionRecord (all : ∀ field ∈ fields, holds field.2) :
    ∀ field ∈ actionRecord fields, holds field.2 := by
  have child := hereditary.valueOf all "child"
  unfold actionRecord
  split
  · rename_i inner same
    exact hereditary.fields (same ▸ child)
  · exact all

theorem holds_actionFields (all : ∀ field ∈ fields, holds field.2) :
    ∀ field ∈ actionFields fields, holds field.2 := by
  have data := hereditary.valueOf all "data"
  unfold actionFields
  split
  · rename_i inner _ same
    intro field member
    rcases Fields.mem_set member with old | rfl
    · exact all field old
    · exact hereditary.valueOf (hereditary.fields (same ▸ data)) _
  · exact all

theorem shown_of_actionStep (all : ∀ field ∈ fields, holds field.2) (fails : actionStep fields = .error fault) :
    ∀ value ∈ fault.shown?, holds value := by
  obtain ⟨cause, wrong, rfl⟩ := mapError_eq_error.mp fails
  exact (ActionStep.shown_of_ofData hereditary
    (holds_actionFields hereditary (holds_actionRecord hereditary all)) wrong).value

theorem shown_of_actionNext (all : ∀ field ∈ fields, holds field.2) (fails : actionNext fields = .error fault) :
    ∀ value ∈ fault.shown?, holds value := by
  rcases bind_eq_error.mp fails with inner | ⟨next, _, outer⟩
  · exact shown_of_nextStep hereditary (holds_actionRecord hereditary all) inner
  · cases next with
    | some next => contradiction
    | none => exact shown_of_nextStep hereditary all outer

omit hereditary in
theorem shown_of_branches (fails : branches fields = .error fault) : ∀ value ∈ fault.shown?, holds value := by
  unfold branches at fails
  split at fails
  · contradiction
  · contradiction
  · obtain rfl := Except.error.inj fails
    simp [DescriptorFault.shown?]

theorem shown_of_checksUnder {key other : String} (all : ∀ field ∈ fields, holds field.2)
    (fails : checksUnder key other fields = .error fault) : ∀ value ∈ fault.shown?, holds value := by
  obtain ⟨cause, wrong, rfl⟩ := mapError_eq_error.mp fails
  refine (Check.shown_of_listOfJson hereditary ?_ wrong).value
  cases found : fields.get? key with
  | none => exact hereditary.valueOf all other
  | some value => exact Json.IsHereditary.get? all found

end Source

namespace Draft

variable {fault : ImportFault} {id : String} {draft : Draft} {slot index : Nat} {parent : Position}

omit hereditary in
theorem shown_of_within {α : Type} {part : Except DescriptorFault α}
    (fails : within id part = .error (.invalid fault)) :
    ∃ cause, part = .error cause ∧ fault = .descriptor id cause := by
  obtain ⟨cause, wrong, same⟩ := mapError_eq_error.mp fails
  exact ⟨cause, wrong, (ImportError.invalid.inj same).symm⟩

omit hereditary in
theorem shown_of_add {node : Node} (fails : draft.add node = .error (.invalid fault)) :
    fault.Shows holds := by
  unfold add at fails
  split at fails
  · exact ImportError.invalid.inj (Except.error.inj fails) ▸ trivial
  · contradiction

theorem shown_of_addAction (all : ∀ field ∈ fields, holds field.2)
    (fails : draft.addAction saved slot id fields = .error (.invalid fault)) :
    fault.Shows holds := by
  rcases bind_eq_error.mp fails with step | ⟨_, _, fails⟩
  · obtain ⟨cause, wrong, rfl⟩ := shown_of_within step
    exact Source.shown_of_actionStep hereditary all wrong
  · rcases bind_eq_error.mp fails with next | ⟨_, _, fails⟩
    · obtain ⟨cause, wrong, rfl⟩ := shown_of_within next
      exact Source.shown_of_actionNext hereditary all wrong
    · rcases bind_eq_error.mp fails with twice | ⟨_, _, done⟩
      · exact shown_of_add twice
      · contradiction

omit hereditary in
theorem childPosition_ne_invalid : childPosition saved id parent index ≠ .error (.invalid fault) := by
  unfold childPosition
  split <;> simp

theorem shown_of_addBranch (whole : holds value)
    (fails : draft.addBranch saved id parent index value = .error (.invalid fault)) :
    fault.Shows holds := by
  cases value with
  | obj fields =>
    have all := hereditary.fields whole
    rcases bind_eq_error.mp fails with checks | ⟨_, _, fails⟩
    · obtain ⟨cause, wrong, rfl⟩ := shown_of_within checks
      exact Source.shown_of_checksUnder hereditary all wrong
    · rcases bind_eq_error.mp fails with unplaced | ⟨_, _, fails⟩
      · exact absurd unplaced childPosition_ne_invalid
      · rcases bind_eq_error.mp fails with twice | ⟨_, _, fails⟩
        · exact shown_of_add twice
        · rcases bind_eq_error.mp fails with next | ⟨_, _, done⟩
          · obtain ⟨cause, wrong, rfl⟩ := shown_of_within next
            exact Source.shown_of_nextStep hereditary all wrong
          · contradiction
  | _ =>
    obtain rfl := ImportError.invalid.inj (Except.error.inj fails)
    simp [ImportFault.Shows, DescriptorFault.shown?]

theorem shown_of_addCondition (all : ∀ field ∈ fields, holds field.2)
    (fails : draft.addCondition saved slot id fields = .error (.invalid fault)) :
    fault.Shows holds := by
  rcases bind_eq_error.mp fails with unlisted | ⟨branches, listed, fails⟩
  · obtain ⟨cause, wrong, rfl⟩ := shown_of_within unlisted
    exact Source.shown_of_branches wrong
  · rcases bind_eq_error.mp fails with twice | ⟨_, _, fails⟩
    · exact shown_of_add twice
    · obtain ⟨_, branch, _, _, rfl, _, stops⟩ := (isRunOf_addBranches saved id _).eq_error.mp fails
      refine shown_of_addBranch hereditary ?_ stops
      have child := hereditary.valueOf all "child"
      have listed := within_eq_ok.mp listed
      unfold Source.branches at listed
      split at listed
      · simp at listed
      · rename_i written same
        obtain rfl := Except.ok.inj listed
        exact hereditary.items (same ▸ child) branch (by simp)
      · contradiction

theorem shown_of_addStandaloneCheck (all : ∀ field ∈ fields, holds field.2)
    (fails : draft.addStandaloneCheck saved slot id fields = .error (.invalid fault)) :
    fault.Shows holds := by
  rcases bind_eq_error.mp fails with checks | ⟨_, _, fails⟩
  · obtain ⟨cause, wrong, rfl⟩ := shown_of_within checks
    exact Source.shown_of_checksUnder hereditary all wrong
  · rcases bind_eq_error.mp fails with twice | ⟨_, _, fails⟩
    · exact shown_of_add twice
    · rcases bind_eq_error.mp fails with next | ⟨_, _, done⟩
      · obtain ⟨cause, wrong, rfl⟩ := shown_of_within next
        exact Source.shown_of_nextStep hereditary all wrong
      · contradiction

theorem shown_of_addDescriptor (whole : holds value)
    (fails : draft.addDescriptor saved slot value = .error (.invalid fault)) :
    fault.Shows holds := by
  cases value with
  | obj fields =>
    have all := hereditary.fields whole
    cases named : Node.idOf? fields with
    | none =>
      simp only [addDescriptor, named] at fails
      exact ImportError.invalid.inj (Except.error.inj fails) ▸ trivial
    | some id =>
      simp only [addDescriptor, named] at fails
      split at fails
      · obtain rfl := ImportError.invalid.inj (Except.error.inj fails)
        exact hereditary.valueOf all "type"
      · exact shown_of_addAction hereditary all fails
      · exact shown_of_addCondition hereditary all fails
      · split at fails
        · exact ImportError.invalid.inj (Except.error.inj fails) ▸ trivial
        · exact shown_of_addStandaloneCheck hereditary all fails
  | _ => exact ImportError.invalid.inj (Except.error.inj fails) ▸ trivial

end Draft

namespace Flow

omit hereditary in
theorem shown_of_unwrap {fault : ImportFault} (all : ∀ field ∈ fields, holds field.2)
    (fails : unwrap (.obj fields) = .error fault) : fault.Shows holds := by
  unfold unwrap at fails
  cases nodes : fields.get? "nodes" with
  | none =>
    simp only [nodes] at fails
    exact Except.error.inj fails ▸ trivial
  | some listed =>
    simp only [nodes] at fails
    split at fails
    · rename_i unsupported
      obtain rfl := Except.error.inj fails
      cases found : fields.get? "version" with
      | none =>
        rw [found] at unsupported
        exact absurd unsupported (by decide)
      | some version => exact Json.IsHereditary.get? all found
    · split at fails
      · split at fails
        · contradiction
        · contradiction
        · exact Except.error.inj fails ▸ trivial
      · exact Except.error.inj fails ▸ trivial

theorem holds_of_lists {form : Json} {values : List Json} (whole : holds form) (lists : form.Lists values saved) :
    ∀ value ∈ values, holds value := by
  cases lists with
  | bare => exact hereditary.items whole
  | wrapped fields _ _ nodes =>
    exact hereditary.items (Json.IsHereditary.get? (hereditary.fields whole) nodes)

end Flow

/-- The value that a message shows is found in the form. -/
theorem Flow.shown_of_ofJson {form : Json} {fault : ImportFault} (whole : holds form)
    (fails : ofJson form = .error (.invalid fault)) : fault.Shows holds := by
  rcases bind_eq_error.mp fails with unwrapped | ⟨⟨descriptors, saved⟩, unwrapped, fails⟩
  · obtain ⟨cause, wrong, same⟩ := mapError_eq_error.mp unwrapped
    obtain rfl := ImportError.invalid.inj same
    cases form with
    | obj fields => exact shown_of_unwrap (hereditary.fields whole) wrong
    | arr items => contradiction
    | _ =>
      obtain rfl := Except.error.inj wrong
      trivial
  · have lists := unwrap_eq_ok.mp (mapError_eq_ok.mp unwrapped)
    rcases bind_eq_error.mp fails with stops | ⟨draft, _, fails⟩
    · obtain ⟨_, value, _, _, rfl, _, stops⟩ := (Draft.isRunOf_addDescriptors saved).eq_error.mp stops
      exact Draft.shown_of_addDescriptor hereditary (holds_of_lists hereditary whole lists value (by simp)) stops
    · split at fails
      · exact ImportError.invalid.inj (Except.error.inj fails) ▸ trivial
      · contradiction

end Shown

namespace Flow

variable {form : Json}

end Flow

end OutreachFlow
