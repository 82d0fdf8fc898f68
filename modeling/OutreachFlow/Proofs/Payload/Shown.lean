import OutreachFlow.Payload.Basic
import OutreachFlow.Proofs.Import.Reading
import OutreachFlow.Proofs.Json.Parts
import OutreachFlow.Proofs.Json.Printed

/-! What the messages of payload faults show. The value that a message shows is found in the data that are read,
so it is nested no deeper than they are. It is printed, so no message has a stand-in. -/
namespace OutreachFlow

theorem mem_of_mapM_eq_error {ε α β : Type} {read : α → Except ε β} {values : List α} {fault : ε}
    (fails : values.mapM read = .error fault) : ∃ value ∈ values, read value = .error fault := by
  induction values with
  | nil => contradiction
  | cons first rest ih =>
    rw [List.mapM_cons, bind_eq_error] at fails
    rcases fails with here | ⟨_, _, later⟩
    · exact ⟨first, List.mem_cons_self, here⟩
    · rcases bind_eq_error.mp later with further | ⟨_, _, done⟩
      · obtain ⟨value, inside, there⟩ := ih further
        exact ⟨value, List.mem_cons_of_mem _ inside, there⟩
      · contradiction

namespace Json

variable {limit : Nat} {shown : Option Json}

theorem told?_isSome (flat : ∀ value ∈ shown, value.depth < limit) (message : String) :
    (told? limit shown message).isSome := by
  cases shown with
  | none => rfl
  | some value =>
    have printed := printFault?_ne_tooDeep (flat value rfl)
    rw [told?, Option.bind_some]
    split <;> simp_all

end Json

theorem WordFault.hasStandIn_message {fault : WordFault} (field : Text.hasStandIn fault.field = false)
    (words : ∀ word ∈ fault.expected, Text.hasStandIn word = false) : Text.hasStandIn fault.message = false := by
  have listed := Text.hasStandIn_intercalate Json.hasStandIn_comma words
  unfold message
  simp only [Text.hasStandIn_append, field, listed, Json.hasStandIn_literal, Bool.or_false]
  decide +kernel

namespace PayloadFault

/-- The property holds of the value that the message of a fault shows, and the message has no stand-in. -/
structure Shows (holds : Json → Prop) (fault : PayloadFault) : Prop where
  value : ∀ value ∈ fault.shown?, holds value
  whole : Text.hasStandIn fault.message = false

variable {holds : Json → Prop} {fault : PayloadFault}

theorem shows_of_known (known : ∀ cause, fault ≠ .unknownWord cause) (value : ∀ value ∈ fault.shown?, holds value) :
    fault.Shows holds := by
  refine ⟨value, ?_⟩
  cases fault with
  | unknownWord cause => exact absurd rfl (known cause)
  | outcomeNotTruthValue value | hoursNotNumber value =>
    unfold message
    simp only [Text.hasStandIn_append, Json.hasStandIn_literal, Bool.or_false]
    decide +kernel
  | _ =>
    unfold message
    simp only [Text.hasStandIn_append, Json.hasStandIn_typeName, Bool.or_false]
    decide +kernel

end PayloadFault

section Shown

variable {holds : Json → Prop} (hereditary : Json.IsHereditary holds) {fields : Fields} {value : Json}
  {fault : PayloadFault}
include hereditary

theorem shown_of_readWord {α : Type} [Vocabulary α] {key field : String} (all : ∀ field ∈ fields, holds field.2)
    (plain : Text.hasStandIn field = false)
    (words : ∀ member ∈ Vocabulary.all (α := α), Text.hasStandIn (Vocabulary.word member) = false)
    (fails : readWord (α := α) field (fields.valueOf key) = .error fault) : fault.Shows holds := by
  obtain ⟨cause, unknown, rfl⟩ := mapError_eq_error.mp fails
  rw [Vocabulary.read] at unknown
  split at unknown
  · contradiction
  · obtain rfl := Except.error.inj unknown
    refine ⟨fun value shown => ?_, WordFault.hasStandIn_message plain (List.forall_mem_map.mpr words)⟩
    obtain rfl := Option.some.inj shown
    exact hereditary.valueOf all key

namespace Check

theorem shown_of_ofFields (all : ∀ field ∈ fields, holds field.2) (fails : ofFields fields = .error fault) :
    fault.Shows holds := by
  have hours : holds (hoursValue fields) := by
    unfold hoursValue
    split
    · rename_i extra _ same
      have inside : holds (.obj extra) := same ▸ hereditary.valueOf all "conditionExtraValue"
      exact hereditary.valueOf (hereditary.fields inside) _
    · exact hereditary.valueOf all _
  rcases bind_eq_error.mp fails with outcome | ⟨_, _, fails⟩
  · unfold readOutcome at outcome
    cases found : fields.get? "value" with
    | none => simp [found] at outcome
    | some value =>
      have part := Json.IsHereditary.get? all found
      rw [found, Option.getD_some] at outcome
      split at outcome
      · contradiction
      · obtain rfl := Except.error.inj outcome
        refine PayloadFault.shows_of_known (by simp) fun _ shown => ?_
        exact Option.some.inj shown ▸ part
  · rcases bind_eq_error.mp fails with waiting | ⟨_, _, fails⟩
    · unfold readHours at waiting
      split at waiting
      · contradiction
      · contradiction
      · obtain rfl := Except.error.inj waiting
        refine PayloadFault.shows_of_known (by simp) fun _ shown => ?_
        exact Option.some.inj shown ▸ hours
    · rcases bind_eq_error.mp fails with unknown | ⟨_, _, done⟩
      · exact shown_of_readWord hereditary all (by decide +kernel) (by decide +kernel) unknown
      · contradiction

theorem shown_of_ofJson (whole : holds value) (fails : ofJson value = .error fault) :
    fault.Shows holds := by
  cases value with
  | obj fields => exact shown_of_ofFields hereditary (hereditary.fields whole) fails
  | _ =>
    obtain rfl := Except.error.inj fails
    exact PayloadFault.shows_of_known (by simp) (by simp [PayloadFault.shown?])

theorem shown_of_listOfJson (whole : holds value) (fails : listOfJson value = .error fault) :
    fault.Shows holds := by
  cases value with
  | null => contradiction
  | arr items =>
    obtain ⟨item, inside, wrong⟩ := mem_of_mapM_eq_error fails
    exact shown_of_ofJson hereditary (hereditary.items whole item inside) wrong
  | _ =>
    obtain rfl := Except.error.inj fails
    exact PayloadFault.shows_of_known (by simp) (by simp [PayloadFault.shown?])

end Check

namespace ActionStep

theorem shown_of_ofFields (all : ∀ field ∈ fields, holds field.2) (fails : ofFields fields = .error fault) :
    fault.Shows holds := by
  rcases bind_eq_error.mp fails with message | ⟨_, _, fails⟩
  · unfold readMessage at message
    split at message
    · contradiction
    · contradiction
    · obtain rfl := Except.error.inj message
      exact PayloadFault.shows_of_known (by simp) (by simp [PayloadFault.shown?])
  · rcases bind_eq_error.mp fails with action | ⟨_, _, fails⟩
    · exact shown_of_readWord hereditary all (by decide +kernel) (by decide +kernel) action
    · rcases bind_eq_error.mp fails with provider | ⟨_, _, done⟩
      · exact shown_of_readWord hereditary all (by decide +kernel) (by decide +kernel) provider
      · contradiction

theorem shown_of_ofJson (whole : holds value) (fails : ofJson value = .error fault) :
    fault.Shows holds := by
  cases value with
  | obj fields => exact shown_of_ofFields hereditary (hereditary.fields whole) fails
  | _ =>
    obtain rfl := Except.error.inj fails
    exact PayloadFault.shows_of_known (by simp) (by simp [PayloadFault.shown?])

theorem shown_of_ofData (all : ∀ field ∈ fields, holds field.2) (fails : ofData fields = .error fault) :
    fault.Shows holds := by
  have actions : holds (fields.valueOf "actions") := hereditary.valueOf all "actions"
  unfold ofData at fails
  split at fails
  · contradiction
  · rename_i first rest same
    exact shown_of_ofJson hereditary (hereditary.items (same ▸ actions) first List.mem_cons_self) fails
  · exact shown_of_ofFields hereditary all fails

end ActionStep

theorem Payload.shown_of_ofData {kind : NodeKind} (all : ∀ field ∈ fields, holds field.2)
    (fails : Payload.ofData fields kind = .error fault) : fault.Shows holds := by
  cases kind with
  | action => exact ActionStep.shown_of_ofData hereditary all (map_eq_error.mp fails)
  | condition => contradiction
  | conditionCheck =>
    exact Check.shown_of_listOfJson hereditary (hereditary.valueOf all _) (map_eq_error.mp fails)

end Shown

end OutreachFlow
