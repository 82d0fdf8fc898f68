import OutreachFlow.Proofs.Service.SavedFlows

/-! What is answered to bodies that do not fit. A violation holds a part of the body, so whatever passes from a body
to its parts holds of it, too. If that is enough to send the part back, the body is refused with what is wrong. -/
namespace OutreachFlow

namespace Service

variable {holds : Json → Prop}

namespace Checked

variable {α β : Type} {checked : Checked α}

/-- The property holds of whatever is found wrong. -/
def Finds (holds : Json → Prop) : Checked α → Prop
  | valid _ => True
  | invalid violations => ∀ violation ∈ violations, holds violation.found

theorem finds_refuse {found : Json} (part : holds found) (complaint : Complaint) :
    (Checked.refuse complaint found : Checked α).Finds holds := by
  simpa [refuse, Finds] using part

theorem Finds.under (finds : checked.Finds holds) (step : Step) :
    (checked.under step).Finds holds := by
  cases checked with
  | valid value => trivial
  | invalid violations =>
    intro violation member
    obtain ⟨old, inside, rfl⟩ := List.mem_map.mp member
    exact finds old inside

theorem Finds.seq {change : Checked (α → β)} (first : change.Finds holds)
    (second : checked.Finds holds) : (change <*> checked).Finds holds := by
  cases change with
  | valid apply =>
    cases checked with
    | valid value => trivial
    | invalid violations => exact second
  | invalid violations =>
    cases checked with
    | valid value => exact first
    | invalid others =>
      intro violation member
      rcases List.mem_append.mp member with before | behind
      · exact first violation before
      · exact second violation behind

theorem Finds.map (finds : checked.Finds holds) (change : α → β) :
    (change <$> checked).Finds holds := @Finds.seq holds α β checked (.valid change) trivial finds

end Checked

namespace Schema

variable {α : Type} {schema : Schema α}

/-- Whatever is found wrong with a document has the property if the document has it. -/
def Finds (holds : Json → Prop) (schema : Schema α) : Prop :=
  ∀ value : Json, holds value → (schema value).Finds holds

theorem finds_text : text.Finds holds := by
  intro value whole
  cases value with
  | str text => trivial
  | _ => exact Checked.finds_refuse whole _

theorem finds_dictionary : dictionary.Finds holds := by
  intro value whole
  cases value with
  | obj fields => trivial
  | _ => exact Checked.finds_refuse whole _

theorem finds_record {read : Fields → Checked α}
    (reads : ∀ fields : Fields, holds (.obj fields) → (read fields).Finds holds) : (record read).Finds holds := by
  intro value whole
  cases value with
  | obj fields => exact reads fields whole
  | _ => exact Checked.finds_refuse whole _

theorem finds_optional (finds : schema.Finds holds) : (optional schema).Finds holds := by
  intro value whole
  cases value with
  | null => trivial
  | _ => exact (finds _ whole).map some

theorem finds_items (finds : schema.Finds holds) {values : List Json} (all : ∀ value ∈ values, holds value)
    (index : Nat) : (items schema index values).Finds holds := by
  induction values generalizing index with
  | nil => trivial
  | cons value rest ih =>
    obtain ⟨first, others⟩ := List.forall_mem_cons.mp all
    exact (((finds value first).under _).map List.cons).seq (ih others (index + 1))

theorem finds_list (hereditary : Json.IsHereditary holds) (finds : schema.Finds holds) : (list schema).Finds holds := by
  intro value whole
  cases value with
  | arr values => exact finds_items finds (hereditary.items whole) 0
  | _ => exact Checked.finds_refuse whole _

theorem finds_double : double.Finds holds := by
  intro value whole
  unfold double
  split
  · split
    · trivial
    · exact Checked.finds_refuse whole _
  · split
    · trivial
    · exact Checked.finds_refuse whole _

end Schema

section Fields

variable (hereditary : Json.IsHereditary holds)
include hereditary

namespace FieldName

variable {α : Type} {schema : Schema α} {name : FieldName} {fields : Fields}

theorem finds_required (finds : schema.Finds holds) (whole : holds (.obj fields)) :
    (name.required schema fields).Finds holds := by
  unfold required
  split
  · rename_i there
    exact (finds _ (hereditary.fields whole _ (mem_of_find? there))).under _
  · exact (Checked.finds_refuse whole _).under _

theorem finds_optional? (finds : schema.Finds holds) (whole : holds (.obj fields)) :
    (name.optional? schema fields).Finds holds := by
  unfold optional?
  split
  · rename_i there
    exact ((finds _ (hereditary.fields whole _ (mem_of_find? there))).under _).map some
  · trivial

theorem finds_orElse (finds : schema.Finds holds) (whole : holds (.obj fields)) (fallback : α) :
    (name.orElse schema fallback fields).Finds holds :=
  (finds_optional? hereditary finds whole).map _

theorem finds_orNull (finds : schema.Finds holds) (whole : holds (.obj fields)) :
    (name.orNull schema fields).Finds holds :=
  finds_orElse hereditary (Schema.finds_optional finds) whole none

end FieldName

/-! The schemas of flows -/

open FieldName Schema

theorem Point.finds_schema : Point.schema.Finds holds :=
  finds_record fun _ whole =>
    ((finds_orElse hereditary finds_double whole _).map _).seq (finds_orElse hereditary finds_double whole _)

omit hereditary in
theorem NodeForm.finds_kindSchema : NodeForm.kindSchema.Finds holds := by
  intro value whole
  unfold kindSchema
  split
  · trivial
  · exact Checked.finds_refuse whole _

theorem NodeForm.finds_schema : NodeForm.schema.Finds holds :=
  finds_record fun _ whole =>
    ((((finds_required hereditary finds_text whole).map _).seq
      (finds_required hereditary finds_kindSchema whole)).seq
      (finds_orElse hereditary (Point.finds_schema hereditary) whole _)).seq
      (finds_orElse hereditary finds_dictionary whole _)

theorem EdgeForm.finds_schema : EdgeForm.schema.Finds holds :=
  finds_record fun _ whole =>
    (((((finds_required hereditary finds_text whole).map _).seq
      (finds_required hereditary finds_text whole)).seq
      (finds_required hereditary finds_text whole)).seq
      (finds_orNull hereditary finds_text whole)).seq
      (finds_orNull hereditary finds_text whole)

theorem GraphForm.finds_nodesSchema : GraphForm.nodesSchema.Finds holds :=
  finds_list hereditary (NodeForm.finds_schema hereditary)

theorem GraphForm.finds_edgesSchema : GraphForm.edgesSchema.Finds holds :=
  finds_list hereditary (EdgeForm.finds_schema hereditary)

theorem NewFlow.finds_read : (Schema.record NewFlow.read).Finds holds :=
  finds_record fun _ whole =>
    ((((finds_required hereditary finds_text whole).map _).seq
      (finds_orNull hereditary finds_text whole)).seq
      (finds_orElse hereditary (GraphForm.finds_nodesSchema hereditary) whole _)).seq
      (finds_orElse hereditary (GraphForm.finds_edgesSchema hereditary) whole _)

theorem FlowChange.finds_read : (Schema.record FlowChange.read).Finds holds :=
  finds_record fun _ whole =>
    ((((finds_optional? hereditary (finds_optional finds_text) whole).map _).seq
      (finds_optional? hereditary (finds_optional finds_text) whole)).seq
      (finds_orNull hereditary (GraphForm.finds_nodesSchema hereditary) whole)).seq
      (finds_orNull hereditary (GraphForm.finds_edgesSchema hereditary) whole)

end Fields

/-! Requests -/

namespace Request

variable {framework : Framework} {α : Type} {request : Request} {schema : Schema α}

theorem isRefusal_refusalText (framework : Framework) {status : Nat} (range : 400 ≤ status ∧ status < 500)
    {detail : String} (whole : Text.hasStandIn detail = false) :
    (framework.deliver (.refusalText status detail)).IsRefusal := by
  rw [deliver_refusalText framework status whole]
  exact range

theorem isRefusal_invalid {violations : List Violation}
    (sendable : ∀ violation ∈ violations, (framework.sent .echoed violation.found).isSome) :
    (framework.deliver (.invalid violations)).IsRefusal := by
  rw [Framework.deliver, if_pos (List.all_eq_true.mpr sendable)]
  exact (by decide : 400 ≤ 422 ∧ 422 < 500)

theorem isRefusal_of_undocumented {reply : Reply} (unread : request.document framework = .error reply) :
    (framework.deliver reply).IsRefusal := by
  have nothing : (framework.sent .echoed (.obj [])).isSome := by
    rw [framework.sends .echoed (Nat.le_trans (show 1 ≤ 4 by decide) framework.shallow) rfl rfl]
    rfl
  unfold document at unread
  split at unread
  · contradiction
  · split at unread
    · contradiction
    · obtain rfl := Except.error.inj unread
      exact isRefusal_invalid (List.forall_mem_singleton.mpr nothing)
    · obtain rfl := Except.error.inj unread
      exact isRefusal_refusalText framework (by decide) (by decide +kernel)

theorem finds_checkBody (hereditary : Json.IsHereditary holds) (finds : schema.Finds holds) {content : Option Json}
    (all : ∀ value ∈ content, holds value) : (checkBody schema content).Finds holds := by
  cases content with
  | none => exact (Checked.finds_refuse hereditary.null _).under _
  | some value => exact (finds value (all value rfl)).under _

/-- A body that is not taken is answered with what is wrong with it. -/
theorem isRefusal_of_unread (hereditary : Json.IsHereditary holds)
    (sendable : ∀ value, holds value → (framework.sent .echoed value).isSome) (finds : schema.Finds holds)
    (bears : request.Bears framework holds) {reply : Reply}
    (unread : request.read framework (checkBody schema) = .error reply) : (framework.deliver reply).IsRefusal := by
  unfold read at unread
  split at unread
  · rename_i fault undocumented
    exact Except.error.inj unread ▸ isRefusal_of_undocumented undocumented
  · rename_i content documented
    split at unread
    · contradiction
    · rename_i violations checked
      obtain rfl := Except.error.inj unread
      have values : ∀ value ∈ content, holds value := fun value same =>
        bears value (Option.mem_def.mp same ▸ documented)
      have found := finds_checkBody hereditary finds values
      rw [checked] at found
      exact isRefusal_invalid fun violation member => sendable _ (found violation member)

end Request

end Service

end OutreachFlow
