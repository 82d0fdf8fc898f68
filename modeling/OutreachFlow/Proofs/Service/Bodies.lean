import OutreachFlow.Proofs.Json.Proper
import OutreachFlow.Proofs.Service.Forms
import OutreachFlow.Service.Record
import OutreachFlow.Service.Request

/-! What bodies of requests are read as. Texts and the data of nodes pass through as they are, so they have what a
body has: they can be stored again, and they are no deeper than they stand in it. -/
namespace OutreachFlow.Service

namespace Checked

variable {α β : Type}

theorem seq_eq_valid {change : Checked (α → β)} {checked : Checked α} {result : β} :
    change <*> checked = .valid result ↔
      ∃ apply value, change = .valid apply ∧ checked = .valid value ∧ apply value = result := by
  change Checked.apply change checked = _ ↔ _
  cases change <;> cases checked <;> simp [Checked.apply]

theorem map_eq_valid {change : α → β} {checked : Checked α} {result : β} :
    change <$> checked = .valid result ↔ ∃ value, checked = .valid value ∧ change value = result := by
  change Checked.apply (.valid change) checked = _ ↔ _
  cases checked <;> simp [Checked.apply]

theorem under_eq_valid {checked : Checked α} {step : Step} {value : α} :
    checked.under step = .valid value ↔ checked = .valid value := by
  cases checked <;> simp [under]

end Checked

namespace Schema

variable {α : Type} {schema : Schema α} {given whole : Json → Prop} {holds : α → Prop}

/-- What documents with the one property are read as has the other. -/
def Yields (schema : Schema α) (given : Json → Prop) (holds : α → Prop) : Prop :=
  ∀ value found, given value → schema value = .valid found → holds found

theorem yields_text : Yields text given fun found => given (.str found) := by
  intro value found fits read
  cases value with
  | str content => exact Checked.valid.inj read ▸ fits
  | _ => contradiction

theorem yields_dictionary : Yields dictionary given fun fields => given (.obj fields) := by
  intro value found fits read
  cases value with
  | obj fields => exact Checked.valid.inj read ▸ fits
  | _ => contradiction

theorem yields_items (yields : Yields schema given holds) {values : List Json} (fit : ∀ value ∈ values, given value)
    {index : Nat} {found : List α} (read : items schema index values = .valid found) :
    ∀ item ∈ found, holds item := by
  induction values generalizing index found with
  | nil =>
    obtain rfl := Checked.valid.inj read
    simp
  | cons value rest ih =>
    obtain ⟨first, others⟩ := List.forall_mem_cons.mp fit
    obtain ⟨_, tail, head, later, rfl⟩ := Checked.seq_eq_valid.mp read
    obtain ⟨item, own, rfl⟩ := Checked.map_eq_valid.mp head
    exact List.forall_mem_cons.mpr ⟨yields value item first (Checked.under_eq_valid.mp own), ih others later⟩

theorem yields_list (yields : Yields schema given holds)
    (parts : ∀ values, whole (.arr values) → ∀ value ∈ values, given value) :
    Yields (list schema) whole fun found => ∀ item ∈ found, holds item := by
  intro value found fits read
  cases value with
  | arr values => exact yields_items yields (parts values fits) read
  | _ => contradiction

theorem yields_optional (yields : Yields schema given holds) :
    Yields (optional schema) given fun found => ∀ value ∈ found, holds value := by
  intro value found fits read
  unfold optional at read
  split at read
  · obtain rfl := Checked.valid.inj read
    simp
  · obtain ⟨inner, own, rfl⟩ := Checked.map_eq_valid.mp read
    intro other same
    exact Option.mem_some.mp same ▸ yields _ _ fits own

end Schema

namespace FieldName

variable {α : Type} {schema : Schema α} {given : Json → Prop} {holds : α → Prop} {name : FieldName} {fields : Fields}

theorem mem_of_get? {key : String} {value : Json} (found : fields.get? key = some value) :
    (key, value) ∈ fields := by
  obtain ⟨field, there, rfl⟩ := Option.map_eq_some_iff.mp found
  have same : field.1 = key := by simpa using List.find?_some there
  exact same ▸ List.mem_of_find?_eq_some there

theorem mem_of_find? {found : String × Json} (there : name.find? fields = some found) : found ∈ fields := by
  unfold find? at there
  split at there
  · rename_i value own
    exact Option.some.inj there ▸ mem_of_get? own
  · obtain ⟨value, second, rfl⟩ := Option.map_eq_some_iff.mp there
    exact mem_of_get? second

theorem optional?_eq_some {found : α} (read : name.optional? schema fields = .valid (some found)) :
    ∃ field, name.find? fields = some field ∧ schema field.2 = .valid found := by
  unfold optional? at read
  split at read
  · rename_i there
    obtain ⟨value, own, same⟩ := Checked.map_eq_valid.mp read
    exact ⟨_, there, Option.some.inj same ▸ Checked.under_eq_valid.mp own⟩
  · exact absurd (Checked.valid.inj read) (by simp)

variable (yields : schema.Yields given holds) (all : ∀ field ∈ fields, given field.2)
include yields all

theorem yields_required {found : α} (read : name.required schema fields = .valid found) : holds found := by
  unfold required at read
  split at read
  · rename_i there
    exact yields _ _ (all _ (mem_of_find? there)) (Checked.under_eq_valid.mp read)
  · contradiction

theorem yields_optional? {found : Option α} (read : name.optional? schema fields = .valid found) :
    ∀ value ∈ found, holds value := by
  rintro value same
  obtain ⟨field, there, own⟩ := optional?_eq_some (Option.mem_def.mp same ▸ read)
  exact yields _ _ (all field (mem_of_find? there)) own

theorem yields_orElse {fallback found : α} (fits : holds fallback)
    (read : name.orElse schema fallback fields = .valid found) : holds found := by
  obtain ⟨value, own, rfl⟩ := Checked.map_eq_valid.mp read
  cases value with
  | none => exact fits
  | some value => exact yields_optional? yields all own value rfl

theorem yields_orNull {found : Option α} (read : name.orNull schema fields = .valid found) :
    ∀ value ∈ found, holds value :=
  yields_orElse (Schema.yields_optional yields) all (by simp) read

end FieldName

/-! What passes from a body to the forms in it -/

/-- The texts and the data of the form have the property. -/
structure NodeForm.Has (holds : Json → Prop) (form : NodeForm) : Prop where
  id : holds (.str form.id)
  data : holds (.obj form.data)

structure EdgeForm.Has (holds : Json → Prop) (form : EdgeForm) : Prop where
  id : holds (.str form.id)
  source : holds (.str form.source)
  target : holds (.str form.target)
  sourceHandle : ∀ handle ∈ form.sourceHandle, holds (.str handle)
  targetHandle : ∀ handle ∈ form.targetHandle, holds (.str handle)

section Forms

variable {holds : Nat → Json → Prop} (down : Json.PassesDown holds) {level : Nat}
include down

theorem NodeForm.yields_schema (empty : holds level (.obj [])) :
    NodeForm.schema.Yields (holds (level + 1)) (NodeForm.Has (holds level)) := by
  intro value found fits read
  cases value with
  | obj fields =>
    have all := down.fields fits
    simp only [schema, Schema.record, Checked.seq_eq_valid, Checked.map_eq_valid] at read
    obtain ⟨_, data, ⟨_, position, ⟨_, kind, ⟨id, named, rfl⟩, _, rfl⟩, _, rfl⟩, own, rfl⟩ := read
    exact ⟨FieldName.yields_required Schema.yields_text all named,
      FieldName.yields_orElse Schema.yields_dictionary all empty own⟩
  | _ => contradiction

theorem EdgeForm.yields_schema : EdgeForm.schema.Yields (holds (level + 1)) (EdgeForm.Has (holds level)) := by
  intro value found fits read
  cases value with
  | obj fields =>
    have all := down.fields fits
    simp only [schema, Schema.record, Checked.seq_eq_valid, Checked.map_eq_valid] at read
    obtain ⟨_, _, ⟨_, _, ⟨_, _, ⟨_, _, ⟨_, id, rfl⟩, source, rfl⟩, target, rfl⟩, handle, rfl⟩, handle', rfl⟩ :=
      read
    exact ⟨FieldName.yields_required Schema.yields_text all id,
      FieldName.yields_required Schema.yields_text all source,
      FieldName.yields_required Schema.yields_text all target,
      FieldName.yields_orNull Schema.yields_text all handle,
      FieldName.yields_orNull Schema.yields_text all handle'⟩
  | _ => contradiction

theorem GraphForm.yields_nodesSchema (empty : holds level (.obj [])) : GraphForm.nodesSchema.Yields
    (holds (level + 2)) fun nodes => ∀ node ∈ nodes, node.Has (holds level) :=
  Schema.yields_list (NodeForm.yields_schema down empty) fun _ => down.items

theorem GraphForm.yields_edgesSchema : GraphForm.edgesSchema.Yields
    (holds (level + 2)) fun edges => ∀ edge ∈ edges, edge.Has (holds level) :=
  Schema.yields_list (EdgeForm.yields_schema down) fun _ => down.items

end Forms

/-- The texts and the forms of a new flow have the property, on the levels where they stand. -/
structure NewFlow.Has (holds : Nat → Json → Prop) (level : Nat) (flow : NewFlow) : Prop where
  name : holds (level + 2) (.str flow.name)
  description : ∀ text ∈ flow.description, holds (level + 2) (.str text)
  nodes : ∀ node ∈ flow.nodes, node.Has (holds level)
  edges : ∀ edge ∈ flow.edges, edge.Has (holds level)

structure FlowChange.Has (holds : Nat → Json → Prop) (level : Nat) (change : FlowChange) : Prop where
  name : ∀ name ∈ change.name, ∀ text ∈ name, holds (level + 2) (.str text)
  description : ∀ description ∈ change.description, ∀ text ∈ description, holds (level + 2) (.str text)
  nodes : ∀ nodes ∈ change.nodes, ∀ node ∈ nodes, node.Has (holds level)
  edges : ∀ edges ∈ change.edges, ∀ edge ∈ edges, edge.Has (holds level)

section Bodies

variable {holds : Nat → Json → Prop} (down : Json.PassesDown holds) {level : Nat} (empty : holds level (.obj []))
include down empty

theorem NewFlow.yields_read :
    (Schema.record NewFlow.read).Yields (holds (level + 3)) (NewFlow.Has holds level) := by
  intro value found fits accepted
  cases value with
  | obj fields =>
    have all := down.fields fits
    simp only [Schema.record, read, Checked.seq_eq_valid, Checked.map_eq_valid] at accepted
    obtain ⟨_, edges, ⟨_, nodes, ⟨_, description, ⟨name, named, rfl⟩, described, rfl⟩, own, rfl⟩, linked, rfl⟩ :=
      accepted
    exact ⟨FieldName.yields_required Schema.yields_text all named,
      FieldName.yields_orNull Schema.yields_text all described,
      FieldName.yields_orElse (GraphForm.yields_nodesSchema down empty) all (by simp) own,
      FieldName.yields_orElse (GraphForm.yields_edgesSchema down) all (by simp) linked⟩
  | _ => contradiction

theorem FlowChange.yields_read :
    (Schema.record FlowChange.read).Yields (holds (level + 3)) (FlowChange.Has holds level) := by
  intro value found fits accepted
  cases value with
  | obj fields =>
    have all := down.fields fits
    simp only [Schema.record, read, Checked.seq_eq_valid, Checked.map_eq_valid] at accepted
    obtain ⟨_, edges, ⟨_, nodes, ⟨_, description, ⟨name, named, rfl⟩, described, rfl⟩, own, rfl⟩, linked, rfl⟩ :=
      accepted
    exact ⟨FieldName.yields_optional? (Schema.yields_optional Schema.yields_text) all named,
      FieldName.yields_optional? (Schema.yields_optional Schema.yields_text) all described,
      FieldName.yields_orNull (GraphForm.yields_nodesSchema down empty) all own,
      FieldName.yields_orNull (GraphForm.yields_edgesSchema down) all linked⟩
  | _ => contradiction

end Bodies

/-! Requests -/

namespace Request

variable {framework : Framework} {α : Type} {request : Request} {schema : Schema α} {given : Json → Prop}
  {holds : α → Prop}

/-- The document in the body, if there is one, has the property. -/
def Bears (framework : Framework) (request : Request) (given : Json → Prop) : Prop :=
  ∀ content, request.document framework = .ok (some content) → given content

theorem bears_storable (framework : Framework) (request : Request) : request.Bears framework Json.Storable := by
  intro content read
  unfold document at read
  split at read
  · exact absurd (Except.ok.inj read) (by simp)
  · split at read
    · rename_i found text
      exact Option.some.inj (Except.ok.inj read) ▸ Json.storable_of_ofBytes text
    · contradiction
    · contradiction

/-- What the body of a request is read as has whatever property its schema yields. -/
theorem yields_read (yields : schema.Yields given holds) (bears : request.Bears framework given) {found : α}
    (accepted : request.read framework (checkBody schema) = .ok found) : holds found := by
  unfold read at accepted
  split at accepted
  · contradiction
  · rename_i content text
    split at accepted
    · rename_i value checked
      obtain rfl := Except.ok.inj accepted
      cases content with
      | none => contradiction
      | some content => exact yields _ _ (bears _ text) (Checked.under_eq_valid.mp checked)
    · contradiction

/-- What is read can be stored, since it was read from a text. -/
theorem storable_newFlow {flow : NewFlow}
    (accepted : request.read framework (checkBody (Schema.record NewFlow.read)) = .ok flow) :
    ∀ node ∈ flow.nodes, node.IsStorable := fun node member =>
  ((yields_read (@NewFlow.yields_read _ Json.passesDown_storable 0 (.obj (by simp) (by simp)))
    (bears_storable framework request) accepted).nodes node member).data

theorem storable_flowChange {change : FlowChange}
    (accepted : request.read framework (checkBody (Schema.record FlowChange.read)) = .ok change) :
    ∀ nodes ∈ change.nodes, ∀ node ∈ nodes, node.IsStorable := fun nodes given node member =>
  ((yields_read (@FlowChange.yields_read _ Json.passesDown_storable 0 (.obj (by simp) (by simp)))
    (bears_storable framework request) accepted).nodes nodes given node member).data

end Request

end OutreachFlow.Service
