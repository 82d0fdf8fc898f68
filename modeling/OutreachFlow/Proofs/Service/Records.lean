import OutreachFlow.Proofs.Json.Printed
import OutreachFlow.Proofs.Service.PostedGraphs
import OutreachFlow.Proofs.Service.SavedFlows

/-! Records that are answered. The record of a saved flow with a name fits the schema of answers, and one without a
name does not. Where nothing happens to the parts of a body, nothing happens to the record that is made of them, nor
to the answer that is made of the record. -/
namespace OutreachFlow

open Service

namespace Service

theorem Point.schema_toJson (point : Point) : Point.schema point.toJson = .valid point := by
  have double (value : Float) : Schema.double (.double value) = .valid value := rfl
  simp [schema, Schema.record, toJson, FieldName.orElse, FieldName.optional?, FieldName.find?, double]

theorem NodeForm.schema_toJson (form : NodeForm) : NodeForm.schema form.toJson = .valid form := by
  have kind : kindSchema (.str form.kind.word) = .valid form.kind := by
    cases form.kind <;> rfl
  simp [schema, Schema.record, toJson, FieldName.required, FieldName.orElse, FieldName.optional?,
    FieldName.find?, Schema.text, Schema.dictionary, kind, Point.schema_toJson]

theorem EdgeForm.schema_dump (form : EdgeForm) : EdgeForm.schema form.dump = .valid form := by
  obtain ⟨id, source, target, sourceHandle, targetHandle⟩ := form
  cases sourceHandle <;> cases targetHandle <;>
    simp [schema, Schema.record, dump, ends, Json.optional, FieldName.required, FieldName.orNull,
      FieldName.orElse, FieldName.optional?, FieldName.find?, Schema.text, Schema.optional,
      FieldName.sourceHandle, FieldName.targetHandle]

/-! Proper parts -/

variable {level : Nat}

/-- Both coordinates are finite. -/
def Point.IsFinite (point : Point) : Prop := point.toJson.hasNonFinite = false

instance (point : Point) : Decidable point.IsFinite := inferInstanceAs (Decidable (_ = _))

theorem Point.isProper_toJson {point : Point} (finite : point.IsFinite) : point.toJson.IsProper 1 where
  finite := finite
  whole := by
    have names : Text.hasStandIn "x" = false ∧ Text.hasStandIn "y" = false := by decide +kernel
    simp [toJson, Json.hasStandIn, Json.fieldsHaveStandIn, Json.double, names]
  flat := Nat.le_refl 1

theorem NodeForm.isProper_toJson {form : NodeForm} (has : form.Has fun value => value.IsProper (level + 1))
    (place : form.position.IsFinite) : form.toJson.IsProper (level + 2) := by
  have word : Text.hasStandIn form.kind.word = false := by
    cases form.kind <;> decide +kernel
  rw [toJson, Json.isProper_obj]
  simp only [List.forall_mem_cons]
  exact ⟨⟨by decide +kernel, has.id⟩, ⟨by decide +kernel, Json.isProper_str.mpr word⟩,
    ⟨by decide +kernel, (Point.isProper_toJson place).mono (Nat.le_add_left 1 level)⟩, ⟨by decide +kernel, has.data⟩, by simp⟩

theorem textOrNull_isProper {text : Option String} (whole : ∀ content ∈ text, (Json.str content).IsProper level) :
    (textOrNull text).IsProper level := by
  cases text with
  | none => exact Json.isProper_null
  | some content => exact whole content rfl

namespace EdgeForm

variable {form : EdgeForm}

theorem isProper_dump : form.dump.IsProper (level + 1) ↔ form.Has fun value => value.IsProper level := by
  have handles : Text.hasStandIn "sourceHandle" = false ∧ Text.hasStandIn "targetHandle" = false := by
    decide +kernel
  have names : Text.hasStandIn "id" = false ∧ Text.hasStandIn "source" = false ∧
      Text.hasStandIn "target" = false := by
    decide +kernel
  obtain ⟨id, source, target, sourceHandle, targetHandle⟩ := form
  rw [dump, Json.isProper_obj]
  constructor
  · intro all
    simp only [ends, List.forall_mem_append, List.forall_mem_cons] at all
    obtain ⟨⟨⟨id, source, target, _⟩, first⟩, second⟩ := all
    refine ⟨id.2, source.2, target.2, ?_, ?_⟩
    · rintro handle rfl
      exact (first _ (List.mem_singleton.mpr rfl)).2
    · rintro handle rfl
      exact (second _ (List.mem_singleton.mpr rfl)).2
  · rintro ⟨id, source, target, first, second⟩
    simp only [ends, List.forall_mem_append, List.forall_mem_cons]
    refine ⟨⟨⟨⟨names.1, id⟩, ⟨names.2.1, source⟩, ⟨names.2.2, target⟩, by simp⟩, ?_⟩, ?_⟩
    · cases sourceHandle with
      | none => simp [Json.optional]
      | some handle => exact List.forall_mem_singleton.mpr ⟨handles.1, first handle rfl⟩
    · cases targetHandle with
      | none => simp [Json.optional]
      | some handle => exact List.forall_mem_singleton.mpr ⟨handles.2, second handle rfl⟩

theorem isProper_toJson (has : form.Has fun value => value.IsProper level) : form.toJson.IsProper (level + 1) := by
  simp only [toJson, ends, Json.isProper_obj, List.forall_mem_append, List.forall_mem_cons]
  exact ⟨⟨⟨by decide +kernel, has.id⟩, ⟨by decide +kernel, has.source⟩, ⟨by decide +kernel, has.target⟩, by simp⟩,
    ⟨by decide +kernel, textOrNull_isProper has.sourceHandle⟩,
    ⟨by decide +kernel, textOrNull_isProper has.targetHandle⟩, by simp⟩

end EdgeForm

end Service

namespace SavedFlow

variable {flow : SavedFlow} {id : String} {level : Nat}

/-- A record is proper if its parts are. -/
theorem isProper_record : (flow.record id).IsProper (level + 1) ↔
    Text.hasStandIn id = false ∧ flow.name.IsProper level ∧ flow.description.IsProper level ∧
      flow.nodes.IsProper level ∧ flow.edges.IsProper level ∧ Text.hasStandIn flow.createdAt = false ∧
        Text.hasStandIn flow.updatedAt = false := by
  have keys : ∀ key ∈ ["id", "name", "description", "nodes", "edges", "createdAt", "updatedAt"],
      Text.hasStandIn key = false := by
    decide +kernel
  simp only [List.forall_mem_cons] at keys
  simp only [record, fields, Json.isProper_obj, List.forall_mem_cons, Json.isProper_str, keys, true_and]
  simp

/-- The record of a flow with a name is answered. -/
theorem IsSound.exists_record (sound : flow.IsSound) {name : String} (named : flow.name = .str name)
    (proper : (flow.record id).IsProper (level + 4)) :
    ∃ record, FlowRecord.schema (flow.record id) = .valid record ∧ record.toJson.IsProper (level + 4) := by
  obtain ⟨nodes, sameNodes, _⟩ := sound.nodes
  obtain ⟨edges, sameEdges⟩ := sound.edges
  have nodesRead : GraphForm.nodesSchema (.arr (GraphForm.nodeDumps nodes)) = .valid (nodes.map fun form => form) :=
    Schema.list_map fun form _ => form.schema_toJson
  have edgesRead : GraphForm.edgesSchema (.arr (GraphForm.edgeDumps edges)) = .valid (edges.map fun form => form) :=
    Schema.list_map fun form _ => form.schema_dump
  have described := Schema.optional_text sound.description
  have read : FlowRecord.schema (flow.record id) = .valid ⟨id, name, flow.description.asString?, nodes, edges,
      flow.createdAt, flow.updatedAt⟩ := by
    simp [FlowRecord.schema, Schema.record, SavedFlow.record, fields, FieldName.required, FieldName.orNull,
      FieldName.orElse, FieldName.optional?, FieldName.find?, Schema.text, FieldName.createdAt, FieldName.updatedAt,
      named, described, sameNodes, sameEdges, nodesRead, edgesRead]
  refine ⟨_, read, ?_⟩
  obtain ⟨own, nameProper, descriptionProper, nodesProper, edgesProper, created, updated⟩ := isProper_record.mp proper
  have description : textOrNull flow.description.asString? = flow.description := by
    rcases sound.description with same | ⟨text, same⟩ <;> rw [same] <;> rfl
  have edgesSent : (Json.arr (edges.map EdgeForm.toJson)).IsProper (level + 3) := by
    rw [sameEdges, GraphForm.edgeDumps, Json.isProper_arr, List.forall_mem_map] at edgesProper
    rw [Json.isProper_arr, List.forall_mem_map]
    exact fun form member => EdgeForm.isProper_toJson (EdgeForm.isProper_dump.mp (edgesProper form member))
  rw [named] at nameProper
  rw [sameNodes] at nodesProper
  simp only [FlowRecord.toJson, Json.isProper_obj, List.forall_mem_cons, description]
  exact ⟨⟨by decide +kernel, Json.isProper_str.mpr own⟩, ⟨by decide +kernel, nameProper⟩,
    ⟨by decide +kernel, descriptionProper⟩, ⟨by decide +kernel, nodesProper⟩, ⟨by decide +kernel, edgesSent⟩,
    ⟨by decide +kernel, Json.isProper_str.mpr created⟩, ⟨by decide +kernel, Json.isProper_str.mpr updated⟩, by simp⟩

/-- Only a record with a name is answered. -/
theorem named_of_record {record : FlowRecord} (answered : FlowRecord.schema (flow.record id) = .valid record) :
    ∃ name, flow.name = .str name := by
  simp only [FlowRecord.schema, Schema.record, SavedFlow.record, Checked.seq_eq_valid,
    Checked.map_eq_valid] at answered
  obtain ⟨_, _, ⟨_, _, ⟨_, _, ⟨_, _, ⟨_, _, ⟨_, name, _, own, _⟩, _⟩, _⟩, _⟩, _⟩, _⟩ := answered
  simp only [FieldName.required, FieldName.find?, fields, Fields.get?_cons] at own
  cases named : flow.name with
  | str name => exact ⟨name, rfl⟩
  | _ => simp [named, Checked.under_eq_valid, Schema.text, Checked.refuse] at own

end SavedFlow

end OutreachFlow
