import OutreachFlow.Proofs.Graph.EditorForm
import OutreachFlow.Proofs.Import.Grammar

/-! Which lists are the editor form of a graph. The grammar says so of the lists alone: whatever else their items
hold, positions and handles included, is free. A graph is read exactly from such lists, and where there is
none, one of the items is at fault. -/
namespace OutreachFlow

open Fields (valueOf)

/-! The grammar -/

namespace Fields

/-- The data of a node of some kind. Conditions hold nothing, so anything will do. -/
def IsDataOf (data : Fields) : NodeKind → Prop
  | .action => data.IsActionData
  | .condition => True
  | .conditionCheck => (data.valueOf "conditions").IsOptionalList IsCheck

/-- The data object of a node; whatever is blank stands for an empty one. -/
def HasData (node data : Fields) : Prop :=
  node.valueOf "data" = .obj data ∨ (node.valueOf "data").isBlank ∧ data = []

/-- A node: an id that is not empty, the word of a kind, and data of that kind. -/
def IsEditorNode (node : Fields) : Prop :=
  (∃ id, id ≠ "" ∧ node.valueOf "id" = .str id) ∧
    ∃ kind : NodeKind, node.valueOf "type" = .str kind.word ∧ ∃ data, node.HasData data ∧ data.IsDataOf kind

/-- An edge. Its own id and its ends are texts, and nothing need stand at the ends. -/
structure IsEditorEdge (edge : Fields) : Prop where
  id : ∃ text, edge.valueOf "id" = .str text
  source : ∃ text, edge.valueOf "source" = .str text
  target : ∃ text, edge.valueOf "target" = .str text

end Fields

instance : LawfulVocabulary NodeKind := ⟨fun member => by cases member <;> decide⟩

theorem exists_map_ok {ε α β : Type} {part : Except ε α} {change : α → β} :
    (∃ result, part.map change = .ok result) ↔ ∃ value, part = .ok value := by
  cases part <;> simp [Except.map]

theorem Payload.exists_ofData {data : Fields} {kind : NodeKind} :
    (∃ payload, ofData data kind = .ok payload) ↔ data.IsDataOf kind := by
  cases kind with
  | action => simp only [ofData, exists_map_ok, ActionStep.exists_ofData, Fields.IsDataOf]
  | condition => simp [ofData, Fields.IsDataOf]
  | conditionCheck => simp only [ofData, exists_map_ok, Check.exists_listOfJson, Fields.IsDataOf]

namespace Node

variable {fields data : Fields} {value : Json} {node : Node}

theorem dataOf?_eq_some : dataOf? fields = some data ↔ fields.HasData data := by
  unfold dataOf? Fields.HasData
  cases fields.valueOf "data" with
  | obj own => cases own <;> simp [Json.isBlank, Json.asFields?, eq_comm]
  | _ => simp only [Json.asFields?, reduceCtorEq, false_or]; grind

/-- What is read is there, one part after the other. -/
theorem ofFields_eq_ok : ofFields fields = .ok node ↔
    ∃ id kind data payload, idOf? fields = some id ∧
      Vocabulary.ofJson? (fields.valueOf "type") = some kind ∧ dataOf? fields = some data ∧
        Payload.ofData data kind = .ok payload ∧
          ⟨id, payload, Position.ofJson (fields.valueOf "position")⟩ = node := by
  cases named : idOf? fields with
  | none => simp [ofFields, named]
  | some id =>
    cases typed : Vocabulary.ofJson? (α := NodeKind) (fields.valueOf "type") with
    | none => simp [ofFields, named, typed]
    | some kind =>
      cases has : dataOf? fields <;>
        simp [ofFields, named, typed, has, bind_eq_ok, mapError_eq_ok, pure, Except.pure]

theorem exists_ofFields : (∃ node, ofFields fields = .ok node) ↔ fields.IsEditorNode := by
  simp only [ofFields_eq_ok, idOf?_eq_some, Vocabulary.ofJson?_eq_some, dataOf?_eq_some, Fields.IsEditorNode,
    ← Payload.exists_ofData]
  constructor
  · rintro ⟨_, id, kind, data, payload, named, typed, has, fits, _⟩
    exact ⟨⟨id, named⟩, kind, typed, data, has, payload, fits⟩
  · rintro ⟨⟨id, named⟩, kind, typed, data, has, payload, fits⟩
    exact ⟨_, id, kind, data, payload, named, typed, has, fits, rfl⟩

theorem exists_ofJson : (∃ node, ofJson value = .ok node) ↔ value.IsObject Fields.IsEditorNode := by
  cases value with
  | obj fields => simp [ofJson, exists_ofFields, Json.IsObject]
  | _ => simp [ofJson, Json.IsObject]

/-- A node that is read keeps its id. -/
theorem id_of_ofJson (read : ofJson value = .ok node) :
    ∃ fields : Fields, value = .obj fields ∧ fields.valueOf "id" = .str node.id := by
  cases value with
  | obj fields =>
    obtain ⟨id, _, _, _, named, _, _, _, rfl⟩ := ofFields_eq_ok.mp read
    exact ⟨fields, rfl, (idOf?_eq_some.mp named).2⟩
  | _ => contradiction

end Node

namespace Edge

variable {fields : Fields} {value : Json}

theorem exists_textOf {key : String} :
    (∃ text, textOf fields key = .ok text) ↔ ∃ text, fields.valueOf key = .str text := by
  unfold textOf
  cases fields.valueOf key <;> simp

theorem exists_ofJson : (∃ edge, ofJson value = .ok edge) ↔ value.IsObject Fields.IsEditorEdge := by
  cases value with
  | obj fields =>
    simp only [ofJson, ofFields, bind_eq_ok, pure, Except.pure, Except.ok.injEq, Json.IsObject,
      Json.obj.injEq, exists_eq_left']
    constructor
    · rintro ⟨_, id, readId, source, readSource, target, readTarget, _⟩
      exact ⟨exists_textOf.mp ⟨id, readId⟩, exists_textOf.mp ⟨source, readSource⟩,
        exists_textOf.mp ⟨target, readTarget⟩⟩
    · rintro ⟨named, starts, ends⟩
      obtain ⟨id, readId⟩ := exists_textOf.mpr named
      obtain ⟨source, readSource⟩ := exists_textOf.mpr starts
      obtain ⟨target, readTarget⟩ := exists_textOf.mpr ends
      exact ⟨_, id, readId, source, readSource, target, readTarget, rfl⟩
  | _ => simp [ofJson, Json.IsObject]

end Edge

namespace Graph

variable {nodes edges : List Json}

theorem idFields_of_read {new : List Node}
    (each : List.Forall₂ (fun value node => Node.ofJson value = .ok node) nodes new) :
    (nodes.filterMap Json.asFields?).map (valueOf · "id") = (new.map Node.id).map Json.str := by
  induction each with
  | nil => rfl
  | cons read _ ih =>
    obtain ⟨fields, rfl, named⟩ := Node.id_of_ofJson read
    have own : (Json.obj fields).asFields? = some fields := rfl
    rw [List.filterMap_cons_some own, List.map_cons, ih, named, List.map_cons, List.map_cons]

theorem exists_readNodes : (∃ all, readNodes [] nodes = .ok all) ↔
    (∀ value ∈ nodes, value.IsObject Fields.IsEditorNode) ∧
      ((nodes.filterMap Json.asFields?).map (valueOf · "id")).Nodup := by
  have apart {new : List Node}
      (each : List.Forall₂ (fun value node => Node.ofJson value = .ok node) nodes new) :
      ((nodes.filterMap Json.asFields?).map (valueOf · "id")).Nodup ↔ (new.map Node.id).Nodup := by
    rw [idFields_of_read each, List.nodup_map_iff fun _ _ => Json.str.inj]
  simp only [readNodes_eq_ok, ← Node.exists_ofJson, ← exists_forall₂]
  constructor
  · rintro ⟨_, new, each, distinct, _⟩
    exact ⟨⟨new, each⟩, (apart each).mpr distinct⟩
  · rintro ⟨⟨new, each⟩, distinct⟩
    exact ⟨_, new, each, (apart each).mp distinct, by simp, rfl⟩

theorem exists_readEdges :
    (∃ all, readEdges edges = .ok all) ↔ ∀ value ∈ edges, value.IsObject Fields.IsEditorEdge := by
  simp only [readEdges, exists_mapM_ok, mapError_eq_ok, Edge.exists_ofJson]

end Graph

end OutreachFlow
