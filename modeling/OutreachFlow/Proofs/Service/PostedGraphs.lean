import OutreachFlow.Proofs.Graph.EditorForm
import OutreachFlow.Proofs.Import.Grammar
import OutreachFlow.Service.Basic

/-! Graphs in requests. A graph whose coordinates are numbers and whose handles are texts can be
posted: the service reads its editor form as that graph, with doubles for coordinates. -/
namespace OutreachFlow

/-! Schemas on what fits them -/

namespace Service.Checked

@[simp]
theorem map_valid {α β : Type} (change : α → β) (value : α) :
    change <$> Checked.valid value = .valid (change value) := rfl

@[simp]
theorem seq_valid {α β : Type} (change : α → β) (value : α) :
    Checked.valid change <*> .valid value = .valid (change value) := rfl

@[simp]
theorem under_valid {α : Type} (step : Step) (value : α) :
    (Checked.valid value).under step = .valid value := rfl

end Service.Checked

namespace Service.Schema

theorem items_map {α β : Type} {schema : Schema β} {write : α → Json} {form : α → β} {items : List α}
    (fits : ∀ item ∈ items, schema (write item) = .valid (form item)) (index : Nat) :
    Schema.items schema index (items.map write) = .valid (items.map form) := by
  induction items generalizing index with
  | nil => rfl
  | cons item rest ih =>
    obtain ⟨first, others⟩ := List.forall_mem_cons.mp fits
    simp [Schema.items, first, ih others]

theorem list_map {α β : Type} {schema : Schema β} {write : α → Json} {form : α → β} {items : List α}
    (fits : ∀ item ∈ items, schema (write item) = .valid (form item)) :
    Schema.list schema (.arr (items.map write)) = .valid (items.map form) := items_map fits 0

/-- A number within range is read as the double that it counts as. -/
theorem double_of_number {value : Json} {number : Float}
    (counts : value.asNumber?.bind Number.toFloat? = some number) :
    Schema.double value = .valid number := by
  cases value with
  | str text => simp [Json.asNumber?] at counts
  | _ => simp [Schema.double, counts]

theorem optional_text {value : Json} (optional : value.IsOptionalText) :
    Schema.optional Schema.text value = .valid value.asString? := by
  rcases optional with rfl | ⟨text, rfl⟩ <;> rfl

end Service.Schema

/-! Forms -/

/-- The double that a coordinate counts as. -/
def Json.toDouble (value : Json) : Float := (value.asNumber?.bind Number.toFloat?).getD 0.0

namespace Position

def doubles (position : Position) : Position := ⟨.double position.x.toDouble, .double position.y.toDouble⟩

theorem schema_toJson {position : Position} (numeric : position.IsNumeric)
    (fits : position.FitsDoubles) :
    Service.Point.schema position.toJson = .valid ⟨position.x.toDouble, position.y.toDouble⟩ := by
  have counts (value : Json) (number : value.isNumeric = true)
      (range : ∀ integer, value = .int integer → (Number.floatOfInt? integer).isSome) :
      value.asNumber?.bind Number.toFloat? = some value.toDouble := by
    have some : (Layout.shifted? value 0.0).isSome := (Layout.shifted?_isSome number).mpr range
    rw [Layout.shifted?, Option.isSome_map] at some
    obtain ⟨double, found⟩ := Option.isSome_iff_exists.mp some
    rw [Json.toDouble, found]
    rfl
  have x := counts position.x numeric.1 fun integer same => fits integer (.inl same)
  have y := counts position.y numeric.2 fun integer same => fits integer (.inr same)
  simp [Service.Point.schema, Service.Schema.record, toJson, Service.FieldName.orElse,
    Service.FieldName.optional?, Service.FieldName.find?, Service.Schema.double_of_number x,
    Service.Schema.double_of_number y]

end Position

namespace Node

/-- A node as a request describes it. -/
def form (node : Node) : Service.NodeForm :=
  ⟨node.id, node.kind, ⟨node.position.x.toDouble, node.position.y.toDouble⟩, node.payload.toData⟩

theorem schema_toJson {node : Node} (numeric : node.position.IsNumeric)
    (fits : node.position.FitsDoubles) : Service.NodeForm.schema node.toJson = .valid node.form := by
  have kind : Service.NodeForm.kindSchema (.str node.kind.word) = .valid node.kind := by
    cases node.kind <;> rfl
  simp [Service.NodeForm.schema, Service.Schema.record, toJson, Service.FieldName.required,
    Service.FieldName.orElse, Service.FieldName.optional?, Service.FieldName.find?,
    Service.Schema.text, Service.Schema.dictionary, kind, Position.schema_toJson numeric fits, form]

end Node

namespace Edge

def form (edge : Edge) : Service.EdgeForm :=
  ⟨edge.id, edge.source, edge.target, edge.sourceHandle.asString?, edge.targetHandle.asString?⟩

theorem schema_toJson {edge : Edge} (source : edge.sourceHandle.IsOptionalText)
    (target : edge.targetHandle.IsOptionalText) :
    Service.EdgeForm.schema edge.toJson = .valid edge.form := by
  obtain ⟨id, from', to', sourceHandle, targetHandle⟩ := edge
  rcases source with rfl | ⟨left, rfl⟩ <;> rcases target with rfl | ⟨right, rfl⟩ <;>
    simp [Service.EdgeForm.schema, Service.Schema.record, toJson, handleField,
      Service.FieldName.required, Service.FieldName.orNull, Service.FieldName.orElse,
      Service.FieldName.optional?, Service.FieldName.find?, Service.Schema.text,
      Service.Schema.optional, Service.FieldName.sourceHandle, Service.FieldName.targetHandle, form,
      Json.asString?]

/-- What the service makes of the form is the edge again. -/
theorem dump_form {edge : Edge} (source : edge.sourceHandle.IsOptionalText)
    (target : edge.targetHandle.IsOptionalText) : edge.form.dump = edge.toJson := by
  obtain ⟨id, from', to', sourceHandle, targetHandle⟩ := edge
  rcases source with rfl | ⟨left, rfl⟩ <;> rcases target with rfl | ⟨right, rfl⟩ <;> rfl

end Edge

namespace Graph

/-- A graph that a request can describe. -/
structure Postable (graph : Graph) : Prop where
  unique : graph.UniqueIds
  named : ∀ node ∈ graph.nodes, node.id ≠ ""
  numeric : ∀ node ∈ graph.nodes, node.position.IsNumeric
  fits : ∀ node ∈ graph.nodes, node.position.FitsDoubles
  sourceHandles : ∀ edge ∈ graph.edges, edge.sourceHandle.IsOptionalText
  targetHandles : ∀ edge ∈ graph.edges, edge.targetHandle.IsOptionalText

/-- A graph without places and handles of its own can be described. -/
theorem postable_of_plain {graph : Graph} (unique : graph.UniqueIds) (named : ∀ node ∈ graph.nodes, node.id ≠ "")
    (unplaced : ∀ node ∈ graph.nodes, node.position = .origin)
    (plain : ∀ edge ∈ graph.edges, edge = .plain edge.id edge.source edge.target) : graph.Postable where
  unique := unique
  named := named
  numeric node member := unplaced node member ▸ Position.origin_numeric
  fits node member := unplaced node member ▸ Position.doubles_fit _ _
  sourceHandles edge member := by
    rw [plain edge member]
    exact .inl rfl
  targetHandles edge member := by
    rw [plain edge member]
    exact .inl rfl

/-- The graph with doubles for coordinates. -/
def doubles (graph : Graph) : Graph :=
  { graph with nodes := graph.nodes.map fun node => { node with position := node.position.doubles } }

def form (graph : Graph) : Service.GraphForm := ⟨graph.nodes.map Node.form, graph.edges.map Edge.form⟩

theorem nodesSchema_forms {graph : Graph} (postable : graph.Postable) :
    Service.GraphForm.nodesSchema (.arr graph.nodeForms) = .valid graph.form.nodes :=
  Service.Schema.list_map fun node member =>
    Node.schema_toJson (postable.numeric node member) (postable.fits node member)

theorem edgesSchema_forms {graph : Graph} (postable : graph.Postable) :
    Service.GraphForm.edgesSchema (.arr graph.edgeForms) = .valid graph.form.edges :=
  Service.Schema.list_map fun edge member =>
    Edge.schema_toJson (postable.sourceHandles edge member) (postable.targetHandles edge member)

/-- Whatever else a request holds, a graph is read from its editor form. -/
theorem read_forms {graph : Graph} {fields : Fields} (postable : graph.Postable)
    (nodes : fields.get? "nodes" = some (.arr graph.nodeForms))
    (edges : fields.get? "edges" = some (.arr graph.edgeForms)) :
    Service.GraphForm.read fields = .valid graph.form := by
  simp [Service.GraphForm.read, Service.FieldName.required, Service.FieldName.orElse,
    Service.FieldName.optional?, Service.FieldName.find?, nodes, edges, nodesSchema_forms postable,
    edgesSchema_forms postable, form]

theorem toGraph_form {graph : Graph} (postable : graph.Postable) :
    graph.form.toGraph = .ok graph.doubles := by
  have nodes : Service.GraphForm.nodeDumps graph.form.nodes = graph.doubles.nodeForms := by
    simp only [Service.GraphForm.nodeDumps, form, doubles, nodeForms, List.map_map]
    rfl
  have edges : Service.GraphForm.edgeDumps graph.form.edges = graph.doubles.edgeForms := by
    simp only [Service.GraphForm.edgeDumps, form, doubles, edgeForms, List.map_map]
    exact List.map_congr_left fun edge member =>
      Edge.dump_form (postable.sourceHandles edge member) (postable.targetHandles edge member)
  have unique : graph.doubles.UniqueIds := by
    have ids : graph.doubles.nodes.map Node.id = graph.nodes.map Node.id := by
      simp [doubles, Function.comp_def]
    rw [UniqueIds, ids]
    exact postable.unique
  have named : ∀ node ∈ graph.doubles.nodes, node.id ≠ "" := by
    intro node member
    obtain ⟨old, inside, rfl⟩ := List.mem_map.mp member
    exact postable.named old inside
  rw [Service.GraphForm.toGraph, nodes, edges]
  exact ofLists_forms unique named

end Graph

end OutreachFlow
