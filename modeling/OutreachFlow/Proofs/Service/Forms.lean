import OutreachFlow.Proofs.Graph.EditorForm
import OutreachFlow.Proofs.Import.Grammar
import OutreachFlow.Proofs.Json.Storable
import OutreachFlow.Service.Form

/-! Forms of graphs as they are stored. A graph can be built from forms if their nodes can stand side by side,
whatever the edges are. -/
namespace OutreachFlow.Service

/-! Building -/

/-- A form of which a node can be made. -/
structure NodeForm.IsNode (form : NodeForm) : Prop where
  named : form.id ≠ ""
  fits : ∃ payload, Payload.ofData form.data form.kind = .ok payload

/-- Forms of the nodes of one graph. -/
structure GraphForm.AreNodes (forms : List NodeForm) : Prop where
  distinct : (forms.map NodeForm.id).Nodup
  each : ∀ form ∈ forms, form.IsNode

namespace NodeForm

variable {form : NodeForm} {node : Node}

theorem dataOf?_toJson (form : NodeForm) (fields : Fields)
    (written : fields.get? "data" = some (.obj form.data)) : Node.dataOf? fields = some form.data := by
  rw [Node.dataOf?, Fields.valueOf, written, Option.getD_some]
  cases form.data <;> rfl

theorem ofJson_toJson : Node.ofJson form.toJson = .ok node ↔ form.id ≠ "" ∧
    ∃ payload, Payload.ofData form.data form.kind = .ok payload ∧
      ⟨form.id, payload, Position.ofJson form.position.toJson⟩ = node := by
  have kind : Vocabulary.ofJson? (α := NodeKind) (.str form.kind.word) = some form.kind := by
    cases form.kind <;> decide
  have data := form.dataOf?_toJson [("id", .str form.id), ("type", .str form.kind.word),
    ("position", form.position.toJson), ("data", .obj form.data)] (by simp)
  by_cases named : form.id = ""
  · simp [Node.ofJson, toJson, Node.ofFields, Node.idOf?, Fields.valueOf, named]
  · have id : Node.idOf? [("id", .str form.id), ("type", .str form.kind.word),
        ("position", form.position.toJson), ("data", .obj form.data)] = some form.id := by
      simp [Node.idOf?, Fields.valueOf, named]
    simp [Node.ofJson, toJson, Node.ofFields, id, Fields.valueOf, kind, data, named, bind_eq_ok,
      mapError_eq_ok, pure, Except.pure]

/-- A form of which a node can be made is read as a node with its id. -/
theorem IsNode.exists_ofJson (isNode : form.IsNode) :
    ∃ node, Node.ofJson form.toJson = .ok node ∧ node.id = form.id := by
  obtain ⟨payload, fits⟩ := isNode.fits
  exact ⟨_, ofJson_toJson.mpr ⟨isNode.named, payload, fits, rfl⟩, rfl⟩

theorem isNode_of_ofJson (read : Node.ofJson form.toJson = .ok node) : form.IsNode ∧ node.id = form.id := by
  obtain ⟨named, payload, fits, rfl⟩ := ofJson_toJson.mp read
  exact ⟨⟨named, payload, fits⟩, rfl⟩

end NodeForm

theorem EdgeForm.exists_ofJson (form : EdgeForm) : ∃ edge, Edge.ofJson form.dump = .ok edge := by
  simp [Edge.ofJson, dump, ends, Edge.ofFields, Edge.textOf, Fields.valueOf, bind, Except.bind, pure, Except.pure]

namespace GraphForm

theorem exists_readEdges (forms : List EdgeForm) : ∃ edges, Graph.readEdges (edgeDumps forms) = .ok edges := by
  refine exists_mapM_ok.mpr fun value member => ?_
  obtain ⟨form, _, rfl⟩ := List.mem_map.mp member
  obtain ⟨edge, read⟩ := form.exists_ofJson
  exact ⟨edge, by rw [read]; rfl⟩

/-- Forms are read behind known nodes if each is a node, and no id comes twice. -/
theorem exists_readNodes {known : List Node} {forms : List NodeForm} :
    (∃ nodes, Graph.readNodes known (nodeDumps forms) = .ok nodes) ↔
      AreNodes forms ∧ ∀ form ∈ forms, form.id ∉ known.map Node.id := by
  have ids {new : List Node}
      (each : List.Forall₂ (fun form node => Node.ofJson (NodeForm.toJson form) = .ok node) forms new) :
      new.map Node.id = forms.map NodeForm.id := by
    induction each with
    | nil => rfl
    | cons read _ ih => rw [List.map_cons, List.map_cons, ih, (NodeForm.isNode_of_ofJson read).2]
  have behind {new : List Node} (same : new.map Node.id = forms.map NodeForm.id) :
      (∀ node ∈ new, node.id ∉ known.map Node.id) ↔ ∀ form ∈ forms, form.id ∉ known.map Node.id := by
    rw [← List.forall_mem_map (f := Node.id) (P := (· ∉ known.map Node.id)), same, List.forall_mem_map]
  simp only [Graph.readNodes_eq_ok, nodeDumps, List.forall₂_map_left_iff]
  constructor
  · rintro ⟨_, new, each, distinct, apart, rfl⟩
    have areNodes : List.Forall₂ (fun form node => form.IsNode ∧ Node.ofJson form.toJson = .ok node)
        forms new := each.imp fun _ _ read => ⟨(NodeForm.isNode_of_ofJson read).1, read⟩
    exact ⟨⟨ids each ▸ distinct, ((List.forall₂_and_left _ _).mp areNodes).1⟩, (behind (ids each)).mp apart⟩
  · rintro ⟨⟨distinct, areNodes⟩, apart⟩
    obtain ⟨new, each⟩ := exists_forall₂.mpr fun form member =>
      ((areNodes form member).exists_ofJson).imp fun _ read => read.1
    exact ⟨_, new, each, (ids each).symm ▸ distinct, (behind (ids each)).mpr apart, rfl⟩

/-- The two halves of a graph do not depend on each other. -/
theorem exists_ofLists {nodes : List NodeForm} {edges : List EdgeForm} :
    (∃ graph, Graph.ofLists (nodeDumps nodes) (edgeDumps edges) = .ok graph) ↔ AreNodes nodes := by
  have alone : (∃ read, Graph.readNodes [] (nodeDumps nodes) = .ok read) ↔ AreNodes nodes := by
    rw [exists_readNodes]
    simp
  rw [← alone]
  constructor
  · rintro ⟨graph, built⟩
    obtain ⟨read, first, _⟩ := bind_eq_ok.mp built
    exact ⟨read, first⟩
  · rintro ⟨read, first⟩
    obtain ⟨links, second⟩ := exists_readEdges edges
    exact ⟨_, bind_eq_ok.mpr ⟨read, first, bind_eq_ok.mpr ⟨links, second, rfl⟩⟩⟩

end GraphForm

/-- Lists can be walked, so only what they hold can be at fault. -/
theorem ofValues_arr (nodes edges : List Json) :
    Graph.ofValues (.arr nodes) (.arr edges) = (Graph.ofLists nodes edges).mapError .malformed := by
  unfold Graph.ofValues Graph.ofLists
  cases read : Graph.readNodes [] nodes with
  | error fault => simp [Json.elements?, read, Except.mapError, bind, Except.bind]
  | ok known =>
    cases linked : Graph.readEdges edges <;>
      simp [Json.elements?, read, linked, Except.mapError, bind, Except.bind, pure, Except.pure]

/-! Storing -/

namespace NodeForm

variable {form : NodeForm}

def IsStorable (form : NodeForm) : Prop := (Json.obj form.data).Storable

theorem IsStorable.toJson (storable : form.IsStorable) : form.toJson.Storable := by
  have double (value : Float) : (Json.double value).Storable := .num trivial
  have position : form.position.toJson.Storable :=
    .obj (by simp) (by simp [double])
  have data : (Json.obj form.data).Storable := storable
  exact .obj (by simp) (by simp [Json.Storable.str, position, data])

end NodeForm

namespace EdgeForm

theorem storable_dump (form : EdgeForm) : form.dump.Storable := by
  obtain ⟨id, source, target, sourceHandle, targetHandle⟩ := form
  cases sourceHandle <;> cases targetHandle <;>
    exact .obj (by simp [ends, Json.optional]) (by simp [ends, Json.optional, Json.Storable.str])

end EdgeForm

end OutreachFlow.Service
