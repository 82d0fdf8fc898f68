import OutreachFlow.Graph.Form
import OutreachFlow.Proofs.Graph.Lookup
import OutreachFlow.Proofs.Plan.WrittenForm

/-! The editor form of a graph is read back as that graph, if its ids are not empty and not shared.
Positions and handles may hold any values on the way. Whatever is read is such a graph, in whichever
shapes its nodes and edges were written. -/
namespace OutreachFlow

open Fields (valueOf)

theorem Check.ofJson_toFlat (check : Check) : ofJson check.toFlat = .ok check := by
  obtain ⟨condition, outcome, hours⟩ := check
  cases hours <;>
    simp [ofJson, toFlat, ofFields, words, readOutcome, hoursValue, readHours, valueOf,
      readWord_word, bind, Except.bind, pure, Except.pure]

theorem ActionStep.ofData_toFields (step : ActionStep) : ofData step.toFields = .ok step := by
  obtain ⟨action, provider, message⟩ := step
  cases message <;>
    simp [ofData, toFields, words, ofFields, readMessage, valueOf, readWord_word, bind, Except.bind,
      pure, Except.pure]

theorem Payload.ofData_toData (payload : Payload) : ofData payload.toData payload.kind = .ok payload := by
  cases payload with
  | action step => simp [toData, kind, ofData, ActionStep.ofData_toFields, Except.map]
  | condition => rfl
  | conditionCheck checks =>
    have read : (checks.map Check.toFlat).mapM Check.ofJson = .ok checks :=
      mapM_map_inverse fun check _ => Check.ofJson_toFlat check
    simp [toData, kind, ofData, valueOf, Check.listOfJson, read, Except.map]

theorem Position.ofJson_toJson (position : Position) : ofJson position.toJson = position := by
  simp [ofJson, toJson]

namespace Node

theorem dataOf?_toJson (node : Node) (fields : Fields)
    (written : fields.get? "data" = some (.obj node.payload.toData)) :
    dataOf? fields = some node.payload.toData := by
  rw [dataOf?, valueOf, written, Option.getD_some]
  cases found : node.payload.toData <;> simp [Json.isBlank, Json.asFields?]

theorem ofJson_toJson {node : Node} (named : node.id ≠ "") : ofJson node.toJson = .ok node := by
  have kind : Vocabulary.ofJson? (α := NodeKind) (.str node.kind.word) = some node.kind := by
    cases node.kind <;> decide
  have data := dataOf?_toJson node [("id", .str node.id), ("type", .str node.kind.word),
    ("position", node.position.toJson), ("data", .obj node.payload.toData)] (by simp)
  have payload : Payload.ofData node.payload.toData node.kind = .ok node.payload :=
    Payload.ofData_toData node.payload
  simp [ofJson, toJson, ofFields, idOf?, valueOf, named, kind, data, payload, Position.ofJson_toJson,
    Except.mapError, bind, Except.bind, pure, Except.pure]

/-- Whatever is read as a node has a name. -/
theorem named_of_ofJson {value : Json} {node : Node} (read : ofJson value = .ok node) : node.id ≠ "" := by
  cases value with
  | obj fields =>
    rw [ofJson, ofFields] at read
    cases named : idOf? fields with
    | none => simp [named] at read
    | some id =>
      simp only [named] at read
      split at read
      · split at read
        · obtain ⟨payload, _, built⟩ := bind_eq_ok.mp read
          obtain rfl := Except.ok.inj built
          exact idOf?_nonempty named
        · contradiction
      · contradiction
  | _ => contradiction

end Node

theorem Edge.ofJson_toJson (edge : Edge) : ofJson edge.toJson = .ok edge := by
  obtain ⟨id, source, target, sourceHandle, targetHandle⟩ := edge
  cases sourceHandle <;> cases targetHandle <;>
    simp [ofJson, toJson, ofFields, textOf, handleField, valueOf, bind, Except.bind, pure, Except.pure]

namespace Graph

/-- Reading stops at the first id that has come before, so what is read behind known nodes are all the
values, under new ids that are not shared. -/
theorem readNodes_eq_ok {known nodes : List Node} {values : List Json} :
    readNodes known values = .ok nodes ↔
      ∃ new, List.Forall₂ (fun value node => Node.ofJson value = .ok node) values new ∧
        (new.map Node.id).Nodup ∧ (∀ node ∈ new, node.id ∉ known.map Node.id) ∧ known ++ new = nodes := by
  induction values generalizing known with
  | nil => simp [readNodes]
  | cons value rest ih =>
    have fresh (node : Node) : (known.any fun other => other.id = node.id) = false ↔
        node.id ∉ known.map Node.id := by simp
    have behind (node : Node) (others : List Node) :
        (∀ other ∈ others, other.id ∉ (known ++ [node]).map Node.id) ↔
          node.id ∉ others.map Node.id ∧ ∀ other ∈ others, other.id ∉ known.map Node.id := by
      simp only [List.map_append, List.map_cons, List.map_nil, List.mem_append, List.mem_singleton,
        not_or, List.mem_map, not_exists, not_and, forall_and]
      exact and_comm
    simp only [readNodes, bind_eq_ok, mapError_eq_ok]
    constructor
    · rintro ⟨node, first, read⟩
      split at read
      · contradiction
      · rename_i new
        obtain ⟨others, each, distinct, apart, rfl⟩ := ih.mp read
        obtain ⟨own, apart⟩ := (behind node others).mp apart
        have free : node.id ∉ known.map Node.id := (fresh node).mp (by simpa using new)
        exact ⟨node :: others, .cons first each, List.nodup_cons.mpr ⟨own, distinct⟩,
          List.forall_mem_cons.mpr ⟨free, apart⟩, by simp⟩
    · rintro ⟨_, all, distinct, apart, rfl⟩
      obtain ⟨node, others, first, each, rfl⟩ := List.forall₂_cons_left_iff.mp all
      obtain ⟨own, distinct⟩ := List.nodup_cons.mp distinct
      obtain ⟨free, apart⟩ := List.forall_mem_cons.mp apart
      refine ⟨node, first, ?_⟩
      rw [(fresh node).mpr free]
      exact ih.mpr ⟨others, each, distinct, (behind node others).mpr ⟨own, apart⟩, by simp⟩

theorem readEdges_toJson (edges : List Edge) : readEdges (edges.map Edge.toJson) = .ok edges := by
  apply mapM_map_inverse
  intro edge _
  rw [Edge.ofJson_toJson]
  rfl

theorem ofLists_forms {graph : Graph} (unique : graph.UniqueIds)
    (named : ∀ node ∈ graph.nodes, node.id ≠ "") :
    ofLists graph.nodeForms graph.edgeForms = .ok graph := by
  have nodes : readNodes [] graph.nodeForms = .ok graph.nodes := by
    refine readNodes_eq_ok.mpr ⟨graph.nodes, ?_, unique, by simp, rfl⟩
    rw [nodeForms, List.forall₂_map_left_iff, List.forall₂_same]
    exact fun node member => Node.ofJson_toJson (named node member)
  have edges : readEdges graph.edgeForms = .ok graph.edges := readEdges_toJson graph.edges
  rw [ofLists, nodes, edges]
  rfl

/-- Whatever is read as a graph shares no id and has no empty one. -/
theorem wellNamed_of_ofLists {values edges : List Json} {graph : Graph}
    (read : ofLists values edges = .ok graph) :
    graph.UniqueIds ∧ ∀ node ∈ graph.nodes, node.id ≠ "" := by
  obtain ⟨all, readAll, linked⟩ := bind_eq_ok.mp read
  obtain ⟨_, _, built⟩ := bind_eq_ok.mp linked
  obtain rfl := Except.ok.inj built
  obtain ⟨new, each, distinct, _, rfl⟩ := readNodes_eq_ok.mp readAll
  have named : List.Forall₂ (fun node value => node.id ≠ "" ∧ Node.ofJson value = .ok node) new values :=
    (each.imp fun _ _ found => ⟨Node.named_of_ofJson found, found⟩).flip
  exact ⟨distinct, ((List.forall₂_and_left _ _).mp named).1⟩

/-- The editor form of the graph that an editor form is read as. -/
def rewritten (nodes edges : List Json) : Except GraphFault (List Json × List Json) :=
  (ofLists nodes edges).map fun graph => (graph.nodeForms, graph.edgeForms)

/-- A graph that was read, in whichever shapes its parts were written, is read again as the very same
graph once it has been written, so that writing it over and over settles at once. -/
theorem ofLists_written {nodes edges : List Json} {graph : Graph}
    (read : ofLists nodes edges = .ok graph) :
    ofLists graph.nodeForms graph.edgeForms = .ok graph ∧
      ∀ forms, rewritten nodes edges = .ok forms → rewritten forms.1 forms.2 = .ok forms := by
  obtain ⟨unique, named⟩ := wellNamed_of_ofLists read
  have again := ofLists_forms unique named
  refine ⟨again, ?_⟩
  intro forms written
  obtain ⟨_, same, rfl⟩ := map_eq_ok.mp written
  obtain rfl := Except.ok.inj (read.symm.trans same)
  rw [rewritten, again]
  rfl

/-- Nodes in older shapes: a list of actions, a waiting time in an extra value, data that is blank or
missing, a coordinate that is null and a position that is a text. -/
def looseNodes : List Json :=
  [.obj [("data", .obj [("actions", .arr [.obj [("action", .str "SEND_MESSAGE"), ("provider", .str "NOVA"),
        ("message", .str "hi")], .null]), ("action", .int 3)]),
      ("position", .obj [("x", .null), ("z", .int 1)]), ("type", .str "action"), ("id", .str "tell")],
    .obj [("id", .str "ask"), ("type", .str "condition"), ("data", .arr [])],
    .obj [("id", .str "late"), ("type", .str "condition_check"), ("position", .str "here"),
      ("data", .obj [("conditions", .arr [.obj [("condition", .str "HAS_TIME_PASSED"),
        ("conditionExtraValue", .obj [("timeInHours", .int 2)])]])])],
    .obj [("id", .str "open"), ("type", .str "condition_check")]]

/-- Parallel edges that lead nowhere, with handles that are no texts. -/
def looseEdges : List Json :=
  [.obj [("id", .str ""), ("source", .str "ask"), ("target", .str "gone"), ("sourceHandle", .bool false),
      ("targetHandle", .null)],
    .obj [("targetHandle", .arr [.int 0]), ("id", .str ""), ("source", .str "ask"), ("target", .str "gone"),
      ("label", .str "more")]]

theorem ofLists_written_loose :
    ∃ graph, ofLists looseNodes looseEdges = .ok graph ∧
      ofLists graph.nodeForms graph.edgeForms = .ok graph ∧
        ∀ forms, rewritten looseNodes looseEdges = .ok forms → rewritten forms.1 forms.2 = .ok forms := by
  have isRead : (ofLists looseNodes looseEdges).toOption.isSome := by decide +kernel
  obtain ⟨graph, found⟩ := Option.isSome_iff_exists.mp isRead
  have read := toOption_eq_some.mp found
  exact ⟨graph, read, ofLists_written read⟩

end Graph

end OutreachFlow
