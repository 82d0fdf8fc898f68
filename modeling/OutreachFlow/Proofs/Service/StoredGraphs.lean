import OutreachFlow.Proofs.Service.SavedFlows

/-! Stored graphs can always be built. A record is saved only with nodes and edges of which a graph was built
before, and neither writing and reading it nor changing the other half of it takes that away. -/
namespace OutreachFlow

open Service

namespace Service

/-- A record with these two halves. -/
def HasHalves (record : Fields) (nodes edges : Json) : Prop :=
  record.get? "nodes" = some nodes ∧ record.get? "edges" = some edges

/-- What becomes of a request to change the flow of an id, by which it would have this record with these two halves.
If a graph can be built of them, the record takes the place of the old one, whether or not it can be sent then. -/
inductive Judged (framework : Framework) (store : Store) (request : Request) (id : String) (changed : Fields)
    (nodes edges : Json) : Prop where
  | refused {fault : GraphFault} (broken : Graph.ofValues nodes edges = .error (.malformed fault))
      (unchanged : (serve framework store request).1 = store)
      (answer : (serve framework store request).2 = framework.deliver (refuseGraph framework.messageDepth fault))
  | accepted {graph : Graph} {place : Location} (builds : Graph.ofValues nodes edges = .ok graph)
      (located : store.directory.locate (Store.path id) = .ok place)
      (saved : (serve framework store request).1.directory =
        store.directory.put place (.file (Json.obj changed).pretty))
      (answer : (serve framework store request).2 = framework.deliver (answerRecord 200 (.obj changed)))
  | tooDeep {graph : Graph} (builds : Graph.ofValues nodes edges = .ok graph)
      (deep : store.limits.writing < (Json.obj changed).depth)
      (unchanged : (serve framework store request).1.directory = store.directory)
      (answer : (serve framework store request).2 = .failure)

/-- Every file can be read as a record, and a graph can be built of its nodes and edges. -/
def GraphsLoad (limit : Nat) (directory : Directory) : Prop :=
  ∀ entry ∈ directory.items, ∃ (text : String) (record : Fields) (nodes edges : Json) (graph : Graph),
    entry.2 = .file text ∧ Store.readText limit text = .ok (.obj record) ∧ HasHalves record nodes edges ∧
      Graph.ofValues nodes edges = .ok graph

theorem hasHalves_fields (flow : SavedFlow) (id : String) : HasHalves (flow.fields id) flow.nodes flow.edges :=
  ⟨by simp [SavedFlow.fields], by simp [SavedFlow.fields]⟩

theorem graphsLoad_of_holdsFlows {fits : Location → String → Prop} {depth limit : Nat} {directory : Directory}
    (roomy : depth ≤ limit) (holds : directory.HoldsFlows fits depth) : GraphsLoad limit directory := by
  intro entry member
  obtain ⟨flow, id, sound, flat, _, same⟩ := holds entry member
  obtain ⟨graph, builds⟩ := sound.builds
  exact ⟨_, flow.fields id, flow.nodes, flow.edges, graph, same,
    sound.readText (flat.trans roomy), hasHalves_fields _ _, builds⟩

/-! Changes -/

variable {framework : Framework} {store : Store} {request : Request} {id key : String} {flow : SavedFlow}
  {change : FlowChange} {graph : Graph}

/-- A flow that is found in its own file is written over there. -/
theorem write_found {place : Location} {value : Json} (found : store.get? id = .ok (some value))
    (located : store.directory.locate (Store.path id) = .ok place) (own : Store.InOwnFile place key) (text : String) :
    store.directory.write (Store.path key) text = .ok (store.directory.put place (.file text)) := by
  obtain ⟨other, content, there, _⟩ := Store.exists_text_of_get? found
  obtain rfl : other = place := Except.ok.inj ((Store.locate_of_file? there).symm.trans located)
  have file := (Directory.item?_of_id there).1
  have again := Store.locate_path own.1 store.directory
  rw [← own.2] at again
  exact Directory.write_eq_ok.mpr ⟨other, again, by simp [file], by simp [file], rfl⟩

/-- A change after which the graph can be built is carried out, as far as it can be written. -/
theorem judged_of_builds {place : Location} (changes : request.ChangesFlow framework store id change (flow.fields key))
    (located : store.directory.locate (Store.path id) = .ok place) (own : Store.InOwnFile place key)
    (builds : Graph.ofValues (flow.change change.toFields store.clock.next).nodes
      (flow.change change.toFields store.clock.next).edges = .ok graph) :
    Judged framework store request id ((flow.change change.toFields store.clock.next).fields key)
      (flow.change change.toFields store.clock.next).nodes (flow.change change.toFields store.clock.next).edges := by
  have found : store.get? id = .ok (some (flow.record key)) := changes.found
  have served := serve_changeFlow changes
  rw [changeFlow_record found, builds] at served
  simp only [saveChanges_record found, Store.write] at served
  by_cases deep : store.limits.writing < ((flow.change change.toFields store.clock.next).record key).depth
  · rw [if_pos deep] at served
    refine .tooDeep builds deep ?_ ?_ <;> rw [served]
    rfl
  · rw [if_neg deep] at served
    simp only [write_found found located own] at served
    refine .accepted builds located ?_ ?_ <;> rw [served] <;> rfl

theorem judged_of_broken {fault : GraphFault}
    (changes : request.ChangesFlow framework store id change (flow.fields key))
    (broken : Graph.ofValues (flow.change change.toFields store.clock.next).nodes
      (flow.change change.toFields store.clock.next).edges = .error (.malformed fault)) :
    Judged framework store request id ((flow.change change.toFields store.clock.next).fields key)
      (flow.change change.toFields store.clock.next).nodes (flow.change change.toFields store.clock.next).edges := by
  have found : store.get? id = .ok (some (flow.record key)) := changes.found
  have served := serve_changeFlow changes
  rw [changeFlow_record found, broken] at served
  refine .refused broken ?_ ?_ <;> rw [served]

/-- A change to a flow that lies in its own file is judged by the graph that the flow would have. -/
theorem judged_of_changes {limit : Nat} {record : Fields}
    (holds : store.directory.HoldsFlows Store.InOwnFile limit) (roomy : limit ≤ store.limits.reading)
    (changes : request.ChangesFlow framework store id change record) :
    ∃ nodes edges, HasHalves record nodes edges ∧
      HasHalves (Store.changedRecord record change.toFields store.clock.next) (change.nodesOr nodes)
        (change.edgesOr edges) ∧
      Judged framework store request id (Store.changedRecord record change.toFields store.clock.next)
        (change.nodesOr nodes) (change.edgesOr edges) := by
  obtain ⟨flow, key, place, sound, _, same, located, own⟩ := Store.exists_flow_of_get? holds roomy changes.found
  obtain rfl := Json.obj.inj same
  rw [SavedFlow.changedRecord_fields]
  refine ⟨flow.nodes, flow.edges, hasHalves_fields flow key, ?_⟩
  rw [← change.change_nodes flow store.clock.next, ← change.change_edges flow store.clock.next]
  refine ⟨hasHalves_fields _ key, ?_⟩
  rcases sound.ofValues_change (Request.storable_flowChange changes.read) store.clock.next with
    ⟨graph, builds⟩ | ⟨fault, broken⟩
  · exact judged_of_builds changes located own builds
  · exact judged_of_broken changes broken

/-- Whatever requests are made of a service that starts without files and can read what it writes, the graph of
every record that is stored can be built. Where ids are plain names, a change to a flow is judged by the graph that
the flow would have. -/
theorem stored_graphs_load {framework : Framework} {limits : Limits} {ids clock : Supply} {requests : List Request}
    {store : Store} (roomy : limits.writing ≤ limits.reading)
    (reached : store = serveAll framework ⟨.empty, ids, clock, limits⟩ requests) :
    GraphsLoad limits.reading store.directory ∧
      ((∀ count, Store.IsPlain (ids.text count)) →
        ∀ request id change record, request.ChangesFlow framework store id change record →
          ∃ nodes edges, HasHalves record nodes edges ∧
            HasHalves (Store.changedRecord record change.toFields store.clock.next) (change.nodesOr nodes)
              (change.edgesOr edges) ∧
            Judged framework store request id (Store.changedRecord record change.toFields store.clock.next)
              (change.nodesOr nodes) (change.edgesOr edges)) := by
  subst reached
  have anywhere : (serveAll framework ⟨.empty, ids, clock, limits⟩ requests).directory.HoldsFlows (fun _ _ => True)
      limits.writing := serveAll_holdsFlows (Store.placing_anywhere _) roomy Directory.holdsFlows_empty
  refine ⟨graphsLoad_of_holdsFlows roomy anywhere, fun plain request id change record changes => ?_⟩
  have holds : (serveAll framework ⟨.empty, ids, clock, limits⟩ requests).directory.HoldsFlows Store.InOwnFile
      limits.writing := serveAll_holdsFlows (Store.placing_inOwnFile plain) roomy Directory.holdsFlows_empty
  refine judged_of_changes holds ?_ changes
  rw [(sameSources_serveAll _ _ _).limits]
  exact roomy

/-! Changes that send nodes only -/

/-- A store with a new flow, which has no nodes. -/
def storeWithFlow : Store := serveAll .usual ⟨.empty, Store.plainIds, Store.sampleClock, Store.sampleLimits⟩
  [.ofTexts "post" "/api/flows" (Json.obj [("name", .str "Welcome")]).compact]

/-- A change that sends one node of this id. -/
def nodeRequest (id : String) : Request := .ofTexts "put" "/api/flows/welcome"
  (Json.obj [("nodes", .arr [.obj [("id", .str id), ("type", .str "condition")]])]).compact

/-- What the node is saved as. -/
def nodeOfRequest (id : String) : Json :=
  .obj [("id", .str id), ("type", .str "condition"), ("position", .obj [("x", .double 0.0), ("y", .double 0.0)]),
    ("data", .obj [])]

theorem nodeRequest_changes {id : String} {form : NodeForm}
    (read : ((nodeRequest id).read .usual (checkBody (Schema.record FlowChange.read))).toOption =
      some ⟨none, none, some [form], none⟩) :
    ∃ record, (nodeRequest id).ChangesFlow .usual storeWithFlow "welcome" ⟨none, none, some [form], none⟩ record ∧
      HasHalves record (.arr []) (.arr []) := by
  have asks : (nodeRequest id).AsksFor (.changeFlow "welcome") := by
    refine destination_eq_endpoint.mpr ?_
    show endpoint? (String.ofList ("put".toList.map Char.toUpper)) (Target.ofText "/api/flows/welcome").path = _
    decide +kernel
  have found : (storeWithFlow.get? "welcome").toOption.join = some (.obj (Store.newRecord "welcome" "day 0"
      (.str "Welcome") .null (.arr []) (.arr []))) := by
    decide +kernel
  exact ⟨_, ⟨asks, toOption_eq_some.mp read, toOption_eq_some.mp (Option.join_eq_some_iff.mp found)⟩, rfl, rfl⟩

/-- No graph has a node without a name. -/
theorem nodeOfRequest_nameless (graph : Graph) :
    Graph.ofValues (.arr [nodeOfRequest ""]) (.arr []) ≠ .ok graph := by
  intro builds
  have nothing : (Graph.ofValues (.arr [nodeOfRequest ""]) (.arr [])).toOption = none := by decide +kernel
  rw [builds] at nothing
  contradiction

theorem nodeOfRequest_named (fault : GraphFault) :
    Graph.ofValues (.arr [nodeOfRequest "ask"]) (.arr []) ≠ .error (.malformed fault) := by
  intro broken
  have builds : (Graph.ofValues (.arr [nodeOfRequest "ask"]) (.arr [])).toOption.isSome := by decide +kernel
  rw [broken] at builds
  contradiction

/-- A node without a name is refused, another one is saved with the edges that were there. -/
theorem stored_graphs_load_nodes :
    GraphsLoad 900 storeWithFlow.directory ∧
      (serve .usual storeWithFlow (nodeRequest "")).1 = storeWithFlow ∧
        ∃ changed, HasHalves changed (.arr [nodeOfRequest "ask"]) (.arr []) ∧
          (serve .usual storeWithFlow (nodeRequest "ask")).1.directory =
            storeWithFlow.directory.put (.named "welcome.json") (.file (Json.obj changed).pretty) := by
  have reached : storeWithFlow =
      serveAll .usual ⟨.empty, Store.plainIds, Store.sampleClock, Store.sampleLimits⟩ _ := rfl
  obtain ⟨load, judged⟩ := stored_graphs_load (by decide) reached
  refine ⟨load, ?_, ?_⟩
  · obtain ⟨record, changes, halves⟩ := @nodeRequest_changes "" ⟨"", .condition, .origin, []⟩ (by decide +kernel)
    obtain ⟨nodes, edges, own, _, outcome⟩ := judged Store.isPlain_plainIds _ _ _ _ changes
    obtain rfl : edges = .arr [] := Option.some.inj (own.2.symm.trans halves.2)
    cases outcome with
    | refused _ unchanged => exact unchanged
    | accepted builds => exact absurd builds (nodeOfRequest_nameless _)
    | tooDeep builds => exact absurd builds (nodeOfRequest_nameless _)
  · obtain ⟨record, changes, halves⟩ := @nodeRequest_changes "ask" ⟨"ask", .condition, .origin, []⟩ (by decide +kernel)
    obtain ⟨nodes, edges, own, changed, outcome⟩ := judged Store.isPlain_plainIds _ _ _ _ changes
    obtain rfl : edges = .arr [] := Option.some.inj (own.2.symm.trans halves.2)
    have answered : (serve .usual storeWithFlow (nodeRequest "ask")).2.status = 200 := by decide +kernel
    cases outcome with
    | refused broken => exact absurd broken (nodeOfRequest_named _)
    | accepted _ located saved =>
      rw [Store.locate_path (by decide)] at located
      exact ⟨_, changed, Except.ok.inj located ▸ saved⟩
    | tooDeep _ _ _ answer =>
      rw [answer] at answered
      contradiction

end Service

end OutreachFlow
