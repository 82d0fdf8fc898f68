import OutreachFlow.Proofs.Graph.Telling
import OutreachFlow.Proofs.Service.KeptFlows
import OutreachFlow.Proofs.Service.Violations

/-! Saved flows stay available. Requests for flows are answered, and what is saved can be read again, except in two
cases: a change can take the name of a flow away, and an id can be too long for the name of a file. This is said of
requests to whose bodies nothing happens on the way. -/
namespace OutreachFlow

open Service

namespace Service

/-- Documents of some depth can be read, stored and sent, also a list of them, and their parts shown in messages. -/
structure Roomy (framework : Framework) (limits : Limits) (depth : Nat) : Prop where
  forms : 4 ≤ depth
  messages : depth < framework.messageDepth
  answers : depth + 1 ≤ framework.answerDepth
  reading : depth ≤ limits.reading
  writing : depth ≤ limits.writing

/-- The body of the request is a document that nothing can happen to on the way, and the coordinates that are read
in it are finite. -/
structure Request.IsProper (framework : Framework) (depth : Nat) (request : Request) : Prop where
  body : request.Bears framework fun content => content.IsProper depth
  newPlaces : ∀ flow, request.read framework (checkBody (Schema.record NewFlow.read)) = .ok flow →
    ∀ node ∈ flow.nodes, node.position.IsFinite
  changedPlaces : ∀ change, request.read framework (checkBody (Schema.record FlowChange.read)) = .ok change →
    ∀ nodes ∈ change.nodes, ∀ node ∈ nodes, node.position.IsFinite

instance (framework : Framework) (depth : Nat) (request : Request) : Decidable (request.IsProper framework depth) :=
  decidable_of_iff
    ((∀ content ∈ (request.document framework).toOption.join, content.IsProper depth) ∧
      (∀ flow ∈ (request.read framework (checkBody (Schema.record NewFlow.read))).toOption,
        ∀ node ∈ flow.nodes, node.position.IsFinite) ∧
      ∀ change ∈ (request.read framework (checkBody (Schema.record FlowChange.read))).toOption,
        ∀ nodes ∈ change.nodes, ∀ node ∈ nodes, node.position.IsFinite)
    ⟨fun ⟨body, created, changed⟩ =>
      ⟨fun content read => body content (by simp [read, Except.toOption]),
        fun flow read => created flow (toOption_eq_some.mpr read),
        fun change read => changed change (toOption_eq_some.mpr read)⟩,
      fun proper =>
        ⟨fun content member => proper.body content (toOption_eq_some.mp (Option.join_eq_some_iff.mp member)),
          fun flow member => proper.newPlaces flow (toOption_eq_some.mp member),
          fun change member => proper.changedPlaces change (toOption_eq_some.mp member)⟩⟩

/-! Healthy services -/

/-- The endpoints of saved flows. -/
inductive Endpoint.IsOfFlows : Endpoint → Prop where
  | list : IsOfFlows .listFlows
  | create : IsOfFlows .createFlow
  | get (id : String) : IsOfFlows (.getFlow id)
  | change (id : String) : IsOfFlows (.changeFlow id)
  | delete (id : String) : IsOfFlows (.deleteFlow id)

def Checked.value? {α : Type} : Checked α → Option α
  | valid value => some value
  | invalid _ => none

/-- The record in an item of a directory, if there is one that fits the schema of answers. -/
def recordIn? (limit : Nat) (item : DirectoryItem) : Option FlowRecord :=
  (Store.readItem limit item).toOption.bind fun value => (FlowRecord.schema value).value?

/-- A list of the records of all items. -/
def Response.ListsAll (response : Response) (limit : Nat) (directory : Directory) : Prop :=
  ∃ records : List FlowRecord, response = ⟨200, .document (.arr (records.map FlowRecord.toJson))⟩ ∧
    (records.map some).Perm (directory.items.map fun entry => recordIn? limit entry.2)

/-- A request is answered and leaves records only, and where it asks for a list, it gets them all. -/
structure Healthy (framework : Framework) (store : Store) (request : Request) : Prop where
  conforms : ∀ entry ∈ (serve framework store request).1.directory.items,
    (recordIn? store.limits.reading entry.2).isSome
  answered : (serve framework store request).2.status ≠ 500
  listed : request.AsksFor .listFlows →
    (serve framework store request).2.ListsAll store.limits.reading store.directory

/-- The two ways in which a request for a flow goes wrong. -/
inductive Request.Fails (framework : Framework) (request : Request) (store : Store) : Prop where
  | nameTaken {id : String} {change : FlowChange} {record : Fields} {nodes edges : Json} {graph : Graph}
      (changes : request.ChangesFlow framework store id change record) (taken : change.name = some none)
      (ownNodes : record.get? "nodes" = some nodes) (ownEdges : record.get? "edges" = some edges)
      (builds : Graph.ofValues (change.nodesOr nodes) (change.edgesOr edges) = .ok graph) :
      Fails framework request store
  | idTooLong {id : String} (long : store.directory.locate (Store.path id) = .error .nameTooLong)
      (asks : request.AsksFor (.getFlow id) ∨ request.AsksFor (.deleteFlow id) ∨
        request.AsksFor (.changeFlow id) ∧
          ∃ change, request.read framework (checkBody (Schema.record FlowChange.read)) = .ok change) :
      Fails framework request store

variable {framework : Framework} {level : Nat} {store : Store} {request : Request} {id : String}
  {change : FlowChange} {record : Fields}

/-! Failures -/

/-- A change to a flow that is kept. -/
theorem exists_changed (keeps : store.directory.KeepsFlows level) (roomy : level + 4 ≤ store.limits.reading)
    (changes : request.ChangesFlow framework store id change record) :
    ∃ kept : KeptFlow level, record = kept.flow.fields kept.id ∧ store.get? id = .ok (some kept.record) := by
  obtain ⟨kept, same⟩ := Store.exists_kept_of_get? keeps roomy changes.found
  exact ⟨kept, Json.obj.inj same, same ▸ changes.found⟩

theorem answerRecord_nameless {flow : SavedFlow} (nameless : flow.name = .null) (key : String) :
    answerRecord 200 (flow.record key) = .failure := by
  cases answered : FlowRecord.schema (flow.record key) with
  | invalid violations => rw [answerRecord, answered]
  | valid record =>
    obtain ⟨name, named⟩ := SavedFlow.named_of_record answered
    rw [nameless] at named
    contradiction

theorem status_nameTaken (keeps : store.directory.KeepsFlows level) (roomy : level + 4 ≤ store.limits.reading)
    (changes : request.ChangesFlow framework store id change record) (taken : change.name = some none)
    {nodes edges : Json} {graph : Graph} (ownNodes : record.get? "nodes" = some nodes)
    (ownEdges : record.get? "edges" = some edges)
    (builds : Graph.ofValues (change.nodesOr nodes) (change.edgesOr edges) = .ok graph) :
    (serve framework store request).2.status = 500 := by
  obtain ⟨kept, rfl, found⟩ := exists_changed keeps roomy changes
  obtain rfl : kept.flow.nodes = nodes := by simpa [SavedFlow.fields] using ownNodes
  obtain rfl : kept.flow.edges = edges := by simpa [SavedFlow.fields] using ownEdges
  have nameless : (kept.flow.change change.toFields store.clock.next).name = .null := by
    rw [SavedFlow.change, change.get?_name, taken]
    rfl
  rw [serve_changeFlow changes, changeFlow_record found, change.change_nodes, change.change_edges, builds]
  simp only [saveChanges_record found]
  split
  · rw [answerRecord_nameless nameless]
    rfl
  · rfl

theorem file?_of_long (long : store.directory.locate (Store.path id) = .error .nameTooLong) :
    store.file? id = .error (.unreachable .nameTooLong) := by
  rw [Store.file?, Directory.find?, long]
  rfl

theorem get?_of_long (long : store.directory.locate (Store.path id) = .error .nameTooLong) :
    store.get? id = .error (.unreachable .nameTooLong) := by
  rw [Store.get?, file?_of_long long]
  rfl

/-- What fails is answered with an internal error. -/
theorem status_of_fails (keeps : store.directory.KeepsFlows level) (roomy : level + 4 ≤ store.limits.reading)
    (fails : request.Fails framework store) : (serve framework store request).2.status = 500 := by
  cases fails with
  | nameTaken changes taken ownNodes ownEdges builds =>
    exact status_nameTaken keeps roomy changes taken ownNodes ownEdges builds
  | idTooLong long asks =>
    rcases asks with asks | asks | ⟨asks, change, read⟩
    · rw [serve_of_asks asks, replyAt, getFlow, get?_of_long long]
      rfl
    · rw [serve_of_asks asks, replyAt, deleteFlow, Store.delete, file?_of_long long]
      rfl
    · rw [serve_of_asks asks, replyAt, storing, read]
      simp only [changeFlow, get?_of_long long]
      rfl

theorem unharmed_of_whole {endpoint : Endpoint} (asks : request.AsksFor endpoint)
    (whole : endpoint = .createFlow ∨ endpoint = .listFlows) : ¬ request.Fails framework store := by
  intro fails
  cases fails with
  | nameTaken changes =>
    obtain rfl := asks.unique changes.asks
    simp at whole
  | idTooLong _ asked =>
    rcases asked with asked | asked | ⟨asked, _⟩ <;>
      · obtain rfl := asks.unique asked
        simp at whole

theorem unharmed_of_named (asks : request.AsksFor (.changeFlow id)) (plain : Store.IsPlain id)
    (named : ∀ change, request.read framework (checkBody (Schema.record FlowChange.read)) = .ok change →
      change.name ≠ some none) : ¬ request.Fails framework store := by
  intro fails
  cases fails with
  | nameTaken changes taken => exact named _ changes.read taken
  | idTooLong long asked =>
    rcases asked with asked | asked | ⟨asked, _⟩
    · cases asks.unique asked
    · cases asks.unique asked
    · cases asks.unique asked
      rw [Store.locate_path plain] at long
      contradiction

/-! What is kept stays kept -/

theorem nodeDumps_isProper {nodes : List NodeForm} (has : ∀ node ∈ nodes, node.Has (Json.IsProper (level + 1)))
    (places : ∀ node ∈ nodes, node.position.IsFinite) :
    (Json.arr (GraphForm.nodeDumps nodes)).IsProper (level + 3) := by
  rw [GraphForm.nodeDumps, Json.isProper_arr, List.forall_mem_map]
  exact fun node member => NodeForm.isProper_toJson (has node member) (places node member)

theorem edgeDumps_isProper {edges : List EdgeForm} (has : ∀ edge ∈ edges, edge.Has (Json.IsProper (level + 1))) :
    (Json.arr (GraphForm.edgeDumps edges)).IsProper (level + 3) := by
  rw [GraphForm.edgeDumps, Json.isProper_arr, List.forall_mem_map]
  exact fun edge member => EdgeForm.isProper_dump.mpr (has edge member)

theorem empty_isProper (level : Nat) : (Json.obj []).IsProper (level + 1) := Json.isProper_obj.mpr (by simp)

/-- A new flow as it is kept. -/
theorem exists_kept_new {flow : NewFlow} {graph : Graph} {now : String} (plain : Store.IsPlain id)
    (wholeId : Text.hasStandIn id = false) (wholeTime : Text.hasStandIn now = false)
    (proper : request.IsProper framework (level + 4))
    (read : request.read framework (checkBody (Schema.record NewFlow.read)) = .ok flow)
    (builds : GraphForm.toGraph ⟨flow.nodes, flow.edges⟩ = .ok graph) :
    ∃ kept : KeptFlow level, kept.id = id ∧ kept.record = .obj (flow.record id now) := by
  have has : flow.Has (fun limit value => value.IsProper limit) (level + 1) :=
    Request.yields_read (NewFlow.yields_read Json.passesDown_proper (empty_isProper level)) proper.body read
  have sound := NewFlow.isSound_saved (Request.storable_newFlow read) builds now
  have record : ((flow.saved now).record id).IsProper (level + 4) :=
    SavedFlow.isProper_record.mpr ⟨wholeId, has.name, textOrNull_isProper has.description,
      nodeDumps_isProper has.nodes (proper.newPlaces flow read), edgeDumps_isProper has.edges, wholeTime, wholeTime⟩
  exact ⟨⟨flow.saved now, id, flow.name, plain, sound, rfl, record⟩, rfl, rfl⟩

/-- Nothing happens to the record of a changed flow, whether or not it is saved. -/
theorem isProper_changed (kept : KeptFlow level) {now : String} (wholeTime : Text.hasStandIn now = false)
    (proper : request.IsProper framework (level + 4))
    (read : request.read framework (checkBody (Schema.record FlowChange.read)) = .ok change) :
    ((kept.flow.change change.toFields now).record kept.id).IsProper (level + 4) := by
  have has : change.Has (fun limit value => value.IsProper limit) (level + 1) :=
    Request.yields_read (FlowChange.yields_read Json.passesDown_proper (empty_isProper level)) proper.body read
  have changed {text : Option (Option String)} {own : Json} (proper : own.IsProper (level + 3))
      (whole : ∀ value ∈ text, ∀ content ∈ value, (Json.str content).IsProper (level + 3)) :
      ((text.map textOrNull).getD own).IsProper (level + 3) := by
    cases text with
    | none => exact proper
    | some value => exact textOrNull_isProper (whole value rfl)
  obtain ⟨wholeId, name, description, nodes, edges, created, _⟩ := SavedFlow.isProper_record.mp kept.proper
  refine SavedFlow.isProper_record.mpr ⟨wholeId, ?_, ?_, ?_, ?_, created, wholeTime⟩
  · rw [SavedFlow.change, change.get?_name]
    exact changed name has.name
  · rw [SavedFlow.change, change.get?_description]
    exact changed description has.description
  · rw [change.change_nodes, FlowChange.nodesOr]
    cases given : change.nodes with
    | none => exact nodes
    | some forms => exact nodeDumps_isProper (has.nodes forms given) (proper.changedPlaces change read forms given)
  · rw [change.change_edges, FlowChange.edgesOr]
    cases given : change.edges with
    | none => exact edges
    | some forms => exact edgeDumps_isProper (has.edges forms given)

/-- A kept flow stays one through a change that leaves it a name. -/
theorem exists_kept_changed {kept : KeptFlow level} {graph : Graph} {now : String}
    (wholeTime : Text.hasStandIn now = false) (proper : request.IsProper framework (level + 4))
    (read : request.read framework (checkBody (Schema.record FlowChange.read)) = .ok change)
    (named : change.name ≠ some none)
    (builds : Graph.ofValues (kept.flow.change change.toFields now).nodes
      (kept.flow.change change.toFields now).edges = .ok graph) :
    ∃ changed : KeptFlow level, changed.id = kept.id ∧
      changed.record = (kept.flow.change change.toFields now).record kept.id := by
  have sound := kept.sound.change (Request.storable_flowChange read) builds
  have name : ∃ name, (kept.flow.change change.toFields now).name = .str name := by
    rw [SavedFlow.change, change.get?_name]
    cases given : change.name with
    | none => exact ⟨kept.name, kept.named⟩
    | some value =>
      cases value with
      | none => exact absurd given named
      | some name => exact ⟨name, rfl⟩
  obtain ⟨name, same⟩ := name
  exact ⟨⟨_, kept.id, name, kept.plain, sound, same, isProper_changed kept wholeTime proper read⟩, rfl, rfl⟩

/-! Answers -/

/-- A service with nothing but kept flows, and with enough room around it. -/
structure Ready (framework : Framework) (level : Nat) (store : Store) : Prop where
  keeps : store.directory.KeepsFlows level
  roomy : Roomy framework store.limits (level + 4)
  plain : ∀ count, Store.IsPlain (store.ids.text count)
  wholeIds : ∀ count, Text.hasStandIn (store.ids.text count) = false
  wholeTimes : ∀ count, Text.hasStandIn (store.clock.text count) = false

/-- An answer that is no internal error, with nothing but kept flows behind it. -/
structure Available (framework : Framework) (level : Nat) (outcome : Store × Reply) : Prop where
  keeps : outcome.1.directory.KeepsFlows level
  answered : (framework.deliver outcome.2).status ≠ 500

theorem Ready.plainId (ready : Ready framework level store) : Store.IsPlain store.ids.next := ready.plain _

theorem Ready.wholeId (ready : Ready framework level store) : Text.hasStandIn store.ids.next = false :=
  ready.wholeIds _

theorem Ready.wholeTime (ready : Ready framework level store) : Text.hasStandIn store.clock.next = false :=
  ready.wholeTimes _

section Answers

variable (ready : Ready framework level store)
include ready

theorem available_of_refusal {reply : Reply} (refused : (framework.deliver reply).IsRefusal) :
    Available framework level (store, reply) := ⟨ready.keeps, Nat.ne_of_lt refused.2⟩

theorem available_flowNotFound : Available framework level (store, flowNotFound) :=
  available_of_refusal ready (Request.isRefusal_refusalText framework (by decide) (by decide +kernel))

/-- A graph that cannot be built is refused with words that can be sent. -/
theorem available_refuseGraph {nodes edges : List Json} {fault : GraphFault}
    (proper : ∀ value ∈ nodes, value.IsProper (level + 2)) (fails : Graph.ofLists nodes edges = .error fault) :
    Available framework level (store, refuseGraph framework.messageDepth fault) := by
  have messages := ready.roomy.messages
  have flat : ∀ value ∈ nodes, value.depth < framework.messageDepth := by
    intro value member
    have shallow := (proper value member).flat
    omega
  obtain ⟨text, told⟩ := Graph.exists_told flat fails
  have whole := Graph.whole_of_told (fun value member => (proper value member).whole) fails told
  rw [refuseGraph, told]
  exact available_of_refusal ready (Request.isRefusal_refusalText framework (by decide) whole)

theorem available_storing {α : Type} {schema : Schema α} {act : α → Store × Reply}
    (finds : schema.Finds fun value => value.IsProper (level + 4)) (proper : request.IsProper framework (level + 4))
    (acts : ∀ value, request.read framework (checkBody schema) = .ok value → Available framework level (act value)) :
    Available framework level (storing framework store request (checkBody schema) act) := by
  have sendable : ∀ value : Json, value.IsProper (level + 4) → (framework.sent .echoed value).isSome := by
    intro value proper
    have answers := ready.roomy.answers
    have flat := proper.flat
    rw [framework.sends .echoed (by omega) proper.finite proper.whole]
    rfl
  unfold storing
  cases read : request.read framework (checkBody schema) with
  | error reply =>
    exact available_of_refusal ready
      (Request.isRefusal_of_unread (Json.isHereditary_proper _) sendable finds proper.body read)
  | ok value => exact acts value read

theorem available_answerRecord {after : Store} (keeps : after.directory.KeepsFlows level) (kept : KeptFlow level)
    {status : Nat} (success : status ≠ 500) : Available framework level (after, answerRecord status kept.record) := by
  have answers := ready.roomy.answers
  refine ⟨keeps, ?_⟩
  rw [kept.deliver_answerRecord (by omega)]
  exact success

theorem available_write {taken : Store} (same : taken.directory = store.directory) (room : taken.limits = store.limits)
    (kept : KeptFlow level) :
    ∃ after : Store, taken.write kept.id kept.record = .ok after ∧ after.directory.KeepsFlows level := by
  have keeps : taken.directory.KeepsFlows level := same ▸ ready.keeps
  obtain ⟨after, written, keepsAfter⟩ := keeps.write kept
  have flat : ¬ taken.limits.writing < kept.record.depth :=
    Nat.not_lt.mpr (Nat.le_trans kept.proper.flat (room ▸ ready.roomy.writing))
  exact ⟨{ taken with directory := after }, by rw [Store.write, if_neg flat, written], keepsAfter⟩

theorem available_createFlow {flow : NewFlow} (proper : request.IsProper framework (level + 4))
    (read : request.read framework (checkBody (Schema.record NewFlow.read)) = .ok flow) :
    Available framework level (createFlow framework.messageDepth store flow) := by
  have has : flow.Has (fun limit value => value.IsProper limit) (level + 1) :=
    Request.yields_read (NewFlow.yields_read Json.passesDown_proper (empty_isProper level)) proper.body read
  unfold createFlow
  cases builds : GraphForm.toGraph ⟨flow.nodes, flow.edges⟩ with
  | error fault =>
    exact available_refuseGraph ready (Json.isProper_arr.mp (nodeDumps_isProper has.nodes (proper.newPlaces flow read)))
      builds
  | ok graph =>
    obtain ⟨kept, sameId, sameRecord⟩ := exists_kept_new ready.plainId ready.wholeId ready.wholeTime proper read
      builds
    obtain ⟨after, written, keeps⟩ := @available_write _ _ _ ready
      { store with ids := store.ids.advance, clock := store.clock.advance } rfl rfl kept
    rw [sameId, sameRecord, NewFlow.record] at written
    have answered := available_answerRecord ready keeps kept (show 201 ≠ 500 by decide)
    rw [sameRecord, NewFlow.record] at answered
    simp only [Store.create, written]
    exact answered

theorem available_getFlow (short : store.directory.locate (Store.path id) ≠ .error .nameTooLong) :
    Available framework level (store, getFlow store id) := by
  unfold getFlow
  rcases Store.get?_eq_ok ready.keeps ready.roomy.reading short with nothing | ⟨kept, found⟩
  · rw [nothing]
    exact available_flowNotFound ready
  · rw [found]
    exact available_answerRecord ready ready.keeps kept (by decide)

theorem available_deleteFlow (short : store.directory.locate (Store.path id) ≠ .error .nameTooLong) :
    Available framework level (deleteFlow store id) := by
  unfold deleteFlow Store.delete
  obtain ⟨file, found⟩ := Store.file?_eq_ok short
  rw [found]
  cases file with
  | none => exact available_flowNotFound ready
  | some file => exact ⟨ready.keeps.remove file.1, (by decide : 204 ≠ 500)⟩

theorem available_saveChanges {kept : KeptFlow level} {graph : Graph}
    (found : store.get? id = .ok (some kept.record)) (proper : request.IsProper framework (level + 4))
    (read : request.read framework (checkBody (Schema.record FlowChange.read)) = .ok change)
    (named : change.name ≠ some none)
    (builds : Graph.ofValues (kept.flow.change change.toFields store.clock.next).nodes
      (kept.flow.change change.toFields store.clock.next).edges = .ok graph) :
    Available framework level (saveChanges store id change.toFields) := by
  obtain ⟨changed, sameId, sameRecord⟩ := exists_kept_changed ready.wholeTime proper read named builds
  obtain ⟨after, written, keeps⟩ := @available_write _ _ _ ready
    { store with clock := store.clock.advance } rfl rfl changed
  have answered := available_answerRecord ready keeps changed (show 200 ≠ 500 by decide)
  rw [sameId, sameRecord] at written
  rw [sameRecord] at answered
  rw [saveChanges_record found]
  rw [written]
  exact answered

theorem available_changeFlow (proper : request.IsProper framework (level + 4))
    (asks : request.AsksFor (.changeFlow id))
    (read : request.read framework (checkBody (Schema.record FlowChange.read)) = .ok change)
    (unharmed : ¬ request.Fails framework store) :
    Available framework level (changeFlow framework.messageDepth store id change) := by
  have short : store.directory.locate (Store.path id) ≠ .error .nameTooLong := fun long =>
    unharmed (.idTooLong long (.inr (.inr ⟨asks, change, read⟩)))
  rcases Store.get?_eq_ok ready.keeps ready.roomy.reading short with nothing | ⟨kept, found⟩
  · rw [changeFlow, nothing]
    exact available_flowNotFound ready
  · have changes : request.ChangesFlow framework store id change (kept.flow.fields kept.id) := ⟨asks, read, found⟩
    have named {graph : Graph} (builds : Graph.ofValues (kept.flow.change change.toFields store.clock.next).nodes
        (kept.flow.change change.toFields store.clock.next).edges = .ok graph) : change.name ≠ some none := by
      intro taken
      rw [change.change_nodes, change.change_edges] at builds
      exact unharmed (.nameTaken changes taken (by simp [SavedFlow.fields]) (by simp [SavedFlow.fields]) builds)
    rw [changeFlow_record found]
    cases outcome : Graph.ofValues (kept.flow.change change.toFields store.clock.next).nodes
        (kept.flow.change change.toFields store.clock.next).edges with
    | ok graph => exact available_saveChanges ready found proper read (named outcome) outcome
    | error fault =>
      obtain ⟨⟨nodes, sameNodes, _⟩, edges, sameEdges⟩ :=
        kept.sound.forms_of_change (Request.storable_flowChange read) store.clock.next
      have parts := isProper_changed kept ready.wholeTime proper read
      have listed : (Json.arr (GraphForm.nodeDumps nodes)).IsProper (level + 3) :=
        sameNodes ▸ (SavedFlow.isProper_record.mp parts).2.2.2.1
      rw [sameNodes, sameEdges, ofValues_arr] at outcome
      obtain ⟨cause, broken, rfl⟩ := mapError_eq_error.mp outcome
      exact available_refuseGraph ready (Json.isProper_arr.mp listed) broken

end Answers

/-! Lists -/

theorem exists_recordIn {limit : Nat} (kept : KeptFlow level) (roomy : level + 4 ≤ limit) :
    ∃ record, FlowRecord.schema kept.record = .valid record ∧ recordIn? limit kept.item.2 = some record ∧
      record.toJson.IsProper (level + 4) := by
  obtain ⟨record, answered, proper⟩ := kept.sound.exists_record kept.named kept.proper
  have same : FlowRecord.schema kept.record = .valid record := answered
  refine ⟨record, same, ?_, proper⟩
  simp [recordIn?, kept.readItem roomy, same, Except.toOption, Checked.value?]

theorem listsAll_listFlows (keeps : store.directory.KeepsFlows level)
    (roomy : Roomy framework store.limits (level + 4)) :
    (framework.deliver (listFlows store)).ListsAll store.limits.reading store.directory := by
  obtain ⟨kepts, same⟩ := keeps.exists_list
  obtain ⟨order, perm, listed⟩ := Store.list_of_items roomy.reading same
  choose answer answered recorded proper using fun kept : KeptFlow level => exists_recordIn kept roomy.reading
  have read : Schema.list FlowRecord.schema (.arr (order.map KeptFlow.record)) = .valid (order.map answer) :=
    Schema.list_map fun kept _ => answered kept
  have replied : listFlows store = .modelled 200 (.arr ((order.map answer).map FlowRecord.toJson)) := by
    rw [listFlows, listed]
    simp only [answerRecords, read]
  have whole : (Json.arr ((order.map answer).map FlowRecord.toJson)).IsProper (level + 5) := by
    rw [Json.isProper_arr, List.forall_mem_map, List.forall_mem_map]
    exact fun kept _ => proper kept
  refine ⟨order.map answer, ?_, ?_⟩
  · rw [replied]
    exact deliver_document .modelled 200 (Nat.le_trans whole.flat roomy.answers) whole.finite whole.whole
  · have records : (store.directory.items.map fun entry => recordIn? store.limits.reading entry.2) =
        kepts.map (some ∘ answer) := by
      rw [same, List.map_map]
      refine List.map_congr_left fun kept _ => ?_
      rw [Function.comp_apply, Function.comp_apply, recorded]
    rw [records, List.map_map]
    exact perm.map (some ∘ answer)

/-! Runs -/

theorem available_replyAt {endpoint : Endpoint} (ready : Ready framework level store)
    (asks : request.AsksFor endpoint) (ofFlows : endpoint.IsOfFlows) (proper : request.IsProper framework (level + 4))
    (unharmed : ¬ request.Fails framework store) :
    Available framework level (replyAt framework store request endpoint) := by
  cases ofFlows with
  | list =>
    obtain ⟨records, listed, _⟩ := listsAll_listFlows ready.keeps ready.roomy
    exact ⟨ready.keeps, by simp [replyAt, listed]⟩
  | create =>
    exact available_storing ready (NewFlow.finds_read (Json.isHereditary_proper _)) proper fun flow read =>
      available_createFlow ready proper read
  | get id => exact available_getFlow ready fun long => unharmed (.idTooLong long (.inl asks))
  | change id =>
    exact available_storing ready (FlowChange.finds_read (Json.isHereditary_proper _)) proper fun change read =>
      available_changeFlow ready proper asks read unharmed
  | delete id => exact available_deleteFlow ready fun long => unharmed (.idTooLong long (.inr (.inl asks)))

theorem Ready.serve {endpoint : Endpoint} (ready : Ready framework level store)
    (asks : request.AsksFor endpoint) (ofFlows : endpoint.IsOfFlows) (proper : request.IsProper framework (level + 4))
    (unharmed : ¬ request.Fails framework store) : Ready framework level (serve framework store request).1 := by
  have same := sameSources_serve framework store request
  have keeps := (available_replyAt ready asks ofFlows proper unharmed).keeps
  refine ⟨?_, same.limits ▸ ready.roomy, same.ids ▸ ready.plain, same.ids ▸ ready.wholeIds,
    same.clock ▸ ready.wholeTimes⟩
  rw [serve_of_asks asks]
  exact keeps

theorem Ready.healthy {endpoint : Endpoint} (ready : Ready framework level store)
    (asks : request.AsksFor endpoint) (ofFlows : endpoint.IsOfFlows) (proper : request.IsProper framework (level + 4))
    (unharmed : ¬ request.Fails framework store) : Healthy framework store request where
  conforms entry member := by
    obtain ⟨kept, rfl⟩ := (ready.serve asks ofFlows proper unharmed).keeps entry member
    obtain ⟨record, _, recorded, _⟩ := exists_recordIn kept ready.roomy.reading
    rw [recorded]
    rfl
  answered := by
    rw [serve_of_asks asks]
    exact (available_replyAt ready asks ofFlows proper unharmed).answered
  listed asks := by
    rw [serve_of_asks asks]
    exact listsAll_listFlows ready.keeps ready.roomy

/-- A service stays ready while nothing fails. -/
theorem ready_serveAll {requests : List Request} (ready : Ready framework level store)
    (flows : ∀ request ∈ requests, ∃ endpoint, request.AsksFor endpoint ∧ endpoint.IsOfFlows)
    (proper : ∀ request ∈ requests, request.IsProper framework (level + 4))
    (unharmed : ∀ before request after, requests = before ++ request :: after →
      Ready framework level (serveAll framework store before) →
        ¬ request.Fails framework (serveAll framework store before)) :
    Ready framework level (serveAll framework store requests) := by
  induction requests generalizing store with
  | nil => exact ready
  | cons request rest ih =>
    obtain ⟨⟨endpoint, asks, ofFlows⟩, flows⟩ := List.forall_mem_cons.mp flows
    obtain ⟨first, proper⟩ := List.forall_mem_cons.mp proper
    have next := ready.serve asks ofFlows first (unharmed [] request rest rfl ready)
    refine ih next flows proper fun before other after same => ?_
    exact unharmed (request :: before) other after (by rw [same, List.cons_append])

/-! A flow that is given another name, or none -/

def plainTimes : Supply := ⟨fun count => if count = 0 then "Monday" else "Tuesday", 0⟩

theorem hasStandIn_plainIds (count : Nat) : Text.hasStandIn (Store.plainIds.text count) = false := by
  simp only [Store.plainIds]
  split <;> decide +kernel

theorem hasStandIn_plainTimes (count : Nat) : Text.hasStandIn (plainTimes.text count) = false := by
  simp only [plainTimes]
  split <;> decide +kernel

def plainStore : Store := ⟨.empty, Store.plainIds, plainTimes, ⟨900, 900⟩⟩

def welcomeRequest : Request := .ofTexts "post" "/api/flows" (Json.obj [("name", .str "Welcome")]).compact

def renameRequest (name : Json) : Request :=
  .ofTexts "put" "/api/flows/welcome" (Json.obj [("name", name)]).compact

def listRequest : Request := .ofTexts "get" "/api/flows" ""

/-- A flow is saved, its name is changed, and all flows are asked for. -/
def renamingRequests (name : Json) : List Request := [welcomeRequest, renameRequest name, listRequest]

theorem asksFor_renameRequest (name : Json) : (renameRequest name).AsksFor (.changeFlow "welcome") := by
  refine destination_eq_endpoint.mpr ?_
  show endpoint? (String.ofList ("put".toList.map Char.toUpper)) (Target.ofText "/api/flows/welcome").path = _
  decide +kernel

theorem asksFor_listRequest : listRequest.AsksFor .listFlows := destination_eq_endpoint.mpr (by decide +kernel)

theorem asksFor_welcomeRequest : welcomeRequest.AsksFor .createFlow :=
  destination_eq_endpoint.mpr (by decide +kernel)

theorem ofFlows_renamingRequests (name : Json) :
    ∀ request ∈ renamingRequests name, ∃ endpoint, request.AsksFor endpoint ∧ endpoint.IsOfFlows := by
  simp only [renamingRequests, List.forall_mem_cons]
  exact ⟨⟨_, asksFor_welcomeRequest, .create⟩, ⟨_, asksFor_renameRequest name, .change _⟩,
    ⟨_, asksFor_listRequest, .list⟩, by simp⟩

theorem unharmed_renamingRequests : ∀ before request after,
    renamingRequests (.str "Hello") = before ++ request :: after →
      ¬ request.Fails .usual (serveAll .usual plainStore before) := by
  intro before request after same
  unfold renamingRequests at same
  match before with
  | [] =>
    cases same
    exact unharmed_of_whole asksFor_welcomeRequest (.inl rfl)
  | [_] =>
    cases same
    have kept : ((renameRequest (.str "Hello")).read .usual
        (checkBody (Schema.record FlowChange.read))).toOption.bind FlowChange.name ≠ some none := by
      decide +kernel
    refine unharmed_of_named (asksFor_renameRequest _) (by decide) fun change read taken => kept ?_
    rw [read]
    exact taken
  | [_, _] =>
    cases same
    exact unharmed_of_whole asksFor_listRequest (.inr rfl)
  | [_, _, _] => simp at same
  | _ :: _ :: _ :: _ :: _ => simp at same

/-! Available flows -/

theorem ready_empty {limits : Limits} {ids clock : Supply} (roomy : Roomy framework limits (level + 4))
    (plain : ∀ count, Store.IsPlain (ids.text count))
    (wholeIds : ∀ count, Text.hasStandIn (ids.text count) = false)
    (wholeTimes : ∀ count, Text.hasStandIn (clock.text count) = false) :
    Ready framework level ⟨.empty, ids, clock, limits⟩ :=
  ⟨Directory.keepsFlows_empty, roomy, plain, wholeIds, wholeTimes⟩

/-- Where ids are plain names and nothing happens to what is sent, all requests for flows are answered, all records
can be read again and all of them are listed, exactly if no change takes the name of a flow away and no id is
too long for the name of a file. -/
theorem flows_available_iff {framework : Framework} {limits : Limits} {depth : Nat} {ids clock : Supply}
    {requests : List Request} (roomy : Roomy framework limits depth)
    (plain : ∀ count, Store.IsPlain (ids.text count))
    (wholeIds : ∀ count, Text.hasStandIn (ids.text count) = false)
    (wholeTimes : ∀ count, Text.hasStandIn (clock.text count) = false)
    (flows : ∀ request ∈ requests, ∃ endpoint, request.AsksFor endpoint ∧ endpoint.IsOfFlows)
    (proper : ∀ request ∈ requests, request.IsProper framework depth) :
    (∀ before request after, requests = before ++ request :: after →
        Healthy framework (serveAll framework ⟨.empty, ids, clock, limits⟩ before) request) ↔
      ∀ before request after, requests = before ++ request :: after →
        ¬ request.Fails framework (serveAll framework ⟨.empty, ids, clock, limits⟩ before) := by
  obtain ⟨level, rfl⟩ : ∃ level, depth = level + 4 := ⟨depth - 4, (Nat.sub_add_cancel roomy.forms).symm⟩
  have empty : Ready framework level ⟨.empty, ids, clock, limits⟩ := ready_empty roomy plain wholeIds wholeTimes
  -- Up to each request the service is ready, as long as nothing fails before it.
  have reached {before : List Request} (inside : ∀ other ∈ before, other ∈ requests)
      (unharmed : ∀ front other behind, before = front ++ other :: behind →
        Ready framework level (serveAll framework ⟨.empty, ids, clock, limits⟩ front) →
          ¬ other.Fails framework (serveAll framework ⟨.empty, ids, clock, limits⟩ front)) :
      Ready framework level (serveAll framework ⟨.empty, ids, clock, limits⟩ before) :=
    ready_serveAll empty (fun other member => flows other (inside other member))
      (fun other member => proper other (inside other member)) unharmed
  constructor
  · intro healthy before request after same fails
    have ready := reached (fun other member => same ▸ List.mem_append_left _ member)
      fun front other behind parts ready fails =>
        (healthy front other (behind ++ request :: after) (by rw [same, parts]; simp)).answered
          (status_of_fails ready.keeps ready.roomy.reading fails)
    exact (healthy before request after same).answered (status_of_fails ready.keeps ready.roomy.reading fails)
  · intro unharmed before request after same
    have ready := reached (fun other member => same ▸ List.mem_append_left _ member)
      fun front other behind parts _ =>
        unharmed front other (behind ++ request :: after) (by rw [same, parts]; simp)
    have here : request ∈ requests := same ▸ List.mem_append_right _ List.mem_cons_self
    obtain ⟨endpoint, asks, ofFlows⟩ := flows request here
    exact ready.healthy asks ofFlows (proper request here) (unharmed before request after same)

/-- A flow that is given another name stays available. -/
theorem renamingRequests_healthy :
    Healthy .usual plainStore welcomeRequest ∧
      Healthy .usual (serveAll .usual plainStore [welcomeRequest]) (renameRequest (.str "Hello")) ∧
        Healthy .usual (serveAll .usual plainStore [welcomeRequest, renameRequest (.str "Hello")]) listRequest := by
  have roomy : Roomy .usual ⟨900, 900⟩ 200 :=
    ⟨by decide, by decide, by decide, by decide, by decide⟩
  have healthy := (flows_available_iff roomy Store.isPlain_plainIds hasStandIn_plainIds hasStandIn_plainTimes
    (ofFlows_renamingRequests (.str "Hello")) (by decide +kernel)).mpr unharmed_renamingRequests
  exact ⟨healthy [] _ _ rfl, healthy [_] _ _ rfl, healthy [_, _] _ _ rfl⟩

/-- A flow that is given no name does not. -/
theorem renamingRequests_unhealthy :
    (∀ request ∈ renamingRequests .null, ∃ endpoint, request.AsksFor endpoint ∧ endpoint.IsOfFlows) ∧
      (∀ request ∈ renamingRequests .null, request.IsProper .usual 200) ∧
        ¬ ∀ before request after, renamingRequests .null = before ++ request :: after →
          Healthy .usual (serveAll .usual plainStore before) request := by
  refine ⟨ofFlows_renamingRequests .null, by decide +kernel, fun healthy => ?_⟩
  have status : (serve .usual (serveAll .usual plainStore [welcomeRequest]) (renameRequest .null)).2.status = 500 := by
    decide +kernel
  exact (healthy [welcomeRequest] _ [listRequest] rfl).answered status

end Service

end OutreachFlow
