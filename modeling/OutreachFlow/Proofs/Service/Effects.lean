import OutreachFlow.Proofs.Import.Reading
import OutreachFlow.Service.Basic

/-! What requests do to the files of a store. Only a new flow, a change to a flow and its removal touch any,
each of them one, and none before everything that can be refused has been looked at. -/
namespace OutreachFlow

namespace Directory

variable {directory after : Directory} {place other : Location} {item : DirectoryItem} {path text : String}

theorem folder_of_root (root : other.names = []) (directory : Directory) :
    directory.item? other = some .folder := if_pos root

/-- One file at most is new, changed or gone, and no folder is. -/
def OneFileApart (before after : Directory) : Prop :=
  after = before ∨ ∃ place, before.item? place ≠ some .folder ∧ after.item? place ≠ some .folder ∧
    ∀ other, other ≠ place → after.item? other = before.item? other

theorem oneFileApart_put (free : directory.item? place ≠ some .folder) (text : String) :
    directory.OneFileApart (directory.put place (.file text)) := by
  have below : place.names ≠ [] := fun root => free (folder_of_root root directory)
  refine .inr ⟨place, free, ?_, ?_⟩
  · rw [item?_put directory place place _ below, if_pos rfl]
    simp
  · intro other apart
    by_cases root : other.names = []
    · rw [folder_of_root root, folder_of_root root]
    · rw [item?_put directory place other _ root, if_neg apart]

theorem oneFileApart_remove (found : directory.item? place = some item) (isFile : item.isFile) :
    directory.OneFileApart (directory.remove place) := by
  have free : directory.item? place ≠ some .folder := by
    rintro folder
    rw [found] at folder
    rw [Option.some.inj folder] at isFile
    contradiction
  have below : place.names ≠ [] := fun root => free (folder_of_root root directory)
  refine .inr ⟨place, free, ?_, ?_⟩
  · rw [item?_remove directory place place below, if_pos rfl]
    simp
  · intro other apart
    by_cases root : other.names = []
    · rw [folder_of_root root, folder_of_root root]
    · rw [item?_remove directory place other root, if_neg apart]

/-- A text is written into the file to which the path leads, where there is neither a folder nor a locked file. -/
theorem write_eq_ok : directory.write path text = .ok after ↔ ∃ place, directory.locate path = .ok place ∧
    directory.item? place ≠ some .folder ∧ directory.item? place ≠ some .locked ∧
      after = directory.put place (.file text) := by
  unfold write
  cases directory.locate path with
  | error fault => simp
  | ok place =>
    dsimp only
    split
    · rename_i folder
      simp [folder]
    · rename_i locked
      simp [locked]
    · rename_i folder locked
      simp_all [eq_comm]

theorem oneFileApart_write (written : directory.write path text = .ok after) : directory.OneFileApart after := by
  obtain ⟨place, _, free, _, rfl⟩ := write_eq_ok.mp written
  exact oneFileApart_put free text

theorem item?_of_find? (found : directory.find? path = .ok (some (place, item))) :
    directory.item? place = some item ∧ item.isFile = true := by
  unfold find? at found
  split at found
  · rename_i there _
    rw [Except.ok.injEq, Option.map_eq_some_iff] at found
    obtain ⟨content, lies, same⟩ := found
    obtain ⟨rfl, rfl⟩ := Prod.mk.inj same
    exact Option.filter_eq_some_iff.mp lies
  · contradiction
  · simp at found

theorem item?_of_id {store : Store} {id : String} (found : store.file? id = .ok (some (place, item))) :
    store.directory.item? place = some item ∧ item.isFile = true :=
  item?_of_find? (mapError_eq_ok.mp found)

end Directory

namespace Service

/-! Refusals -/

def Response.IsRefusal (response : Response) : Prop := 400 ≤ response.status ∧ response.status < 500

variable (framework : Framework)

/-- A reply is delivered with its own status, or not at all. -/
theorem deliver_document_status (manner : Manner) (status : Nat) (content : Json) :
    (framework.deliver (.document manner status content)).status = status ∨
      (framework.deliver (.document manner status content)).status = 500 := by
  unfold Framework.deliver
  dsimp only
  split
  · exact .inl rfl
  · exact .inr rfl

theorem deliver_answerRecord_status (status : Nat) (value : Json) :
    (framework.deliver (answerRecord status value)).status = status ∨
      (framework.deliver (answerRecord status value)).status = 500 := by
  unfold answerRecord
  split
  · exact deliver_document_status framework .modelled status _
  · exact .inr rfl

/-! Requests that save something -/

/-- A request for a new flow, a change to a flow or its removal. Behind a fixed path a line feed makes no
difference. -/
inductive Request.Saves (request : Request) : Prop where
  | create : request.method = "POST" →
      request.target.path = ["", "api", "flows"] ∨ request.target.path = ["", "api", "flows\n"] → Saves request
  | change (id : String) : request.method = "PUT" → request.target.path = ["", "api", "flows", id] →
      Saves request
  | delete (id : String) : request.method = "DELETE" → request.target.path = ["", "api", "flows", id] →
      Saves request

theorem eq_of_withoutLineFeed {path : List String} (same : withoutLineFeed path = ["flows"]) :
    path = ["flows"] ∨ path = ["flows\n"] := by
  unfold withoutLineFeed at same
  split at same
  · rename_i rest last
    obtain ⟨segment, found, reversed⟩ := Option.map_eq_some_iff.mp last
    obtain ⟨front, rfl⟩ := List.getLast?_eq_some_iff.mp found
    rw [List.dropLast_concat, ← List.nil_append ["flows"]] at same
    obtain ⟨rfl, tail⟩ := List.append_inj' same rfl
    have letters : rest.reverse = "flows".toList := by
      rw [← String.toList_ofList (l := rest.reverse), List.singleton_inj.mp tail]
    have whole : segment.toList = "flows\n".toList := by
      rw [← List.reverse_reverse segment.toList, reversed, List.reverse_cons, letters]
      rfl
    rw [String.toList_injective whole]
    exact .inr rfl
  · exact .inl same

theorem create_of_fixedEndpoint {method : String} {path : List String}
    (offers : fixedEndpoint? method path = some .createFlow) : method = "POST" ∧ path = ["flows"] := by
  unfold fixedEndpoint? at offers
  split at offers <;> simp_all

theorem ne_of_fixedEndpoint {method id : String} {path : List String} :
    fixedEndpoint? method path ≠ some (.changeFlow id) ∧
      fixedEndpoint? method path ≠ some (.deleteFlow id) := by
  unfold fixedEndpoint?
  split <;> simp

theorem flowEndpoint_eq_some {method id : String} {endpoint : Endpoint}
    (offers : flowEndpoint? method id = some endpoint) :
    (method = "GET" ∧ endpoint = .getFlow id) ∨ (method = "PUT" ∧ endpoint = .changeFlow id) ∨
      (method = "DELETE" ∧ endpoint = .deleteFlow id) := by
  unfold flowEndpoint? at offers
  split at offers
  · contradiction
  · split at offers <;> simp_all

theorem endpoint?_eq_some {method : String} {path : List String} {endpoint : Endpoint}
    (offers : endpoint? method path = some endpoint) :
    ∃ below, path = "" :: "api" :: below ∧ (fixedEndpoint? method (withoutLineFeed below) = some endpoint ∨
      ∃ id, below = ["flows", id] ∧ flowEndpoint? method id = some endpoint) := by
  unfold endpoint? at offers
  split at offers
  · rename_i below
    refine ⟨below, rfl, ?_⟩
    unfold endpointBelow? at offers
    rw [Option.or_eq_some_iff] at offers
    rcases offers with fixed | ⟨_, flow⟩
    · exact .inl fixed
    · split at flow
      · exact .inr ⟨_, rfl, flow⟩
      · contradiction
  · contradiction

theorem destination_eq_endpoint {method : String} {path : List String} {endpoint : Endpoint} :
    destination method path = .endpoint endpoint ↔ endpoint? method path = some endpoint := by
  unfold destination
  cases endpoint? method path with
  | some other => simp
  | none =>
    simp only [reduceCtorEq, iff_false]
    cases isKnown path <;> cases isKnown (Target.trimmed path) <;> simp

namespace Request

variable {request : Request} {id : String}

/-- Where the endpoint of a request lies. -/
def AsksFor (request : Request) (endpoint : Endpoint) : Prop :=
  destination request.method request.target.path = .endpoint endpoint

theorem AsksFor.unique {endpoint other : Endpoint} (asks : request.AsksFor endpoint)
    (asksOther : request.AsksFor other) : endpoint = other :=
  Destination.endpoint.inj (asks.symm.trans asksOther)

theorem saves_of_createFlow (asks : request.AsksFor .createFlow) : request.Saves := by
  obtain ⟨below, path, fixed | ⟨id, _, flow⟩⟩ := endpoint?_eq_some (destination_eq_endpoint.mp asks)
  · obtain ⟨method, plain⟩ := create_of_fixedEndpoint fixed
    refine .create method ?_
    rw [path]
    rcases eq_of_withoutLineFeed plain with rfl | rfl
    · exact .inl rfl
    · exact .inr rfl
  · rcases flowEndpoint_eq_some flow with ⟨_, other⟩ | ⟨_, other⟩ | ⟨_, other⟩ <;> contradiction

theorem saves_of_changeFlow (asks : request.AsksFor (.changeFlow id)) : request.Saves := by
  obtain ⟨below, path, fixed | ⟨other, rfl, flow⟩⟩ := endpoint?_eq_some (destination_eq_endpoint.mp asks)
  · exact absurd fixed ne_of_fixedEndpoint.1
  · rcases flowEndpoint_eq_some flow with ⟨_, same⟩ | ⟨method, _⟩ | ⟨_, same⟩
    · contradiction
    · exact .change other method path
    · contradiction

theorem saves_of_deleteFlow (asks : request.AsksFor (.deleteFlow id)) : request.Saves := by
  obtain ⟨below, path, fixed | ⟨other, rfl, flow⟩⟩ := endpoint?_eq_some (destination_eq_endpoint.mp asks)
  · exact absurd fixed ne_of_fixedEndpoint.2
  · rcases flowEndpoint_eq_some flow with ⟨_, same⟩ | ⟨_, same⟩ | ⟨method, _⟩
    · contradiction
    · contradiction
    · exact .delete other method path

end Request

/-! Effects -/

/-- The record of a new flow. -/
def NewFlow.record (flow : NewFlow) (id now : String) : Fields :=
  Store.newRecord id now (.str flow.name) (textOrNull flow.description)
    (.arr (GraphForm.nodeDumps flow.nodes)) (.arr (GraphForm.edgeDumps flow.edges))

/-- What becomes of the files of a store, with the status of the response. -/
inductive Effect (framework : Framework) (store : Store) (request : Request) : Directory → Nat → Prop where
  | nothing (status : Nat) : Effect framework store request store.directory status
  | created {flow : NewFlow} {graph : Graph} {after : Directory} {status : Nat}
      (asks : request.AsksFor .createFlow)
      (read : request.read framework (checkBody (Schema.record NewFlow.read)) = .ok flow)
      (builds : GraphForm.toGraph ⟨flow.nodes, flow.edges⟩ = .ok graph)
      (flat : (Json.obj (flow.record store.ids.next store.clock.next)).depth ≤ store.limits.writing)
      (written : store.directory.write (Store.path store.ids.next)
        (Json.obj (flow.record store.ids.next store.clock.next)).pretty = .ok after)
      (success : status = 201 ∨ status = 500) : Effect framework store request after status
  | changed {id : String} {change : FlowChange} {record : Fields} {key nodes edges : Json} {graph : Graph}
      {after : Directory} {status : Nat} (asks : request.AsksFor (.changeFlow id))
      (read : request.read framework (checkBody (Schema.record FlowChange.read)) = .ok change)
      (found : store.get? id = .ok (some (.obj record)))
      (halves : changedGraph? change.toFields (.obj record) = some (nodes, edges))
      (builds : Graph.ofValues nodes edges = .ok graph)
      (own : (Store.changedRecord record change.toFields store.clock.next).get? "id" = some key)
      (flat : (Json.obj (Store.changedRecord record change.toFields store.clock.next)).depth ≤
        store.limits.writing)
      (written : store.directory.write (Store.path key.bare)
        (Json.obj (Store.changedRecord record change.toFields store.clock.next)).pretty = .ok after)
      (success : status = 200 ∨ status = 500) : Effect framework store request after status
  | removed {id : String} {place : Location} {item : DirectoryItem} (asks : request.AsksFor (.deleteFlow id))
      (found : store.file? id = .ok (some (place, item))) :
      Effect framework store request (store.directory.remove place) 204

variable {framework : Framework} {store : Store} {request : Request}

/-- A pair of store and reply is an effect of the request. -/
abbrev Outcome (framework : Framework) (store : Store) (request : Request) (outcome : Store × Reply) : Prop :=
  Effect framework store request outcome.1.directory (framework.deliver outcome.2).status

theorem outcome_createFlow {depth : Nat} {flow : NewFlow} (asks : request.AsksFor .createFlow)
    (read : request.read framework (checkBody (Schema.record NewFlow.read)) = .ok flow) :
    Outcome framework store request (createFlow depth store flow) := by
  unfold createFlow
  cases builds : GraphForm.toGraph ⟨flow.nodes, flow.edges⟩ with
  | error fault => exact .nothing _
  | ok graph =>
    dsimp only [Store.create, Store.write]
    by_cases deep : store.limits.writing < (Json.obj (flow.record store.ids.next store.clock.next)).depth
    · rw [NewFlow.record] at deep
      rw [if_pos deep]
      exact .nothing _
    · cases written : store.directory.write (Store.path store.ids.next)
          (Json.obj (flow.record store.ids.next store.clock.next)).pretty with
      | error fault =>
        rw [NewFlow.record] at deep written
        rw [if_neg deep, written]
        exact .nothing _
      | ok after =>
        have saved := written
        have flat := Nat.le_of_not_lt deep
        rw [NewFlow.record] at deep saved
        rw [if_neg deep, saved]
        exact .created asks read builds flat written (deliver_answerRecord_status framework 201 _)

theorem outcome_saveChanges {id : String} {change : FlowChange} {current nodes edges : Json} {graph : Graph}
    (asks : request.AsksFor (.changeFlow id))
    (read : request.read framework (checkBody (Schema.record FlowChange.read)) = .ok change)
    (found : store.get? id = .ok (some current))
    (halves : changedGraph? change.toFields current = some (nodes, edges))
    (builds : Graph.ofValues nodes edges = .ok graph) :
    Outcome framework store request (saveChanges store id change.toFields) := by
  cases current with
  | obj record =>
    unfold saveChanges
    simp only [Store.update, found]
    cases own : (Store.changedRecord record change.toFields store.clock.next).get? "id" with
    | none => exact .nothing _
    | some key =>
      simp only [Store.write]
      by_cases deep : store.limits.writing <
          (Json.obj (Store.changedRecord record change.toFields store.clock.next)).depth
      · rw [if_pos deep]
        exact .nothing _
      · rw [if_neg deep]
        cases written : store.directory.write (Store.path key.bare)
            (Json.obj (Store.changedRecord record change.toFields store.clock.next)).pretty with
        | error fault => exact .nothing _
        | ok after =>
          exact .changed asks read found halves builds own (Nat.le_of_not_lt deep) written
            (deliver_answerRecord_status framework 200 _)
  | _ => contradiction

theorem outcome_changeFlow {depth : Nat} {id : String} {change : FlowChange} (asks : request.AsksFor (.changeFlow id))
    (read : request.read framework (checkBody (Schema.record FlowChange.read)) = .ok change) :
    Outcome framework store request (changeFlow depth store id change) := by
  unfold changeFlow
  split
  · exact .nothing _
  · exact .nothing _
  · rename_i current found
    split
    · exact .nothing _
    · rename_i nodes edges halves
      split
      · rename_i graph builds
        exact outcome_saveChanges asks read found halves builds
      · exact .nothing _
      · exact .nothing _

theorem outcome_deleteFlow {id : String} (asks : request.AsksFor (.deleteFlow id)) :
    Outcome framework store request (deleteFlow store id) := by
  unfold deleteFlow Store.delete
  cases found : store.file? id with
  | error fault => exact .nothing _
  | ok file =>
    cases file with
    | none => exact .nothing _
    | some file => exact .removed asks found

theorem outcome_storing {α : Type} {check : Option Json → Checked α} {act : α → Store × Reply}
    (acts : ∀ value, request.read framework check = .ok value → Outcome framework store request (act value)) :
    Outcome framework store request (storing framework store request check act) := by
  unfold storing
  cases read : request.read framework check with
  | error response => exact .nothing _
  | ok value => exact acts value read

theorem outcome_replyAt {endpoint : Endpoint} (asks : request.AsksFor endpoint) :
    Outcome framework store request (replyAt framework store request endpoint) := by
  cases endpoint with
  | createFlow => exact outcome_storing fun _ read => outcome_createFlow asks read
  | changeFlow id => exact outcome_storing fun _ read => outcome_changeFlow asks read
  | deleteFlow id => exact outcome_deleteFlow asks
  | _ => exact .nothing _

theorem outcome_reply (framework : Framework) (store : Store) (request : Request) :
    Outcome framework store request (reply framework store request) := by
  unfold reply
  split
  · rename_i endpoint asks
    exact outcome_replyAt asks
  · exact .nothing _
  · exact .nothing _
  · exact .nothing _

theorem outcome_serve (framework : Framework) (store : Store) (request : Request) :
    Effect framework store request (serve framework store request).1.directory
      (serve framework store request).2.status := by
  have full := outcome_reply framework store request
  unfold serve
  by_cases head : request.method = "HEAD" <;> simpa [head, Response.withoutBody] using full

/-! The frame of a request -/

theorem Effect.directory_eq {after : Directory} {status : Nat} (effect : Effect framework store request after status)
    (harmless : (400 ≤ status ∧ status < 500) ∨ ¬ request.Saves) : after = store.directory := by
  cases effect with
  | nothing => rfl
  | created asks _ _ _ _ success =>
    have saves := Request.saves_of_createFlow asks
    rcases harmless with refused | idle
    · omega
    · contradiction
  | changed asks _ _ _ _ _ _ _ success =>
    have saves := Request.saves_of_changeFlow asks
    rcases harmless with refused | idle
    · omega
    · contradiction
  | removed asks =>
    have saves := Request.saves_of_deleteFlow asks
    rcases harmless with refused | idle
    · omega
    · contradiction

theorem Effect.oneFileApart {after : Directory} {status : Nat}
    (effect : Effect framework store request after status) : store.directory.OneFileApart after := by
  cases effect with
  | nothing => exact .inl rfl
  | created _ _ _ _ written => exact Directory.oneFileApart_write written
  | changed _ _ _ _ _ _ _ written => exact Directory.oneFileApart_write written
  | removed _ found =>
    obtain ⟨there, isFile⟩ := Directory.item?_of_id found
    exact Directory.oneFileApart_remove there isFile

/-- A request that is refused leaves all files as they are, and so does one that saves nothing. No request
touches more than one file, whatever lies in the directory. -/
theorem serve_frame (framework : Framework) (store : Store) (request : Request) :
    ((serve framework store request).2.IsRefusal ∨ ¬ request.Saves →
        (serve framework store request).1.directory = store.directory) ∧
      store.directory.OneFileApart (serve framework store request).1.directory := by
  have effect := outcome_serve framework store request
  exact ⟨effect.directory_eq, effect.oneFileApart⟩

/-- A record beside a file that cannot be read and a folder that is named like a file. -/
def crowdedStore : Store where
  directory :=
    ⟨[(.named "welcome.json", .file (Json.obj (Store.newRecord "welcome" "day 0" (.str "Welcome") .null
          (.arr []) (.arr []))).pretty),
        (.named "broken.json", .file "\x7b"), (.named "old.json", .folder)], by decide⟩
  ids := ⟨fun count => "flow-" ++ toString count, 0⟩
  clock := ⟨fun count => "day " ++ toString count, 1⟩
  limits := ⟨900, 900⟩

/-- A change by which a node would get no name. -/
def namelessRequest : Request := .ofTexts "put" "/api/flows/welcome"
  (Json.obj [("name", .str "Hello"),
    ("nodes", .arr [.obj [("id", .str ""), ("type", .str "condition")]])]).compact

theorem serve_frame_nameless :
    (serve .usual crowdedStore namelessRequest).2.status = 400 ∧
      (serve .usual crowdedStore namelessRequest).1.directory = crowdedStore.directory := by
  have status : (serve .usual crowdedStore namelessRequest).2.status = 400 := by decide +kernel
  have refused : (serve .usual crowdedStore namelessRequest).2.IsRefusal := by
    rw [Response.IsRefusal, status]
    decide
  exact ⟨status, (serve_frame _ _ _).1 (.inl refused)⟩

end Service

end OutreachFlow
