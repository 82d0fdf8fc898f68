import OutreachFlow.Proofs.Json.ReadBack
import OutreachFlow.Proofs.Service.Answers
import OutreachFlow.Proofs.Service.Bodies
import OutreachFlow.Proofs.Store.Refinement

/-! Flows that the service saves. Their nodes and edges are dumps of forms of which a graph was built before, so
the same holds of what a change makes of them, through any requests. -/
namespace OutreachFlow

open Service

/-! Flows that the service saves -/

namespace SavedFlow

/-- A flow as the service saves it. Its name may be null, which a change can bring about. -/
structure IsSound (flow : SavedFlow) : Prop where
  name : flow.name.IsOptionalText
  description : flow.description.IsOptionalText
  nodes : ∃ forms, flow.nodes = .arr (GraphForm.nodeDumps forms) ∧ (∀ form ∈ forms, form.IsStorable) ∧
    GraphForm.AreNodes forms
  edges : ∃ forms, flow.edges = .arr (GraphForm.edgeDumps forms)

variable {flow : SavedFlow} {id : String}

/-- A record can be stored if its parts can. -/
theorem storable_record : (flow.record id).Storable ↔
    flow.name.Storable ∧ flow.description.Storable ∧ flow.nodes.Storable ∧ flow.edges.Storable := by
  constructor
  · rintro (_ | _ | _ | _ | _ | ⟨_, all⟩)
    simp only [fields, List.forall_mem_cons] at all
    obtain ⟨_, name, description, nodes, edges, _⟩ := all
    exact ⟨name, description, nodes, edges⟩
  · rintro ⟨name, description, nodes, edges⟩
    refine .obj (by simp [fields]) ?_
    simp [fields, Json.Storable.str, name, description, nodes, edges]

theorem storable_of_optionalText {value : Json} (optional : value.IsOptionalText) : value.Storable := by
  rcases optional with rfl | ⟨text, rfl⟩
  · exact .null
  · exact .str text

theorem IsSound.storable (sound : flow.IsSound) (id : String) : (flow.record id).Storable := by
  have nodes : flow.nodes.Storable := by
    obtain ⟨forms, same, storable, _⟩ := sound.nodes
    rw [same]
    refine .arr fun item member => ?_
    obtain ⟨form, inside, rfl⟩ := List.mem_map.mp member
    exact (storable form inside).toJson
  have edges : flow.edges.Storable := by
    obtain ⟨forms, same⟩ := sound.edges
    rw [same]
    refine .arr fun item member => ?_
    obtain ⟨form, inside, rfl⟩ := List.mem_map.mp member
    exact form.storable_dump
  exact storable_record.mpr
    ⟨storable_of_optionalText sound.name, storable_of_optionalText sound.description, nodes, edges⟩

/-- What is stored of a sound flow is read as this flow. -/
theorem IsSound.readText (sound : flow.IsSound) {id : String} {limit : Nat} (flat : (flow.record id).depth ≤ limit) :
    Store.readText limit (flow.record id).pretty = .ok (flow.record id) :=
  Store.readText_pretty (sound.storable id) flat

/-- The graph of a sound flow can be built. -/
theorem IsSound.builds (sound : flow.IsSound) : ∃ graph, Graph.ofValues flow.nodes flow.edges = .ok graph := by
  obtain ⟨nodes, sameNodes, _, areNodes⟩ := sound.nodes
  obtain ⟨edges, sameEdges⟩ := sound.edges
  obtain ⟨graph, built⟩ := (@GraphForm.exists_ofLists nodes edges).mpr areNodes
  exact ⟨graph, by rw [sameNodes, sameEdges, ofValues_arr, built]; rfl⟩

end SavedFlow

/-! Changes -/

namespace Service.FlowChange

theorem get?_name (change : FlowChange) : change.toFields.get? "name" = change.name.map textOrNull := by
  simp [toFields]

theorem get?_description (change : FlowChange) :
    change.toFields.get? "description" = change.description.map textOrNull := by
  simp [toFields]

theorem get?_nodes (change : FlowChange) :
    change.toFields.get? "nodes" = change.nodes.map fun nodes => .arr (GraphForm.nodeDumps nodes) := by
  simp [toFields]

theorem get?_edges (change : FlowChange) :
    change.toFields.get? "edges" = change.edges.map fun edges => .arr (GraphForm.edgeDumps edges) := by
  simp [toFields]

/-- The nodes of a flow after a change: those that are given, else its own. -/
def nodesOr (change : FlowChange) (own : Json) : Json :=
  (change.nodes.map fun nodes => .arr (GraphForm.nodeDumps nodes)).getD own

def edgesOr (change : FlowChange) (own : Json) : Json :=
  (change.edges.map fun edges => .arr (GraphForm.edgeDumps edges)).getD own

theorem change_nodes (change : FlowChange) (flow : SavedFlow) (now : String) :
    (flow.change change.toFields now).nodes = change.nodesOr flow.nodes := by
  rw [SavedFlow.change, change.get?_nodes]
  rfl

theorem change_edges (change : FlowChange) (flow : SavedFlow) (now : String) :
    (flow.change change.toFields now).edges = change.edgesOr flow.edges := by
  rw [SavedFlow.change, change.get?_edges]
  rfl

end Service.FlowChange

namespace SavedFlow

variable {flow : SavedFlow} {given : FlowChange}

theorem optionalText_of_change {value : Json} (optional : value.IsOptionalText) (text : Option (Option String)) :
    ((text.map textOrNull).getD value).IsOptionalText := by
  match text with
  | none => exact optional
  | some none => exact .inl rfl
  | some (some text) => exact .inr ⟨text, rfl⟩

/-- A change leaves lists of forms, whichever halves it names. -/
theorem IsSound.forms_of_change (sound : flow.IsSound)
    (storable : ∀ nodes ∈ given.nodes, ∀ node ∈ nodes, node.IsStorable) (now : String) :
    (∃ forms, (flow.change given.toFields now).nodes = .arr (GraphForm.nodeDumps forms) ∧
      ∀ form ∈ forms, form.IsStorable) ∧
      ∃ forms, (flow.change given.toFields now).edges = .arr (GraphForm.edgeDumps forms) := by
  simp only [change, given.get?_nodes, given.get?_edges]
  constructor
  · cases named : given.nodes with
    | none =>
      obtain ⟨forms, same, kept, _⟩ := sound.nodes
      exact ⟨forms, same, kept⟩
    | some forms => exact ⟨forms, rfl, storable forms named⟩
  · cases given.edges with
    | none => exact sound.edges
    | some forms => exact ⟨forms, rfl⟩

/-- Both halves of a changed flow are lists, so only what they hold can be at fault. -/
theorem IsSound.ofValues_change (sound : flow.IsSound)
    (storable : ∀ nodes ∈ given.nodes, ∀ node ∈ nodes, node.IsStorable) (now : String) :
    (∃ graph, Graph.ofValues (flow.change given.toFields now).nodes
      (flow.change given.toFields now).edges = .ok graph) ∨
      ∃ fault, Graph.ofValues (flow.change given.toFields now).nodes
        (flow.change given.toFields now).edges = .error (.malformed fault) := by
  obtain ⟨⟨nodes, sameNodes, _⟩, edges, sameEdges⟩ := sound.forms_of_change storable now
  rw [sameNodes, sameEdges, ofValues_arr]
  cases Graph.ofLists (GraphForm.nodeDumps nodes) (GraphForm.edgeDumps edges) with
  | ok graph => exact .inl ⟨graph, rfl⟩
  | error fault => exact .inr ⟨fault, rfl⟩

/-- A changed flow is sound if its graph can be built. -/
theorem IsSound.change (sound : flow.IsSound)
    (storable : ∀ nodes ∈ given.nodes, ∀ node ∈ nodes, node.IsStorable) {now : String} {graph : Graph}
    (builds : Graph.ofValues (flow.change given.toFields now).nodes
      (flow.change given.toFields now).edges = .ok graph) : (flow.change given.toFields now).IsSound := by
  obtain ⟨⟨nodes, sameNodes, kept⟩, edges, sameEdges⟩ := sound.forms_of_change storable now
  rw [sameNodes, sameEdges, ofValues_arr] at builds
  refine ⟨?_, ?_, ⟨nodes, sameNodes, kept, ?_⟩, ⟨edges, sameEdges⟩⟩
  · rw [SavedFlow.change, given.get?_name]
    exact optionalText_of_change sound.name _
  · rw [SavedFlow.change, given.get?_description]
    exact optionalText_of_change sound.description _
  · exact GraphForm.exists_ofLists.mp ⟨graph, mapError_eq_ok.mp builds⟩

end SavedFlow

/-! Directories -/

namespace Store

/-- Which ids a place may hold the record of: those that are drawn, in every place to which they lead, and an id that
some place may hold the record of, likewise. -/
structure Placing (ids : Nat → String) (fits : Location → String → Prop) : Prop where
  drawn : ∀ (count : Nat) (directory : Directory) (place : Location),
    directory.locate (path (ids count)) = .ok place → fits place (ids count)
  again : ∀ (id : String) (directory : Directory) (place other : Location), fits other id →
    directory.locate (path id) = .ok place → fits place id

theorem placing_anywhere (ids : Nat → String) : Placing ids fun _ _ => True := ⟨by simp, by simp⟩

/-- The record of an id that is a plain name lies in the file of that id. -/
def InOwnFile (place : Location) (id : String) : Prop := IsPlain id ∧ place = .named (path id)

theorem placing_inOwnFile {ids : Nat → String} (plain : ∀ count, IsPlain (ids count)) : Placing ids InOwnFile where
  drawn count directory _ located :=
    ⟨plain count, (Except.ok.inj ((locate_path (plain count) directory).symm.trans located)).symm⟩
  again _ directory _ _ own located :=
    ⟨own.1, (Except.ok.inj ((locate_path own.1 directory).symm.trans located)).symm⟩

end Store

namespace Directory

variable {fits : Location → String → Prop} {limit : Nat} {directory after : Directory} {place : Location}
  {item : DirectoryItem} {text : String}

/-- Every item is a file with the record of a sound flow of no more than `limit` levels, in a place for it. -/
def HoldsFlows (fits : Location → String → Prop) (limit : Nat) (directory : Directory) : Prop :=
  ∀ entry ∈ directory.items, ∃ (flow : SavedFlow) (id : String), flow.IsSound ∧ (flow.record id).depth ≤ limit ∧
    fits entry.1 id ∧ entry.2 = .file (flow.record id).pretty

theorem holdsFlows_empty : HoldsFlows fits limit .empty := by simp [HoldsFlows, empty]

theorem mem_of_item? (found : directory.item? place = some item) (isFile : item.isFile = true) :
    (place, item) ∈ directory.items := by
  have below : place.names ≠ [] := by
    intro root
    rw [folder_of_root root] at found
    rw [← Option.some.inj found] at isFile
    contradiction
  exact (item?_eq_some below).mp found

theorem mem_of_file? {store : Store} {id : String} (there : store.file? id = .ok (some (place, item))) :
    (place, item) ∈ store.directory.items := by
  obtain ⟨found, isFile⟩ := item?_of_id there
  exact mem_of_item? found isFile

theorem HoldsFlows.write {flow : SavedFlow} {id : String} (holds : directory.HoldsFlows fits limit)
    (sound : flow.IsSound) (flat : (flow.record id).depth ≤ limit)
    (own : ∀ place, directory.locate (Store.path id) = .ok place → fits place id)
    (written : directory.write (Store.path id) (flow.record id).pretty = .ok after) :
    after.HoldsFlows fits limit := by
  obtain ⟨place, located, _, _, rfl⟩ := write_eq_ok.mp written
  rintro entry (_ | ⟨_, member⟩)
  · exact ⟨flow, id, sound, flat, own place located, rfl⟩
  · exact holds entry (List.mem_filter.mp member).1

theorem HoldsFlows.remove (holds : directory.HoldsFlows fits limit) (place : Location) :
    (directory.remove place).HoldsFlows fits limit := fun entry member =>
  holds entry (List.mem_filter.mp member).1

end Directory

namespace Store

variable {fits : Location → String → Prop} {limit : Nat} {store : Store} {id : String} {value : Json}

/-- What is found is read from some file. -/
theorem exists_text_of_get? (found : store.get? id = .ok (some value)) :
    ∃ place text, store.file? id = .ok (some (place, .file text)) ∧
      readText store.limits.reading text = .ok value := by
  obtain ⟨file, there, read⟩ := bind_eq_ok.mp found
  cases file with
  | none => exact absurd (Except.ok.inj read) (by simp)
  | some file =>
    obtain ⟨place, item⟩ := file
    have document : document? store.limits.reading item = .ok (some value) := read
    unfold document? at document
    split at document
    · exact absurd (Except.ok.inj document) (by simp)
    · rename_i content
      obtain ⟨text, rfl, readText⟩ := readItem_eq_ok.mp content
      exact ⟨place, text, there, by rw [readText, Option.some.inj (Except.ok.inj document)]⟩
    · contradiction

/-- A path that leads to a file leads to its place. -/
theorem locate_of_file? {place : Location} {item : DirectoryItem} (there : store.file? id = .ok (some (place, item))) :
    store.directory.locate (path id) = .ok place := by
  have found := mapError_eq_ok.mp there
  unfold Directory.find? at found
  split at found
  · rename_i located
    obtain ⟨_, _, same⟩ := Option.map_eq_some_iff.mp (Except.ok.inj found)
    exact (Prod.mk.inj same).1 ▸ located
  · contradiction
  · simp at found

/-- What is found in a store that holds flows is the record of a sound flow, in a place for it. -/
theorem exists_flow_of_get? (holds : store.directory.HoldsFlows fits limit) (roomy : limit ≤ store.limits.reading)
    (found : store.get? id = .ok (some value)) :
    ∃ (flow : SavedFlow) (key : String) (place : Location), flow.IsSound ∧ (flow.record key).depth ≤ limit ∧
      value = flow.record key ∧ store.directory.locate (path id) = .ok place ∧ fits place key := by
  obtain ⟨place, text, there, read⟩ := exists_text_of_get? found
  obtain ⟨flow, key, sound, flat, fit, same⟩ := holds _ (Directory.mem_of_file? there)
  rw [DirectoryItem.file.inj same, sound.readText (flat.trans roomy)] at read
  exact ⟨flow, key, place, sound, flat, (Except.ok.inj read).symm, locate_of_file? there, fit⟩

end Store

/-! Requests -/

namespace Service

/-- A new flow as it is saved. -/
def NewFlow.saved (flow : NewFlow) (now : String) : SavedFlow where
  name := .str flow.name
  description := textOrNull flow.description
  nodes := .arr (GraphForm.nodeDumps flow.nodes)
  edges := .arr (GraphForm.edgeDumps flow.edges)
  createdAt := now
  updatedAt := now

theorem NewFlow.isSound_saved {flow : NewFlow} {graph : Graph} (storable : ∀ node ∈ flow.nodes, node.IsStorable)
    (builds : GraphForm.toGraph ⟨flow.nodes, flow.edges⟩ = .ok graph) (now : String) :
    (flow.saved now).IsSound where
  name := .inr ⟨flow.name, rfl⟩
  description := by
    cases described : flow.description with
    | none => exact .inl (by rw [saved, described]; rfl)
    | some text => exact .inr ⟨text, by rw [saved, described]; rfl⟩
  nodes := ⟨flow.nodes, rfl, storable, GraphForm.exists_ofLists.mp ⟨graph, builds⟩⟩
  edges := ⟨flow.edges, rfl⟩

/-- The halves that are looked at are those that are saved. -/
theorem changedGraph?_record (flow : SavedFlow) (id : String) (changes : Fields) (now : String) :
    changedGraph? changes (flow.record id) =
      some ((flow.change changes now).nodes, (flow.change changes now).edges) := by
  simp [SavedFlow.record, changedGraph?, SavedFlow.fields, SavedFlow.change]

variable {framework : Framework} {fits : Location → String → Prop} {store : Store} {request : Request}

theorem Effect.holdsFlows {after : Directory} {status : Nat} (placing : Store.Placing store.ids.text fits)
    (roomy : store.limits.writing ≤ store.limits.reading)
    (holds : store.directory.HoldsFlows fits store.limits.writing)
    (effect : Effect framework store request after status) : after.HoldsFlows fits store.limits.writing := by
  cases effect with
  | nothing => exact holds
  | @created flow graph _ _ asks read builds flat written _ =>
    have sound := NewFlow.isSound_saved (Request.storable_newFlow read) builds store.clock.next
    exact holds.write sound flat (placing.drawn _ _) written
  | @changed id change record key nodes edges graph _ _ asks read found halves builds own flat written _ =>
    obtain ⟨flow, stored, place, sound, _, same, _, fit⟩ := Store.exists_flow_of_get? holds roomy found
    obtain rfl := Json.obj.inj same
    have looked := changedGraph?_record flow stored change.toFields store.clock.next
    obtain ⟨rfl, rfl⟩ := Prod.mk.inj (Option.some.inj (halves.symm.trans looked))
    rw [SavedFlow.changedRecord_fields] at written flat own
    obtain rfl : key = .str stored := by simpa [SavedFlow.fields, eq_comm] using own
    exact holds.write (sound.change (Request.storable_flowChange read) builds) flat
      (fun located there => placing.again _ _ _ _ fit there) written
  | removed => exact holds.remove _

/-! What stays through any request -/

theorem sameSources_storing {α : Type} {check : Option Json → Checked α} {act : α → Store × Reply}
    (acts : ∀ value, store.SameSources (act value).1) :
    store.SameSources (storing framework store request check act).1 := by
  unfold storing
  cases request.read framework check with
  | error reply => exact .refl store
  | ok value => exact acts value

theorem sameSources_createFlow (depth : Nat) (flow : NewFlow) :
    store.SameSources (createFlow depth store flow).1 := by
  have created := Store.SameSources.create store (.str flow.name) (textOrNull flow.description)
    (.arr (GraphForm.nodeDumps flow.nodes)) (.arr (GraphForm.edgeDumps flow.edges))
  unfold createFlow
  split
  · exact .refl store
  · split <;> simp_all

theorem sameSources_saveChanges (id : String) (changes : Fields) :
    store.SameSources (saveChanges store id changes).1 := by
  have updated := Store.SameSources.update store id changes
  unfold saveChanges
  split <;> simp_all

theorem sameSources_changeFlow (depth : Nat) (id : String) (change : FlowChange) :
    store.SameSources (changeFlow depth store id change).1 := by
  unfold changeFlow
  split
  · exact .refl store
  · exact .refl store
  · split
    · exact .refl store
    · split
      · exact sameSources_saveChanges id change.toFields
      · exact .refl store
      · exact .refl store

theorem sameSources_deleteFlow (id : String) : store.SameSources (deleteFlow store id).1 := by
  have deleted := Store.SameSources.delete store id
  unfold deleteFlow
  split <;> simp_all

theorem sameSources_serve (framework : Framework) (store : Store) (request : Request) :
    store.SameSources (serve framework store request).1 := by
  have full : store.SameSources (reply framework store request).1 := by
    unfold reply
    split
    · rename_i endpoint _
      cases endpoint with
      | createFlow => exact sameSources_storing (sameSources_createFlow _)
      | changeFlow id => exact sameSources_storing (sameSources_changeFlow _ id)
      | deleteFlow id => exact sameSources_deleteFlow id
      | _ => exact .refl store
    · exact .refl store
    · exact .refl store
    · exact .refl store
  exact full

/-- Answers requests one after the other. -/
def serveAll (framework : Framework) (store : Store) (requests : List Request) : Store :=
  requests.foldl (fun store request => (serve framework store request).1) store

theorem sameSources_serveAll (framework : Framework) (store : Store) (requests : List Request) :
    store.SameSources (serveAll framework store requests) := by
  induction requests generalizing store with
  | nil => exact .refl store
  | cons request rest ih => exact (sameSources_serve framework store request).trans (ih _)

theorem serveAll_holdsFlows {requests : List Request} (placing : Store.Placing store.ids.text fits)
    (roomy : store.limits.writing ≤ store.limits.reading)
    (holds : store.directory.HoldsFlows fits store.limits.writing) :
    (serveAll framework store requests).directory.HoldsFlows fits store.limits.writing := by
  induction requests generalizing store with
  | nil => exact holds
  | cons request rest ih =>
    have first := (outcome_serve framework store request).holdsFlows placing roomy holds
    have same := sameSources_serve framework store request
    rw [← same.ids] at placing
    rw [← same.limits] at roomy first ⊢
    exact ih placing roomy first

/-! Changes to flows -/

/-- A request for a change to a flow that is there, with a body that can be read. -/
structure Request.ChangesFlow (framework : Framework) (request : Request) (store : Store) (id : String)
    (change : FlowChange) (record : Fields) : Prop where
  asks : request.AsksFor (.changeFlow id)
  read : request.read framework (checkBody (Schema.record FlowChange.read)) = .ok change
  found : store.get? id = .ok (some (.obj record))

theorem serve_changeFlow {id : String} {change : FlowChange} {record : Fields}
    (changes : request.ChangesFlow framework store id change record) : serve framework store request =
      ((changeFlow framework.messageDepth store id change).1,
        framework.deliver (changeFlow framework.messageDepth store id change).2) := by
  rw [serve_of_asks changes.asks]
  simp [replyAt, storing, changes.read]

end Service

namespace Store

variable {store : Store} {id key : String} {flow : SavedFlow}

/-- A found flow is saved with its changes under its own id. -/
theorem update_record (found : store.get? id = .ok (some (flow.record key))) (changes : Fields) :
    store.update id changes =
      match ({ store with clock := store.clock.advance } : Store).write key
        ((flow.change changes store.clock.next).record key) with
      | .ok after => (after, .ok (some ((flow.change changes store.clock.next).record key)))
      | .error fault => ({ store with clock := store.clock.advance }, .error fault) := by
  have own : Fields.get? ((flow.change changes store.clock.next).fields key) "id" = some (.str key) := by
    simp [SavedFlow.fields]
  cases written : ({ store with clock := store.clock.advance } : Store).write key
    ((flow.change changes store.clock.next).record key) <;>
    · rw [SavedFlow.record] at written
      simp only [update, found, SavedFlow.record, SavedFlow.changedRecord_fields, own, Json.bare, written]

end Store

namespace Service

variable {depth : Nat} {store : Store} {id key : String} {flow : SavedFlow}

/-- A found flow is changed if the graph can be built that it would have. -/
theorem changeFlow_record (found : store.get? id = .ok (some (flow.record key))) (change : FlowChange) :
    changeFlow depth store id change =
      match Graph.ofValues (flow.change change.toFields store.clock.next).nodes
        (flow.change change.toFields store.clock.next).edges with
      | .ok _ => saveChanges store id change.toFields
      | .error (.malformed fault) => (store, refuseGraph depth fault)
      | .error .notWalkable => (store, .failure) := by
  have halves := changedGraph?_record flow key change.toFields store.clock.next
  cases built : Graph.ofValues (flow.change change.toFields store.clock.next).nodes
      (flow.change change.toFields store.clock.next).edges with
  | ok graph => simp only [changeFlow, found, halves, built]
  | error fault => cases fault <;> simp only [changeFlow, found, halves, built]

theorem saveChanges_record (found : store.get? id = .ok (some (flow.record key))) (changes : Fields) :
    saveChanges store id changes =
      match ({ store with clock := store.clock.advance } : Store).write key
        ((flow.change changes store.clock.next).record key) with
      | .ok after => (after, answerRecord 200 ((flow.change changes store.clock.next).record key))
      | .error _ => ({ store with clock := store.clock.advance }, .failure) := by
  rw [saveChanges, Store.update_record found]
  cases ({ store with clock := store.clock.advance } : Store).write key
    ((flow.change changes store.clock.next).record key) <;> rfl

end Service

end OutreachFlow
