import OutreachFlow.Proofs.Graph.Lookup
import OutreachFlow.Proofs.Import.Reading
import OutreachFlow.Session.Command

/-! What a command can do to a session. Whatever is asked, the session stays as it is or changes in
one of nine ways, each under conditions that were checked before. Invariants of sessions are
invariants of these changes. -/
namespace OutreachFlow

/-- The edge id that a command draws, if it draws one. -/
def Workspace.drawnEdgeId? (workspace : Workspace) (command : Command) : Option String :=
  match command with
  | .connect .. => if workspace.draws command then some ("edge-" ++ workspace.ids.next) else none
  | _ => none

/-- The form that a command imports, if it imports one. -/
def Workspace.importedForm? (workspace : Workspace) : Command → Option Json
  | .importPlan form => some form
  | .reimport => some (workspace.session.graph.compile workspace.session.entry).toJson
  | _ => none

namespace Session

/-- The session with a node more. -/
def withNode (session : Session) (node : Node) : Session :=
  { session with graph := { session.graph with nodes := session.graph.nodes ++ [node] } }

/-- The session without the first edge with an id. -/
def withoutEdge (session : Session) (id : String) : Session :=
  { session with
    graph := { session.graph with edges := session.graph.edges.eraseP fun edge => edge.id = id } }

/-- The session without a node and its edges. -/
def withoutNode (session : Session) (id : String) : Session :=
  ⟨session.graph.erase id, if isEntry session.entry id then none else session.entry⟩

/-- The sessions that a command can leave. -/
inductive Step (workspace : Workspace) (command : Command) : Session → Prop where
  | same : Step workspace command workspace.session
  | add {node : Node} (fresh : workspace.session.graph.has node.id = false)
      (named : node.id ≠ "" ∨ node.id = workspace.ids.next) :
      Step workspace command (workspace.session.withNode node)
  | replace {old new : Node} (member : workspace.session.graph.node? old.id = some old)
      (id : new.id = old.id) (kind : new.kind = old.kind) :
      Step workspace command { workspace.session with graph := workspace.session.graph.replace new }
  | erase (id : String) : Step workspace command (workspace.session.withoutNode id)
  | connect {edge : Edge} {source target : Node}
      (leaves : workspace.session.graph.node? edge.source = some source)
      (arrives : workspace.session.graph.node? edge.target = some target)
      (allowed : refusal? source target workspace.session.entry = none)
      (room : workspace.session.conflict? source target = none)
      (unused : workspace.drawnEdgeId? command = some edge.id ∨
        ∀ other ∈ workspace.session.graph.edges, other.id ≠ edge.id) :
      Step workspace command (workspace.session.addEdge edge)
  | disconnect (id : String) : Step workspace command (workspace.session.withoutEdge id)
  | start {node : Node} (member : workspace.session.graph.node? node.id = some node)
      (eligible : ineligibility? node (workspace.session.graph.incoming node.id) = none) :
      Step workspace command { workspace.session with entry := some node.id }
  | clear : Step workspace command workspace.session.clearEntry
  | reset : Step workspace command .empty
  | load {form : Json} {flow : Flow} (imported : Flow.ofJson form = .ok flow)
      (asked : workspace.importedForm? command = some form) :
      Step workspace command ⟨cleaned flow, some flow.entry⟩

/-! Operations that succeed -/

variable {session after : Session} {node : Node} {id : String}

theorem node_eq_ok : session.node id = .ok node ↔ session.graph.node? id = some node := by
  unfold Session.node
  cases session.graph.node? id <;> simp

theorem id_of_node? {graph : Graph} (found : graph.node? id = some node) : node.id = id := by
  simpa using List.find?_some found

theorem addNode_eq_ok :
    session.addNode node = .ok after ↔
      session.graph.has node.id = false ∧ session.withNode node = after := by
  unfold addNode withNode
  cases session.graph.has node.id <;> simp

theorem kind_of_readData {kind : NodeKind} {value : Json} {payload : Payload}
    (read : readData kind value = .ok payload) : payload.kind = kind := by
  unfold readData at read
  split at read
  · exact Payload.kind_of_ofData (mapError_eq_ok.mp read)
  · split at read
    · rename_i condition
      rw [condition, ← Except.ok.inj read]
      rfl
    · contradiction

theorem setPayload_eq_ok {payload : Payload} {new : Node}
    (done : session.setPayload id payload = .ok (after, new)) :
    ∃ old, session.graph.node? id = some old ∧ new = { old with payload := payload } ∧
      { session with graph := session.graph.replace new } = after := by
  simp only [setPayload, bind_eq_ok, node_eq_ok, pure, Except.pure, Except.ok.injEq,
    Prod.mk.injEq] at done
  obtain ⟨old, found, same, rfl⟩ := done
  exact ⟨old, found, rfl, same⟩

theorem updateData_eq_ok {data : Json} {new : Node}
    (done : session.updateData id data = .ok (after, new)) :
    ∃ old, session.graph.node? id = some old ∧ new.id = old.id ∧ new.kind = old.kind ∧
      { session with graph := session.graph.replace new } = after := by
  obtain ⟨payload, read, set⟩ := bind_eq_ok.mp done
  obtain ⟨old, found, rfl, same⟩ := setPayload_eq_ok set
  rw [found] at read
  exact ⟨old, found, rfl, kind_of_readData read, same⟩

theorem moveNode_eq_ok {position : Position} {new : Node}
    (done : session.moveNode id position = .ok (after, new)) :
    ∃ old, session.graph.node? id = some old ∧ new.id = old.id ∧ new.kind = old.kind ∧
      { session with graph := session.graph.replace new } = after := by
  simp only [moveNode, bind_eq_ok, node_eq_ok, pure, Except.pure, Except.ok.injEq,
    Prod.mk.injEq] at done
  obtain ⟨old, found, same, rfl⟩ := done
  exact ⟨old, found, rfl, rfl, same⟩

theorem deleteNode_eq_ok (done : session.deleteNode id = .ok after) :
    session.withoutNode id = after := by
  simp only [deleteNode, bind_eq_ok, pure, Except.pure, Except.ok.injEq] at done
  obtain ⟨_, _, same⟩ := done
  exact same

theorem disconnect_eq_ok {edge : Edge} (done : session.disconnect id = .ok (after, edge)) :
    session.withoutEdge id = after := by
  unfold disconnect at done
  split at done
  · contradiction
  · exact (Prod.mk.inj (Except.ok.inj done)).1

theorem setEntry_eq_ok (done : session.setEntry id = .ok after) :
    ∃ node, session.graph.node? id = some node ∧
      ineligibility? node (session.graph.incoming id) = none ∧
      { session with entry := some node.id } = after := by
  simp only [setEntry, bind_eq_ok, node_eq_ok, mapError_eq_ok, pure, Except.pure,
    Except.ok.injEq] at done
  obtain ⟨node, found, entry, entered, same⟩ := done
  unfold entryAt at entered
  split at entered
  · contradiction
  · rename_i eligible
    exact ⟨node, found, eligible, Except.ok.inj entered ▸ same⟩

theorem ensureAllowed_eq_ok {source target : Node} {entry : Option String} {done : Unit} :
    ensureAllowed source target entry = .ok done ↔ refusal? source target entry = none := by
  unfold ensureAllowed
  cases refusal? source target entry <;> simp

theorem ensureConnectable_eq_ok {source target : String} {edgeId : Option String} {done : Unit} :
    session.ensureConnectable source target edgeId = .ok done ↔
      ∃ first second, session.graph.node? source = some first ∧ session.graph.node? target = some second ∧
        refusal? first second session.entry = none ∧ session.conflict? first second = none ∧
        session.edgeIdConflict? edgeId = none := by
  simp only [ensureConnectable, bind_eq_ok, node_eq_ok, ensureAllowed_eq_ok]
  constructor
  · rintro ⟨first, leaves, second, arrives, _, allowed, passed⟩
    split at passed
    · contradiction
    · rename_i none
      simp only [Option.or_eq_none_iff] at none
      exact ⟨first, second, leaves, arrives, allowed, none.1, none.2⟩
  · rintro ⟨first, second, leaves, arrives, allowed, room, free⟩
    refine ⟨first, leaves, second, arrives, (), allowed, ?_⟩
    rw [room, free]
    rfl

theorem importPlan_eq_ok {form : Json} {warnings : List Warning} :
    importPlan form = .ok (after, warnings) ↔
      ∃ flow, Flow.ofJson form = .ok flow ∧ ⟨cleaned flow, some flow.entry⟩ = after ∧
        flow.warnings = warnings := by
  simp only [importPlan, bind_eq_ok, mapError_eq_ok, pure, Except.pure, Except.ok.injEq,
    Prod.mk.injEq]

end Session

/-! Commands that succeed -/

namespace Workspace

variable {workspace : Workspace} {after : Session} {answer : Answer}

theorem givenId?_eq_some {id : Option String} {given : String} :
    givenId? id = some given ↔ id = some given ∧ given ≠ "" := by
  cases id with
  | none => simp [givenId?]
  | some id =>
    by_cases empty : id = "" <;> simp only [givenId?, empty, if_true, if_false]
    · simp only [reduceCtorEq, Option.some.injEq, false_iff, not_and, not_not]
      exact Eq.symm
    · simp only [Option.some.injEq]
      constructor
      · rintro rfl
        exact ⟨rfl, empty⟩
      · exact fun both => both.1

theorem step_addNode {kind : Json} {id : Option String} {position data : Option Json}
    (done : workspace.addRead kind id position data = .ok (after, answer)) :
    Session.Step workspace (.addNode kind id position data) after := by
  simp only [addRead, addNode, bind_eq_ok, Session.addNode_eq_ok, pure, Except.pure, Except.ok.injEq,
    Prod.mk.injEq] at done
  obtain ⟨_, _, payload, _, _, ⟨fresh, rfl⟩, rfl, _⟩ := done
  refine .add fresh ?_
  cases given : givenId? id with
  | none => exact .inr rfl
  | some name => exact .inl (givenId?_eq_some.mp given).2

theorem step_connect {source target : String} {id : Option String} {sourceHandle targetHandle : Json}
    (done : workspace.connect source target id sourceHandle targetHandle = .ok (after, answer)) :
    Session.Step workspace (.connect source target id sourceHandle targetHandle) after := by
  simp only [connect, bind_eq_ok, pure, Except.pure, Except.ok.injEq, Prod.mk.injEq] at done
  obtain ⟨⟨⟩, ready, rfl, _⟩ := done
  obtain ⟨first, second, leaves, arrives, allowed, room, free⟩ :=
    Session.ensureConnectable_eq_ok.mp ready
  refine .connect leaves arrives allowed room ?_
  cases given : givenId? id with
  | none =>
    -- No id is requested, and nothing was refused, so one is drawn.
    have drawn : workspace.draws (.connect source target id sourceHandle targetHandle) = true := by
      simp [draws, given, ready, Except.toOption]
    left
    simp [drawnEdgeId?, drawn, requestedEdge, given]
  | some name =>
    obtain ⟨rfl, _⟩ := givenId?_eq_some.mp given
    right
    simpa [requestedEdge, given, Session.edgeIdConflict?] using free

/-- Whatever a command does is one of the known changes. -/
theorem step_of_perform {command : Command}
    (done : workspace.perform command = .ok (after, answer)) :
    Session.Step workspace command after := by
  cases command with
  | addNode kind id position data => exact step_addNode done
  | connect source target id sourceHandle targetHandle => exact step_connect done
  | updateData id data =>
    obtain ⟨⟨session, node⟩, changed, same⟩ := map_eq_ok.mp done
    obtain ⟨old, found, keeps, kind, rfl⟩ := Session.updateData_eq_ok changed
    obtain ⟨rfl, _⟩ := Prod.mk.inj same
    exact .replace (by rwa [Session.id_of_node? found]) keeps kind
  | moveNode id position =>
    obtain ⟨⟨session, node⟩, changed, same⟩ := map_eq_ok.mp done
    obtain ⟨old, found, keeps, kind, rfl⟩ := Session.moveNode_eq_ok changed
    obtain ⟨rfl, _⟩ := Prod.mk.inj same
    exact .replace (by rwa [Session.id_of_node? found]) keeps kind
  | deleteNode id =>
    obtain ⟨session, changed, same⟩ := map_eq_ok.mp done
    obtain rfl := Session.deleteNode_eq_ok changed
    obtain ⟨rfl, _⟩ := Prod.mk.inj same
    exact .erase id
  | disconnect id =>
    obtain ⟨⟨session, edge⟩, changed, same⟩ := map_eq_ok.mp done
    obtain rfl := Session.disconnect_eq_ok changed
    obtain ⟨rfl, _⟩ := Prod.mk.inj same
    exact .disconnect id
  | setEntry id =>
    obtain ⟨session, changed, same⟩ := map_eq_ok.mp done
    obtain ⟨node, found, eligible, rfl⟩ := Session.setEntry_eq_ok changed
    obtain ⟨rfl, _⟩ := Prod.mk.inj same
    obtain rfl := Session.id_of_node? found
    exact .start found eligible
  | clearEntry =>
    obtain ⟨rfl, _⟩ := Prod.mk.inj (Except.ok.inj done)
    exact .clear
  | reset =>
    obtain ⟨rfl, _⟩ := Prod.mk.inj (Except.ok.inj done)
    exact .reset
  | importPlan form =>
    obtain ⟨⟨session, warnings⟩, changed, same⟩ := map_eq_ok.mp done
    obtain ⟨flow, imported, rfl, _⟩ := Session.importPlan_eq_ok.mp changed
    obtain ⟨rfl, _⟩ := Prod.mk.inj same
    exact .load imported rfl
  | reimport =>
    obtain ⟨⟨session, warnings⟩, changed, same⟩ := map_eq_ok.mp done
    obtain ⟨flow, imported, rfl, _⟩ := Session.importPlan_eq_ok.mp changed
    obtain ⟨rfl, _⟩ := Prod.mk.inj same
    exact .load imported rfl
  | getNode _ | connectionRefusal _ _ | exportPlan _ =>
    obtain ⟨_, _, same⟩ := map_eq_ok.mp done
    obtain ⟨rfl, _⟩ := Prod.mk.inj same
    exact .same
  | nextStep _ | issues | dump =>
    obtain ⟨rfl, _⟩ := Prod.mk.inj (Except.ok.inj done)
    exact .same

/-- Also after a fault, since then the session is as it was. -/
theorem step_of_run (workspace : Workspace) (command : Command) :
    Session.Step workspace command (workspace.run command).1.session := by
  cases done : workspace.perform command with
  | ok result =>
    rw [run, done]
    exact step_of_perform done
  | error fault =>
    rw [run, done]
    exact .same

/-- Carries out commands one after the other, faults or not. -/
def runAll (workspace : Workspace) (commands : List Command) : Workspace :=
  commands.foldl (fun before command => (before.run command).1) workspace

theorem runAll_concat (workspace : Workspace) (done : List Command) (next : Command) :
    workspace.runAll (done ++ [next]) = ((workspace.runAll done).run next).1 := by
  rw [runAll, List.foldl_concat]
  rfl

/-- What every command of a run keeps in the place where it comes, the whole run keeps. -/
theorem runAll_keeps (holds : Workspace → Prop) {workspace : Workspace} {commands : List Command}
    (start : holds workspace)
    (step : ∀ index (bound : index < commands.length), holds (workspace.runAll (commands.take index)) →
      holds ((workspace.runAll (commands.take index)).run commands[index]).1) :
    holds (workspace.runAll commands) := by
  -- By induction on how many commands are done, since `step` finds each by its place.
  have all : ∀ count ≤ commands.length, holds (workspace.runAll (commands.take count)) := by
    intro count
    induction count with
    | zero => exact fun _ => start
    | succ index ih =>
      intro bound
      rw [List.take_succ_eq_append_getElem bound, runAll_concat]
      exact step index bound (ih (Nat.le_of_succ_le bound))
  simpa using all commands.length (Nat.le_refl _)

/-- The edge id that a command draws, if it draws one, is not in use. -/
def DrawsUnused (workspace : Workspace) (command : Command) : Prop :=
  ∀ id ∈ workspace.drawnEdgeId? command, ∀ edge ∈ workspace.session.graph.edges, edge.id ≠ id

/-- The supply of a workspace stays the same, however much is taken from it. -/
theorem run_text (workspace : Workspace) (command : Command) :
    (workspace.run command).1.ids.text = workspace.ids.text := by
  unfold run
  cases workspace.perform command <;> cases workspace.draws command <;> rfl

end Workspace

end OutreachFlow
