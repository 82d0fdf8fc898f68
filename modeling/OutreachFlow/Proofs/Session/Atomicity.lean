import OutreachFlow.Proofs.Session.Steps
import OutreachFlow.Session.Marked

/-! Commands carried out one read and one write at a time. A procedure that meets a fault leaves
behind what it has written by then, so whether a fault changes anything is a matter of the order of
its steps: everything that can fail has to come before the first write. All commands are procedures
of that kind, and each of them does what `Workspace.run` says. -/
namespace OutreachFlow

/-- A procedure on a workspace. What it has written when it meets a fault stays written. -/
abbrev Procedure := EStateM SessionFault Workspace

namespace Procedure

variable {α β : Type}

/-! Single steps -/

/-- Looks at the session as it is by now. -/
def look (read : Session → α) : Procedure α := do return read (← get).session

/-- Goes on with a value, or stops at a fault. -/
def settle : Except SessionFault α → Procedure α
  | .ok value => pure value
  | .error fault => throw fault

def draw : Procedure String :=
  modifyGet fun workspace => (workspace.ids.next, { workspace with ids := workspace.ids.advance })

def writeNodes (change : List Node → List Node) : Procedure Unit :=
  modify fun workspace =>
    { workspace with session.graph.nodes := change workspace.session.graph.nodes }

def writeEdges (change : List Edge → List Edge) : Procedure Unit :=
  modify fun workspace =>
    { workspace with session.graph.edges := change workspace.session.graph.edges }

def writeEntry (change : Option String → Option String) : Procedure Unit :=
  modify fun workspace => { workspace with session.entry := change workspace.session.entry }

/-- Looks something up that may not be there, or may not be allowed. -/
def consult (read : Session → Except SessionFault α) : Procedure α := look read >>= settle

/-! Operations -/

def newId (id : Option String) : Procedure String :=
  match Workspace.givenId? id with
  | some id => pure id
  | none => draw

def insert (node : Node) : Procedure Answer := do
  consult fun session =>
    if session.graph.has node.id then .error (.nodeExists node.id) else .ok ()
  writeNodes fun nodes => nodes ++ [node]
  return .node node

/-- An id is drawn before the kind is looked at. -/
def addNode (kind : Json) (id : Option String) (position : Option Position)
    (payload : Option Payload) : Procedure Answer := do
  let id ← newId id
  let payload ← settle (Workspace.newPayload kind payload)
  insert ⟨id, payload, position.getD Position.origin⟩

/-- Data are read before anything is drawn. -/
def addRead (kind : Json) (id : Option String) (position data : Option Json) : Procedure Answer := do
  let payload ← settle (Workspace.givenPayload kind data)
  addNode kind id (position.map Position.ofJson) payload

def overwrite (node : Node) : Procedure Answer := do
  writeNodes fun nodes => nodes.map fun other => if other.id = node.id then node else other
  return .node node

def setPayload (id : String) (payload : Payload) : Procedure Answer := do
  let node ← consult fun session => session.node id
  overwrite { node with payload := payload }

def updateData (id : String) (data : Json) : Procedure Answer := do
  let kind ← look fun session => ((session.graph.node? id).map Node.kind).getD .action
  let payload ← settle (Session.readData kind data)
  setPayload id payload

def moveNode (id : String) (position : Position) : Procedure Answer := do
  let node ← consult fun session => session.node id
  overwrite { node with position := position }

def deleteNode (id : String) : Procedure Answer := do
  let _ ← consult fun session => session.node id
  writeEntry fun entry => if isEntry entry id then none else entry
  writeNodes fun nodes => nodes.filter fun node => node.id ≠ id
  writeEdges fun edges => edges.filter fun edge => edge.source ≠ id ∧ edge.target ≠ id
  return .nothing

def newEdgeId (id : Option String) : Procedure String :=
  match Workspace.givenId? id with
  | some id => pure id
  | none => do return "edge-" ++ (← draw)

def connect (source target : String) (id : Option String) (sourceHandle targetHandle : Json) :
    Procedure Answer := do
  consult fun session => session.ensureConnectable source target id
  let id ← newEdgeId id
  let edge : Edge := ⟨id, source, target, sourceHandle, targetHandle⟩
  writeEdges fun edges => edges ++ [edge]
  return .edge edge

def disconnect (id : String) : Procedure Answer := do
  let edge ← consult fun session =>
    match session.graph.edges.find? fun edge => edge.id = id with
    | some edge => .ok edge
    | none => .error (.unknownEdge id)
  writeEdges fun edges => edges.eraseP fun edge => edge.id = id
  return .edge edge

def setEntry (id : String) : Procedure Answer := do
  let node ← consult fun session => session.node id
  let entry ← consult fun session =>
    (entryAt node (session.graph.incoming id)).mapError .ineligible
  writeEntry fun _ => entry
  return .nothing

def reset : Procedure Answer := do
  writeNodes fun _ => []
  writeEdges fun _ => []
  writeEntry fun _ => none
  return .nothing

def exportPlan (strict : Bool) : Procedure Answer := do
  consult fun session =>
    if strict then (session.graph.ensureValid session.entry).mapError .invalidGraph else .ok ()
  return .plan (← look fun session => session.graph.compile session.entry)

def importPlan (form : Json) : Procedure Answer := do
  let flow ← settle ((Flow.ofJson form).mapError .importFailed)
  writeNodes fun _ => (Session.cleaned flow).nodes
  writeEdges fun _ => (Session.cleaned flow).edges
  writeEntry fun _ => some flow.entry
  return .warnings flow.warnings

/-- A command as a procedure. -/
def ofCommand : Command → Procedure Answer
  | .addNode kind id position data => addRead kind id position data
  | .getNode id => do return .node (← consult fun session => session.node id)
  | .updateData id data => updateData id data
  | .moveNode id position => moveNode id (Position.ofJson position)
  | .deleteNode id => deleteNode id
  | .connectionRefusal source target => do
    return .refusal (← consult fun session => session.connectionRefusal source target)
  | .connect source target id sourceHandle targetHandle =>
    connect source target id sourceHandle targetHandle
  | .disconnect id => disconnect id
  | .nextStep id => do return .nextStep (← look fun session => session.nextStep? id)
  | .setEntry id => setEntry id
  | .clearEntry => do
    writeEntry fun _ => none
    return .nothing
  | .reset => reset
  | .issues => do return .issues (← look Session.issues)
  | .exportPlan strict => exportPlan strict
  | .importPlan form => importPlan form
  | .reimport => do
    let plan ← look fun session => session.graph.compile session.entry
    importPlan plan.toJson
  | .dump => do return .graph (← look Session.graph)

/-! The order of the steps -/

variable {first : Procedure α} {rest : α → Procedure β}

/-- The workspace that a result leaves, with an answer or with a fault. -/
def left : EStateM.Result SessionFault Workspace α → Workspace
  | .ok _ workspace | .error _ workspace => workspace

/-- The procedure only reads: the session stays as it is, also after a fault. -/
def Reads (procedure : Procedure α) : Prop :=
  ∀ workspace, (left (procedure.run workspace)).session = workspace.session

/-- The procedure meets no fault, whatever it writes. -/
def Succeeds (procedure : Procedure α) : Prop :=
  ∀ workspace, ∃ value after, procedure.run workspace = .ok value after

/-- If the procedure meets a fault, the session is as it was. -/
def Atomic (procedure : Procedure α) : Prop :=
  ∀ workspace fault after, procedure.run workspace = .error fault after →
    after.session = workspace.session

theorem reads_pure (value : α) : Reads (pure value) := fun _ => rfl

theorem reads_look (read : Session → α) : Reads (look read) := fun _ => rfl

theorem reads_settle (outcome : Except SessionFault α) : Reads (settle outcome) := by
  cases outcome <;> exact fun _ => rfl

theorem reads_draw : Reads draw := fun _ => rfl

theorem reads_bind (before : Reads first) (behind : ∀ value, Reads (rest value)) :
    Reads (first >>= rest) := by
  intro workspace
  have kept := before workspace
  rw [EStateM.run_bind]
  cases ran : first.run workspace with
  | error fault after => rwa [ran] at kept
  | ok value after =>
    rw [ran] at kept
    exact (behind value after).trans kept

theorem reads_consult (read : Session → Except SessionFault α) : Reads (consult read) :=
  reads_bind (reads_look read) reads_settle

theorem succeeds_pure (value : α) : Succeeds (pure value) := fun workspace => ⟨value, workspace, rfl⟩

theorem succeeds_bind (before : Succeeds first) (behind : ∀ value, Succeeds (rest value)) :
    Succeeds (first >>= rest) := by
  intro workspace
  obtain ⟨value, after, ran⟩ := before workspace
  rw [EStateM.run_bind, ran]
  exact behind value after

theorem succeeds_writeNodes (change : List Node → List Node) : Succeeds (writeNodes change) :=
  fun _ => ⟨_, _, rfl⟩

theorem succeeds_writeEdges (change : List Edge → List Edge) : Succeeds (writeEdges change) :=
  fun _ => ⟨_, _, rfl⟩

theorem succeeds_writeEntry (change : Option String → Option String) :
    Succeeds (writeEntry change) := fun _ => ⟨_, _, rfl⟩

theorem Reads.atomic (reads : Reads first) : Atomic first := by
  intro workspace fault after failed
  have kept := reads workspace
  rwa [failed] at kept

theorem Succeeds.atomic (succeeds : Succeeds first) : Atomic first := by
  intro workspace fault after failed
  obtain ⟨value, last, ran⟩ := succeeds workspace
  rw [ran] at failed
  contradiction

/-- Reading may come before anything that is atomic. Nothing of the kind holds for writing. -/
theorem atomic_bind (before : Reads first) (behind : ∀ value, Atomic (rest value)) :
    Atomic (first >>= rest) := by
  intro workspace fault last failed
  have kept := before workspace
  rw [EStateM.run_bind] at failed
  cases ran : first.run workspace with
  | error fault after =>
    rw [ran] at failed kept
    obtain ⟨rfl, rfl⟩ := EStateM.Result.error.inj failed
    exact kept
  | ok value after =>
    rw [ran] at failed kept
    exact (behind value after fault last failed).trans kept

/-! Every command reads first and writes then -/

theorem reads_newId (id : Option String) : Reads (newId id) := by
  unfold newId
  split
  · exact reads_pure _
  · exact reads_draw

theorem reads_newEdgeId (id : Option String) : Reads (newEdgeId id) := by
  unfold newEdgeId
  split
  · exact reads_pure _
  · exact reads_bind reads_draw fun _ => reads_pure _

theorem atomic_insert (node : Node) : Atomic (insert node) :=
  atomic_bind (reads_consult _) fun _ =>
    (succeeds_bind (succeeds_writeNodes _) fun _ => succeeds_pure _).atomic

theorem atomic_overwrite (node : Node) : Atomic (overwrite node) :=
  (succeeds_bind (succeeds_writeNodes _) fun _ => succeeds_pure _).atomic

theorem atomic_addNode (kind : Json) (id : Option String) (position : Option Position)
    (payload : Option Payload) : Atomic (addNode kind id position payload) :=
  atomic_bind (reads_newId id) fun _ => atomic_bind (reads_settle _) fun _ => atomic_insert _

theorem atomic_addRead (kind : Json) (id : Option String) (position data : Option Json) :
    Atomic (addRead kind id position data) :=
  atomic_bind (reads_settle _) fun _ => atomic_addNode kind id _ _

theorem atomic_setPayload (id : String) (payload : Payload) : Atomic (setPayload id payload) :=
  atomic_bind (reads_consult _) fun _ => atomic_overwrite _

theorem atomic_updateData (id : String) (data : Json) : Atomic (updateData id data) :=
  atomic_bind (reads_look _) fun _ => atomic_bind (reads_settle _) fun _ => atomic_setPayload id _

theorem atomic_moveNode (id : String) (position : Position) : Atomic (moveNode id position) :=
  atomic_bind (reads_consult _) fun _ => atomic_overwrite _

theorem atomic_deleteNode (id : String) : Atomic (deleteNode id) := by
  refine atomic_bind (reads_consult _) fun _ => Succeeds.atomic ?_
  exact succeeds_bind (succeeds_writeEntry _) fun _ => succeeds_bind (succeeds_writeNodes _) fun _ =>
    succeeds_bind (succeeds_writeEdges _) fun _ => succeeds_pure _

theorem atomic_connect (source target : String) (id : Option String)
    (sourceHandle targetHandle : Json) :
    Atomic (connect source target id sourceHandle targetHandle) := by
  refine atomic_bind (reads_consult _) fun _ => atomic_bind (reads_newEdgeId id) fun _ => ?_
  exact (succeeds_bind (succeeds_writeEdges _) fun _ => succeeds_pure _).atomic

theorem atomic_disconnect (id : String) : Atomic (disconnect id) :=
  atomic_bind (reads_consult _) fun _ =>
    (succeeds_bind (succeeds_writeEdges _) fun _ => succeeds_pure _).atomic

theorem atomic_setEntry (id : String) : Atomic (setEntry id) :=
  atomic_bind (reads_consult _) fun _ => atomic_bind (reads_consult _) fun _ =>
    (succeeds_bind (succeeds_writeEntry _) fun _ => succeeds_pure _).atomic

theorem succeeds_reset : Succeeds reset :=
  succeeds_bind (succeeds_writeNodes _) fun _ => succeeds_bind (succeeds_writeEdges _) fun _ =>
    succeeds_bind (succeeds_writeEntry _) fun _ => succeeds_pure _

theorem reads_exportPlan (strict : Bool) : Reads (exportPlan strict) :=
  reads_bind (reads_consult _) fun _ => reads_bind (reads_look _) fun _ => reads_pure _

theorem atomic_importPlan (form : Json) : Atomic (importPlan form) := by
  refine atomic_bind (reads_settle _) fun _ => Succeeds.atomic ?_
  exact succeeds_bind (succeeds_writeNodes _) fun _ => succeeds_bind (succeeds_writeEdges _) fun _ =>
    succeeds_bind (succeeds_writeEntry _) fun _ => succeeds_pure _

end Procedure

/-- The command asks for something and changes nothing. -/
def Command.Asks : Command → Prop
  | getNode _ | connectionRefusal _ _ | nextStep _ | issues | exportPlan _ | dump => True
  | _ => False

namespace Procedure

theorem reads_ofCommand {command : Command} (asks : command.Asks) : Reads (ofCommand command) := by
  cases command with
  | getNode _ | connectionRefusal _ _ => exact reads_bind (reads_consult _) fun _ => reads_pure _
  | nextStep _ | issues | dump => exact reads_bind (reads_look _) fun _ => reads_pure _
  | exportPlan strict => exact reads_exportPlan strict
  | _ => contradiction

theorem atomic_ofCommand (command : Command) : Atomic (ofCommand command) := by
  cases command with
  | addNode kind id position data => exact atomic_addRead kind id position data
  | updateData id data => exact atomic_updateData id data
  | moveNode id position => exact atomic_moveNode id _
  | deleteNode id => exact atomic_deleteNode id
  | connect source target id sourceHandle targetHandle =>
    exact atomic_connect source target id sourceHandle targetHandle
  | disconnect id => exact atomic_disconnect id
  | setEntry id => exact atomic_setEntry id
  | clearEntry => exact (succeeds_bind (succeeds_writeEntry _) fun _ => succeeds_pure _).atomic
  | reset => exact succeeds_reset.atomic
  | importPlan form => exact atomic_importPlan form
  | reimport => exact atomic_bind (reads_look _) fun _ => atomic_importPlan _
  | getNode _ | connectionRefusal _ _ | nextStep _ | issues | exportPlan _ | dump =>
    apply Reads.atomic
    exact reads_ofCommand trivial

/-! Procedures do what commands do -/

/-- What a procedure returns where a command leaves a workspace with an answer or a fault. -/
def result : Workspace × Except SessionFault Answer → EStateM.Result SessionFault Workspace Answer
  | (workspace, .ok answer) => .ok answer workspace
  | (workspace, .error fault) => .error fault workspace

theorem run_look (read : Session → α) (workspace : Workspace) :
    (look read).run workspace = .ok (read workspace.session) workspace := rfl

theorem run_settle_ok (value : α) (workspace : Workspace) :
    (settle (.ok value)).run workspace = .ok value workspace := rfl

theorem run_settle_error (fault : SessionFault) (workspace : Workspace) :
    (settle (.error fault) : Procedure α).run workspace = .error fault workspace := rfl

theorem run_consult (read : Session → Except SessionFault α) (workspace : Workspace) :
    (consult read).run workspace = (settle (read workspace.session)).run workspace := rfl

theorem run_newId (workspace : Workspace) (id : Option String) :
    (newId id).run workspace =
      .ok ((Workspace.givenId? id).getD workspace.ids.next)
        { workspace with
          ids := if (Workspace.givenId? id).isNone then workspace.ids.advance else workspace.ids } := by
  rw [newId]
  cases Workspace.givenId? id <;> rfl

theorem run_insert (workspace : Workspace) (node : Node) :
    (insert node).run workspace =
      match workspace.session.addNode node with
      | .ok session => .ok (.node node) { workspace with session := session }
      | .error fault => .error fault workspace := by
  simp only [insert, EStateM.run_bind, run_consult, Session.addNode]
  cases workspace.session.graph.has node.id <;> rfl

theorem run_addNode (workspace : Workspace) (kind : Json) (id : Option String)
    (position : Option Position) (payload : Option Payload) :
    (addNode kind id position payload).run workspace =
      let ids := if Workspace.givenId? id = none then workspace.ids.advance else workspace.ids
      match workspace.addNode kind id position payload with
      | .ok (session, answer) => .ok answer ⟨session, ids⟩
      | .error fault => .error fault ⟨workspace.session, ids⟩ := by
  simp only [addNode, Workspace.addNode, EStateM.run_bind, run_newId]
  cases Workspace.newPayload kind payload with
  | error fault => simp [run_settle_error, bind, Except.bind]
  | ok payload =>
    simp only [run_settle_ok, run_insert, bind, Except.bind]
    cases workspace.session.addNode _ <;> simp [pure, Except.pure]

theorem run_setPayload (workspace : Workspace) (id : String) (payload : Payload) :
    (setPayload id payload).run workspace =
      match workspace.session.setPayload id payload with
      | .ok (session, node) => .ok (.node node) { workspace with session := session }
      | .error fault => .error fault workspace := by
  simp only [setPayload, Session.setPayload, EStateM.run_bind, run_consult]
  cases workspace.session.node id <;> rfl

theorem run_addRead (workspace : Workspace) (kind : Json) (id : Option String)
    (position data : Option Json) :
    (addRead kind id position data).run workspace =
      result (workspace.run (.addNode kind id position data)) := by
  rw [Workspace.run, Workspace.perform, Workspace.addRead, Workspace.draws, Workspace.drawsNodeId]
  simp only [addRead, EStateM.run_bind]
  cases Workspace.givenPayload kind data with
  | error fault => simp [run_settle_error, bind, Except.bind, result, Except.toOption]
  | ok payload =>
    simp only [run_settle_ok, run_addNode, bind, Except.bind]
    cases workspace.addNode kind id (position.map Position.ofJson) payload <;>
      simp [result, Except.toOption]

theorem run_connect (workspace : Workspace) (source target : String) (id : Option String)
    (sourceHandle targetHandle : Json) :
    (connect source target id sourceHandle targetHandle).run workspace =
      result (workspace.run (.connect source target id sourceHandle targetHandle)) := by
  rw [Workspace.run, Workspace.perform, Workspace.connect, Workspace.draws]
  simp only [connect, EStateM.run_bind, run_consult]
  cases workspace.session.ensureConnectable source target id with
  | error fault => simp [run_settle_error, bind, Except.bind, result, Except.toOption]
  | ok ready =>
    unfold newEdgeId Workspace.requestedEdge
    cases Workspace.givenId? id <;> rfl

/-- A command that draws no id leaves the supply alone. -/
theorem result_run {workspace : Workspace} {command : Command}
    (calm : workspace.draws command = false) :
    result (workspace.run command) =
      match workspace.perform command with
      | .ok (session, answer) => .ok answer { workspace with session := session }
      | .error fault => .error fault workspace := by
  rw [Workspace.run, calm]
  cases workspace.perform command <;> rfl

theorem run_importPlan (workspace : Workspace) (form : Json) :
    (importPlan form).run workspace =
      match workspace.perform (.importPlan form) with
      | .ok (session, answer) => .ok answer { workspace with session := session }
      | .error fault => .error fault workspace := by
  rw [importPlan, Workspace.perform, Session.importPlan]
  cases Flow.ofJson form <;> rfl

theorem run_ofCommand (workspace : Workspace) (command : Command) :
    (ofCommand command).run workspace = result (workspace.run command) := by
  cases command with
  | addNode kind id position data => exact run_addRead workspace kind id position data
  | connect source target id sourceHandle targetHandle =>
    exact run_connect workspace source target id sourceHandle targetHandle
  | getNode id =>
    rw [result_run rfl, ofCommand, Workspace.perform]
    simp only [EStateM.run_bind, run_consult]
    cases workspace.session.node id <;> rfl
  | connectionRefusal source target =>
    rw [result_run rfl, ofCommand, Workspace.perform]
    simp only [EStateM.run_bind, run_consult]
    cases workspace.session.connectionRefusal source target <;> rfl
  | updateData id data =>
    rw [result_run rfl, ofCommand, updateData, Workspace.perform, Session.updateData]
    simp only [EStateM.run_bind, run_look]
    cases Session.readData (((workspace.session.graph.node? id).map Node.kind).getD .action) data with
    | error fault => rfl
    | ok payload =>
      simp only [run_settle_ok, run_setPayload, bind, Except.bind]
      cases workspace.session.setPayload id payload <;> rfl
  | moveNode id position =>
    rw [result_run rfl, ofCommand, moveNode, Workspace.perform, Session.moveNode]
    simp only [EStateM.run_bind, run_consult]
    cases workspace.session.node id <;> rfl
  | deleteNode id =>
    rw [result_run rfl, ofCommand, deleteNode, Workspace.perform, Session.deleteNode]
    simp only [EStateM.run_bind, run_consult]
    cases workspace.session.node id <;> rfl
  | disconnect id =>
    rw [result_run rfl, ofCommand, disconnect, Workspace.perform, Session.disconnect]
    simp only [EStateM.run_bind, run_consult]
    cases workspace.session.graph.edges.find? fun edge => edge.id = id <;> rfl
  | setEntry id =>
    rw [result_run rfl, ofCommand, setEntry, Workspace.perform, Session.setEntry]
    simp only [EStateM.run_bind, run_consult]
    cases workspace.session.node id with
    | error fault => rfl
    | ok node =>
      simp only [run_settle_ok, bind, Except.bind]
      cases entryAt node (workspace.session.graph.incoming id) <;> rfl
  | exportPlan strict =>
    rw [result_run rfl, ofCommand, exportPlan, Workspace.perform, Session.exportPlan]
    simp only [EStateM.run_bind, run_consult]
    cases strict with
    | false => rfl
    | true => cases workspace.session.graph.ensureValid workspace.session.entry <;> rfl
  | importPlan form =>
    rw [result_run rfl]
    exact run_importPlan workspace form
  | reimport =>
    rw [result_run rfl]
    exact run_importPlan workspace _
  | nextStep _ | clearEntry | reset | issues | dump => rfl

end Procedure

namespace Workspace

variable {workspace : Workspace} {command : Command}

/-- Every command does what its procedure does; where the procedure meets a fault it has not changed
the session, and where it only asks it never changes it. -/
theorem procedure_atomic (workspace : Workspace) (command : Command) :
    (Procedure.ofCommand command).run workspace = Procedure.result (workspace.run command) ∧
      (∀ fault after, (Procedure.ofCommand command).run workspace = .error fault after →
        after.session = workspace.session) ∧
      (command.Asks →
        (Procedure.left ((Procedure.ofCommand command).run workspace)).session =
          workspace.session) :=
  ⟨Procedure.run_ofCommand workspace command, Procedure.atomic_ofCommand command workspace,
    fun asks => Procedure.reads_ofCommand asks workspace⟩

/-- A form whose second descriptor has no id, behind one that is added. -/
def halfForm : Json := .arr [.obj [("id", .str "c"), ("type", .str "CONDITION")], .obj []]

/-- A workspace with one condition, the entry. -/
def single : Workspace :=
  ⟨⟨⟨[⟨"k", .condition, .origin⟩], []⟩, some "k"⟩, ⟨fun place => toString place, 0⟩⟩

theorem procedure_atomic_halfForm :
    (∃ fault after, (Procedure.ofCommand (.importPlan halfForm)).run single = .error fault after ∧
      after.session = single.session) ∧
      Command.Asks (.exportPlan true) ∧
        (Procedure.left ((Procedure.ofCommand (.exportPlan true)).run single)).session =
          single.session := by
  refine ⟨⟨_, _, rfl, ?_⟩, trivial, ?_⟩
  · exact (procedure_atomic single (.importPlan halfForm)).2.1 _ _ rfl
  · exact (procedure_atomic single (.exportPlan true)).2.2 trivial

theorem session_of_error {fault : SessionFault} (failed : (workspace.run command).2 = .error fault) :
    (workspace.run command).1.session = workspace.session := by
  apply Procedure.atomic_ofCommand command workspace fault
  rw [Procedure.run_ofCommand]
  generalize workspace.run command = ran at failed
  obtain ⟨after, outcome⟩ := ran
  obtain rfl : outcome = .error fault := failed
  rfl

end Workspace

/-- Under a mark, too, a command without an answer changes nothing, and the mark stands. -/
theorem MarkedWorkspace.unchanged_of_failed {marked : MarkedWorkspace} {command : Command}
    (failed : ∀ answer, (marked.run command).2 ≠ some (.ok answer)) :
    (marked.run command).1.workspace.session = marked.workspace.session ∧
      (marked.run command).1.mark = marked.mark := by
  unfold MarkedWorkspace.run at failed ⊢
  split
  · exact ⟨rfl, rfl⟩
  · simp only [runUnmarked, Prod.map] at failed ⊢
    cases outcome : (marked.workspace.run command).2 with
    | ok answer => exact absurd (congrArg some outcome) (failed answer)
    | error fault => exact ⟨Workspace.session_of_error outcome, by simp [Except.toOption]⟩

end OutreachFlow
