import OutreachFlow.Proofs.Graph.EditorForm
import OutreachFlow.Proofs.Payload.Meaning
import OutreachFlow.Proofs.Plan.NextSteps

/-! The two encodings of a payload: the data of a node, which are flat, and what a plan has in its place, where a
waiting time or a message stands one object deeper. Either is read as the payload that it was written for, so
that whatever was read, in whichever shapes it came, is found again behind both. -/
namespace OutreachFlow

/-- The action of a node has its descriptor in the plan, whatever else the graph holds. -/
theorem Graph.compile_action {graph : Graph} (entry : Option String) {node : Node} {step : ActionStep}
    (member : node ∈ graph.nodes) (acts : node.payload = .action step) :
    graph.descriptor? node = some (.action node.id step (graph.nextStep? node.id)) ∧
      .action node.id step (graph.nextStep? node.id) ∈ (graph.compile entry).descriptors := by
  have stands : graph.stands node = true := stands_of_kind (by simp [Node.kind, acts, Payload.kind])
  have own : graph.descriptorOf node = .action node.id step (graph.nextStep? node.id) := by
    simp [descriptorOf, acts]
  refine ⟨?_, mem_plan.mpr ⟨node, member, stands, own⟩⟩
  rw [descriptor?_eq, if_pos stands, own]

namespace Payload

/-- Where a payload is read from: the data of a node of some kind, the checks that a plan lists, or the
descriptor of an action. -/
inductive Origin where
  | data (kind : NodeKind)
  | checks
  | descriptor

namespace Origin

def read? : Origin → Json → Option Payload
  | data kind, .obj fields => (ofData fields kind).toOption
  | checks, value => (Check.listOfJson value).toOption.map conditionCheck
  | descriptor, .obj fields => (Source.actionStep fields).toOption.map action
  | _, _ => none

/-- What a value means to those who read it there. The data of a condition hold nothing, whatever they are. -/
inductive Means : Origin → Json → Payload → Prop
  | action {fields : Fields} {step : ActionStep}
      (means : fields.MeansAction (fields.valueOf "message") step) :
      Means (data .action) (.obj fields) (.action step)
  | condition (fields : Fields) : Means (data .condition) (.obj fields) .condition
  | conditionCheck {fields : Fields} {checks : List Check}
      (means : (fields.valueOf "conditions").MeansChecks checks) :
      Means (data .conditionCheck) (.obj fields) (.conditionCheck checks)
  | listed {value : Json} {checks : List Check} (means : value.MeansChecks checks) :
      Means .checks value (.conditionCheck checks)
  | described {fields : Fields} {step : ActionStep} (means : fields.MeansRecord step) :
      Means .descriptor (.obj fields) (.action step)

variable {origin : Origin} {value : Json} {payload : Payload}

/-- A payload is read from exactly those values that mean it. -/
theorem read?_eq_some : origin.read? value = some payload ↔ origin.Means value payload := by
  constructor
  · intro read
    unfold read? at read
    split at read
    · rename_i kind fields
      rw [toOption_eq_some] at read
      cases kind with
      | action =>
        obtain ⟨step, found, rfl⟩ := map_eq_ok.mp read
        exact .action (ActionStep.ofData_eq_ok.mp found)
      | condition =>
        obtain rfl := Except.ok.inj read
        exact .condition fields
      | conditionCheck =>
        obtain ⟨checks, found, rfl⟩ := map_eq_ok.mp read
        exact .conditionCheck (Check.listOfJson_eq_ok.mp found)
    · obtain ⟨checks, found, rfl⟩ := Option.map_eq_some_iff.mp read
      exact .listed (Check.listOfJson_eq_ok.mp (toOption_eq_some.mp found))
    · obtain ⟨step, found, rfl⟩ := Option.map_eq_some_iff.mp read
      exact .described (Source.actionStep_eq_ok.mp (toOption_eq_some.mp found))
    · contradiction
  · rintro (means | fields | means | means | means)
    · simp [read?, ofData, ActionStep.ofData_eq_ok.mpr means, Except.map, Except.toOption]
    · rfl
    · simp [read?, ofData, Check.listOfJson_eq_ok.mpr means, Except.map, Except.toOption]
    · simp [read?, Check.listOfJson_eq_ok.mpr means, Except.toOption]
    · simp [read?, Source.actionStep_eq_ok.mpr means, Except.toOption]

end Origin

/-- The forms in which a payload is written. The descriptor of an action has an id and may have a next step. -/
inductive WrittenAs : Payload → Origin → Json → Prop
  | data (payload : Payload) : WrittenAs payload (.data payload.kind) (.obj payload.toData)
  | checks (checks : List Check) : WrittenAs (.conditionCheck checks) .checks (checksForm checks)
  | descriptor (id : String) (step : ActionStep) (next : Option String) :
      WrittenAs (.action step) .descriptor (Descriptor.action id step next).toJson

theorem WrittenAs.read? {payload : Payload} {origin : Origin} {form : Json}
    (written : payload.WrittenAs origin form) : origin.read? form = some payload := by
  cases written with
  | data => simp [Origin.read?, ofData_toData, Except.toOption]
  | checks checks => simp [Origin.read?, Check.listOfJson_checksForm, Except.toOption]
  | descriptor id step next =>
    obtain ⟨fields, same, read⟩ := Descriptor.actionStep_toJson id step next
    simp [Origin.read?, same, read, Except.toOption]

/-- Checks and actions are read back from both of their encodings. A value from which a payload is read, in old
shapes or mixed ones, means that payload and no other, and both encodings of it are read as what was read
first. -/
theorem encodings_agree :
    (∀ checks : List Check,
      Check.listOfJson (checksForm checks) = .ok checks ∧
        ofData (conditionCheck checks).toData .conditionCheck = .ok (conditionCheck checks)) ∧
    (∀ step : ActionStep,
      ofData (action step).toData .action = .ok (action step) ∧
        ∀ (graph : Graph) (entry : Option String), ∀ node ∈ graph.nodes, node.payload = action step →
          ∃ descriptor ∈ (graph.compile entry).descriptors, graph.descriptor? node = some descriptor ∧
            ∃ fields, descriptor.toJson = .obj fields ∧ Source.actionStep fields = .ok step) ∧
    ∀ (origin : Origin) (value : Json) (payload : Payload),
      (origin.read? value = some payload ↔ origin.Means value payload) ∧
        (origin.read? value = some payload →
          ∀ again form, payload.WrittenAs again form → again.read? form = some payload) := by
  refine ⟨fun checks => ⟨?_, ?_⟩, fun step => ⟨?_, ?_⟩, fun origin value payload => ⟨?_, ?_⟩⟩
  · exact Check.listOfJson_checksForm checks
  · exact ofData_toData (conditionCheck checks)
  · exact ofData_toData (action step)
  · intro graph entry node member acts
    obtain ⟨described, inPlan⟩ := Graph.compile_action entry member acts
    exact ⟨_, inPlan, described, Descriptor.actionStep_toJson node.id step _⟩
  · exact Origin.read?_eq_some
  · exact fun _ again form written => written.read?

/-- Checks in mixed shapes: one with two waiting times, of which the zero beside the condition counts, one with a
waiting time in an extra value only, and one with null for a waiting time and an extra value that is no
object. -/
def mixedForm : Json := .arr
  [.obj [("condition", .str "HAS_TIME_PASSED"), ("timeInHours", .int 0),
      ("conditionExtraValue", .obj [("timeInHours", .int 5)])],
    .obj [("conditionExtraValue", .obj [("timeInHours", .int 2), ("unit", .str "h")]), ("value", .bool false),
      ("condition", .str "HAS_TIME_PASSED")],
    .obj [("condition", .str "IS_NOVA"), ("timeInHours", .null), ("conditionExtraValue", .int 3)]]

def mixedChecks : List Check :=
  [⟨.hasTimePassed, true, some (.int 0)⟩, ⟨.hasTimePassed, false, some (.int 2)⟩, ⟨.isNova, true, none⟩]

/-- An action that sends an empty message. -/
def mutedNode : Node := ⟨"tell", .action ⟨.sendMessage, .nova, some ""⟩, Position.origin⟩

/-- The action leads to a node that is not there. -/
def mutedGraph : Graph := ⟨[mutedNode], [Edge.plain "e" "tell" "gone"]⟩

theorem encodings_agree_mixed :
    (mutedNode ∈ mutedGraph.nodes ∧ mutedNode.payload = action ⟨.sendMessage, .nova, some ""⟩ ∧
      ∃ descriptor ∈ (mutedGraph.compile none).descriptors, mutedGraph.descriptor? mutedNode = some descriptor ∧
        ∃ fields, descriptor.toJson = .obj fields ∧
          Source.actionStep fields = .ok ⟨.sendMessage, .nova, some ""⟩) ∧
    Origin.checks.read? mixedForm = some (conditionCheck mixedChecks) ∧
      Origin.checks.Means mixedForm (conditionCheck mixedChecks) ∧
        (conditionCheck mixedChecks).WrittenAs .checks (checksForm mixedChecks) ∧
          Origin.checks.read? (checksForm mixedChecks) = some (conditionCheck mixedChecks) := by
  obtain ⟨_, actions, mixed⟩ := encodings_agree
  constructor
  · have member : mutedNode ∈ mutedGraph.nodes := List.mem_singleton_self _
    exact ⟨member, rfl, (actions ⟨.sendMessage, .nova, some ""⟩).2 mutedGraph none mutedNode member rfl⟩
  · have read : Origin.checks.read? mixedForm = some (conditionCheck mixedChecks) := by decide +kernel
    have written := WrittenAs.checks mixedChecks
    obtain ⟨exactly, again⟩ := mixed .checks mixedForm (conditionCheck mixedChecks)
    exact ⟨read, exactly.mp read, written, again read .checks _ written⟩

end Payload

end OutreachFlow
