import OutreachFlow.Proofs.Json.Printed
import OutreachFlow.Proofs.Service.Effects

/-! How requests are answered. Each is answered as its endpoint says, and an answer with nothing in it that could
not be sent is sent as it is. -/
namespace OutreachFlow.Service

variable {framework : Framework} {store : Store} {request : Request}

/-! Answers that are sent -/

theorem deliver_document {content : Json} (manner : Manner) (status : Nat)
    (flat : content.depth ≤ framework.answerDepth) (finite : content.hasNonFinite = false)
    (whole : content.hasStandIn = false) :
    framework.deliver (.document manner status content) = ⟨status, .document content⟩ := by
  rw [Framework.deliver, framework.sends manner flat finite whole]

/-- Words that can be sent are sent. -/
theorem deliver_refusalText (framework : Framework) (status : Nat) {detail : String}
    (whole : Text.hasStandIn detail = false) : framework.deliver (.refusalText status detail) =
      ⟨status, .document (.obj [("detail", .str detail)])⟩ := by
  refine deliver_document _ status (Nat.le_trans (show 1 ≤ 4 by decide) framework.shallow) rfl ?_
  simp only [Json.hasStandIn, Json.fieldsHaveStandIn, whole, Bool.or_false]
  decide +kernel

theorem deliver_verdict (framework : Framework) {name : String} (plain : Text.hasStandIn name = false)
    {reason : Option String} (whole : ∀ text ∈ reason, Text.hasStandIn text = false) :
    framework.deliver (verdict name reason) =
      ⟨200, .document (.obj [(name, .bool reason.isNone), ("reason", textOrNull reason)])⟩ := by
  have word : Text.hasStandIn "reason" = false := by decide +kernel
  have four := framework.shallow
  cases reason with
  | none =>
    refine deliver_document _ 200 (Nat.le_trans (show 1 ≤ 4 by decide) four) rfl ?_
    simp only [Json.hasStandIn, Json.fieldsHaveStandIn, textOrNull, plain, word, Bool.or_false]
  | some text =>
    refine deliver_document _ 200 (Nat.le_trans (show 1 ≤ 4 by decide) four) rfl ?_
    simp only [Json.hasStandIn, Json.fieldsHaveStandIn, textOrNull, plain, word, whole text rfl, Bool.or_false]

theorem hasStandIn_ineligibility (reason : Ineligibility) : Text.hasStandIn reason.message = false := by
  cases reason <;> decide +kernel

/-- The reasons against a connection name no edge, unless one was asked for. -/
theorem hasStandIn_refusal {reason : Refusal} (unnamed : ∀ id, reason ≠ .edgeIdInUse id) :
    Text.hasStandIn reason.message = false := by
  cases reason with
  | edgeIdInUse id => exact absurd rfl (unnamed id)
  | targetKind source | secondNextStep source => cases source <;> decide +kernel
  | _ => decide +kernel

/-! Endpoints of requests -/

theorem method_ne_head {endpoint : Endpoint} (asks : request.AsksFor endpoint) : request.method ≠ "HEAD" := by
  intro head
  obtain ⟨below, _, fixed | ⟨id, _, flow⟩⟩ := endpoint?_eq_some (destination_eq_endpoint.mp asks)
  · simp [fixedEndpoint?, head] at fixed
  · rcases flowEndpoint_eq_some flow with ⟨get, _⟩ | ⟨put, _⟩ | ⟨delete, _⟩ <;> simp_all

theorem serve_of_asks {endpoint : Endpoint} (asks : request.AsksFor endpoint) :
    serve framework store request = ((replyAt framework store request endpoint).1,
      framework.deliver (replyAt framework store request endpoint).2) := by
  have full : reply framework store request = replyAt framework store request endpoint := by rw [reply, asks]
  rw [serve, full]
  simp only [method_ne_head asks, if_false]

end OutreachFlow.Service
