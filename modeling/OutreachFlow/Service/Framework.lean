import OutreachFlow.Json.Depth
import OutreachFlow.Json.Finite

/-! The framework that the service runs in. It reads the bodies of requests and sends the answers,
and what it can take differs between its versions. All that is relied on is that it sends simple
documents as they are and none with a stand-in, which has no form in the encoding of answers. -/
namespace OutreachFlow.Service

/-- How a document is sent: by itself, through the schema of answers, or back to the sender as a
part of what was wrong. -/
inductive Manner where
  | plain
  | modelled
  | echoed
deriving DecidableEq, Repr

structure Framework where
  /-- How deep a body may be nested. -/
  bodyDepth : Nat
  /-- The levels that are left where a message shows a value. -/
  messageDepth : Nat
  /-- How deep a document may be nested that is sent whatever else it is. -/
  answerDepth : Nat
  /-- What is sent for a document, if it can be sent. -/
  sent : Manner → Json → Option Json
  shallow : 4 ≤ answerDepth
  sends (manner : Manner) {content : Json} (flat : content.depth ≤ answerDepth)
    (finite : content.hasNonFinite = false) (whole : content.hasStandIn = false) :
    sent manner content = some content
  withholds (manner : Manner) {content : Json} (broken : content.hasStandIn = true) :
    sent manner content = none

namespace Framework

/-- Sends null for doubles that are not finite where there is a schema of answers, and nothing that
holds such doubles elsewhere. -/
def usualSent (depth : Nat) (manner : Manner) (content : Json) : Option Json :=
  if content.hasStandIn ∨ depth < content.depth then none
  else if manner = .modelled then some content.finitePart
  else if content.hasNonFinite then none else some content

/-- The framework as it is commonly set up. -/
def usual : Framework where
  bodyDepth := 900
  messageDepth := 900
  answerDepth := 250
  sent := usualSent 250
  shallow := by decide
  sends manner content flat finite whole := by
    have open' : ¬ (content.hasStandIn ∨ 250 < content.depth) := by simp [whole, flat]
    rw [usualSent, if_neg open', Json.finitePart_of_finite finite, finite]
    simp
  withholds manner content broken := by rw [usualSent, if_pos (.inl broken)]

end Framework

end OutreachFlow.Service
