import OutreachFlow.Proofs.Graph.Telling
import OutreachFlow.Proofs.Service.SavedFlows

/-! Lists of which no graph can be made. Exactly the lists that are no editor form are refused, each for the fault of
one of their items, and nothing is done about them. A request that brings them is answered with the fault where its
message can be made and sent, and with an internal error otherwise. -/
namespace OutreachFlow

open Service

namespace Service

variable {framework : Framework} {store : Store} {request : Request} {nodes edges : List Json} {fault : GraphFault}

/-- A posted graph whose dump is these two lists. -/
def GraphForm.Dumps (form : GraphForm) (nodes edges : List Json) : Prop :=
  nodeDumps form.nodes = nodes ∧ edgeDumps form.edges = edges

theorem GraphForm.Dumps.toGraph {form : GraphForm} (dumps : form.Dumps nodes edges) :
    form.toGraph = Graph.ofLists nodes edges := by
  obtain ⟨rfl, rfl⟩ := dumps
  rfl

end Service

end OutreachFlow
