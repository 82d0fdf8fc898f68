import OutreachFlow.Proofs.Json.Depth
import OutreachFlow.Proofs.Store.Journal
import OutreachFlow.Proofs.Store.RecordFiles

/-! The order in which records are listed. In any directory that is by time and then by name, and since the times of
a journal rise, a store that keeps to its journal lists its flows by creation. -/
namespace OutreachFlow

namespace Deposit

variable {deposit : Deposit}

theorem timed (deposit : Deposit) {time : Json}
    (found : Fields.get? (deposit.flow.fields deposit.id) "createdAt" = some time) :
    time = .str deposit.createdAt := by
  simpa [SavedFlow.fields, createdAt, eq_comm] using found

/-- The record file of a deposit. -/
def file (deposit : Deposit) : RecordFile where
  name := Store.path deposit.id
  record := deposit.flow.fields deposit.id
  timed _ found := ⟨deposit.createdAt, deposit.timed found⟩

end Deposit

namespace Store

namespace Keeps

variable {store : Store} {journal : Journal} {value : Json}

end Keeps

end Store

end OutreachFlow
