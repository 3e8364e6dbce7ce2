import Ares.Data.Json

/-! The audit ledger as its clients see it: what they ask it to append, and what an append can come
to.  An append whose acknowledgement is lost raises in the client although the ledger holds the
record. -/

namespace Ares.Audit

/-- The keyword arguments of `AuditLedger.append`. -/
structure AuditEntry where
  eventType : String
  source : String
  correlationId : String
  sessionId : String
  payload : Data.Fields

inductive AppendOutcome
  | acked
  | lost
  | failed
deriving DecidableEq

/-- What an append comes to whose caller may be cancelled.  It may have reached the ledger then. -/
inductive AwaitedAppend
  | acked
  | lost
  | failed
  | cancelled (written : Bool)
deriving DecidableEq

/-- The ledger holds the record after the append. -/
def AppendOutcome.written : AppendOutcome → Bool
  | acked | lost => true
  | failed => false

end Ares.Audit
