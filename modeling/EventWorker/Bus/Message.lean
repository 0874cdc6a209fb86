import EventWorker.Catalogue
import EventWorker.Json.Reader
import EventWorker.Retry

/-!
# Messages and transport errors
-/

namespace EventWorker

/-- A message that came in on a topic. -/
structure Inbound where
  topic : String
  payload : String
  deriving DecidableEq, Repr

/-- A message for a destination: a session value or a label. -/
structure Outbound where
  destination : String
  payload : String
  deriving DecidableEq, Repr

namespace Outbound

/-- The payload as JSON, if it is any. -/
def json? (m : Outbound) : Option Json.Value :=
  Json.parse? m.payload

end Outbound

/-- An error of a transport. -/
inductive TransportError
  | closed
  | noReceivers (destination : String)
  | io (reason : String)
  deriving DecidableEq, Repr

namespace TransportError

/-- The text of an error. -/
def message : TransportError → String
  | .closed => "Transport closed"
  | .noReceivers destination => "No receivers for destination '" ++ destination ++ "'"
  | .io reason => "I/O error: " ++ reason

/-- The failure reported for an error, which the client is not told of. -/
def toFailure (e : TransportError) : Failure :=
  Code.server.failure.silent.because e.message

end TransportError

end EventWorker
