import EventWorker.Bus.Message

/-!
# Recording and printing outputs
-/

namespace EventWorker

/-- An output that keeps what is written and can refuse destinations. -/
structure MemoryOutput where
  /-- What was written, oldest first. -/
  sent : List Outbound := []
  refused : List String := []
  settings : Settings := {}
  deriving Repr, Inhabited

namespace MemoryOutput

/-- Keeps a message, unless its destination is refused. -/
def write (o : MemoryOutput) (m : Outbound) : Except Failure Unit × MemoryOutput :=
  if o.refused.contains m.destination then
    (.error (TransportError.noReceivers m.destination).toFailure, o)
  else (.ok (), { o with sent := o.sent ++ [m] })

/-- Refuses a destination from now on. -/
def refuse (o : MemoryOutput) (destination : String) : MemoryOutput :=
  { o with refused := destination :: o.refused }

/-- The messages for one destination. -/
def sentTo (o : MemoryOutput) (destination : String) : List Outbound :=
  o.sent.filter fun m => m.destination = destination

end MemoryOutput

/-- An output of lines: destination, a space, the payload, a line feed. -/
structure LineOutput where
  text : List Char := []
  settings : Settings := {}
  deriving Repr, Inhabited

namespace LineOutput

/-- The line of a message. -/
def line (m : Outbound) : List Char :=
  m.destination.toList ++ ' ' :: m.payload.toList ++ ['\n']

/-- Writes the line of a message. -/
def write (o : LineOutput) (m : Outbound) : LineOutput :=
  { o with text := o.text ++ line m }

end LineOutput

end EventWorker
