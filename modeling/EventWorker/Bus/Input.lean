import EventWorker.Bus.Message

/-!
# Queued and line inputs
-/

namespace EventWorker

/-- What became of a message that was sent to a queue. -/
inductive SendResult
  | sent
  | full
  | closed
  | noSender
  deriving DecidableEq, Repr

/-- What a receiver finds. -/
inductive Receipt
  | message (m : Inbound)
  /-- Nothing is there yet. -/
  | pending
  /-- Nothing will come any more. -/
  | ended
  deriving DecidableEq, Repr

/-- The capacity of a queue or a bus that is given none. -/
def defaultCapacity : Nat := 1000

/-- An input fed through a bounded queue. -/
structure QueueInput where
  capacity : Nat := defaultCapacity
  /-- The messages waiting, oldest first. -/
  waiting : List Inbound := []
  hasSender : Bool := true
  closed : Bool := false
  received : Nat := 0
  settings : Settings := {}
  deriving Repr, Inhabited

namespace QueueInput

/-- The number of messages that can wait, at least one. -/
def room (q : QueueInput) : Nat :=
  max 1 q.capacity

/-- Puts a message into the queue. -/
def send (q : QueueInput) (m : Inbound) : SendResult × QueueInput :=
  if !q.hasSender then (.noSender, q)
  else if q.closed then (.closed, q)
  else if q.room ≤ q.waiting.length then (.full, q)
  else (.sent, { q with waiting := q.waiting ++ [m] })

/-- Takes the oldest message. A closed queue gives nothing, whatever waits. -/
def receive (q : QueueInput) : Receipt × QueueInput :=
  if q.closed then (.ended, q)
  else
    match q.waiting with
    | m :: rest => (.message m, { q with waiting := rest, received := q.received + 1 })
    | [] => (if q.hasSender then .pending else .ended, q)

/-- Closes the queue to both sides. -/
def close (q : QueueInput) : QueueInput :=
  { q with closed := true }

/-- Lets go of the sending side. -/
def dropSender (q : QueueInput) : QueueInput :=
  { q with hasSender := false }

end QueueInput

/-- An input of lines, one message each. -/
structure LineInput where
  lines : List String := []
  settings : Settings := {}
  deriving Repr, Inhabited

namespace LineInput

/-- A line that a line feed ends, without a carriage return before it. -/
def terminated (line : List Char) : List Char :=
  if line.getLast? = some '\r' then line.dropLast else line

/-- The lines of a text. What follows the last line feed is a line of its own,
unless it is empty. -/
def linesOf (text : List Char) : List String :=
  let pieces := Text.pieces '\n' text
  let rest := (pieces.getLast?.getD [])
  (pieces.dropLast.map terminated ++ if rest.isEmpty then [] else [rest]).map String.ofList

/-- The first line that is not blank, and the lines after it. -/
def next? : List String → Option (String × List String)
  | [] => none
  | line :: rest => if (Text.trim line.toList).isEmpty then next? rest else some (line, rest)

/-- Takes the next line that is not blank. The topic is configured. -/
def receive (i : LineInput) : Receipt × LineInput :=
  match next? i.lines with
  | some (line, rest) =>
    (.message { topic := i.settings.text ["topic"] "stdin", payload := line }, { i with lines := rest })
  | none => (.ended, { i with lines := [] })

end LineInput

end EventWorker
