import EventWorker.Worker.Startup

/-!
# Running and stopping a worker

A worker takes messages from its input and handles them one after the other.
Stopping disconnects every provider whatever the others did: the input, the
output, the processors, the database and the ledger.
-/

namespace EventWorker

open Json (Value)

variable {ω : Type}

namespace Worker

/-- Handles messages of the input until nothing is there, and at most `limit` of
them. Gives their number. -/
def handleAll (k : Worker ω) : (limit : Nat) → Bench ω → Nat × Bench ω
  | 0, b => (0, b)
  | limit + 1, b =>
    match k.input.receive b.world with
    | (.message m, w) =>
      let (_, b) := k.dispatcher.handle m.payload { b with world := w }
      let (handled, b) := k.handleAll limit b
      (handled + 1, b)
    | (_, w) => (0, { b with world := w })

/-- Handles messages unless the worker has been told to stop. -/
def run (k : Worker ω) (limit : Nat) (b : Bench ω) : Nat × Bench ω :=
  if k.stopping then (0, b) else k.handleAll limit b

/-- Disconnects one provider. A failure is logged. -/
def disconnectOne (k : Worker ω) (code : Code) (what : String) (a : Act ω Unit) (b : Bench ω) :
    List Failure × Bench ω :=
  match (Bench.onWorld a).outcome b with
  | (.ok (), b) => ([], b)
  | (.error cause, b) =>
    let f := code.failure.causedBy cause
    ([f], k.dispatcher.env.log .error f.code
      (.object [("closing", .str what), ("perr", .nat f.causeCode)]) b)

/-- All providers in the order in which they are disconnected, each with the code
of a failure and its name in the log. -/
def disconnections (k : Worker ω) : List (Code × String × Act ω Unit) :=
  [(Code.disconnectInput, "input", k.input.disconnect),
    (Code.disconnectOutput, "output", k.dispatcher.output.disconnect)] ++
  k.dispatcher.table.distinct.map (fun i =>
    (Code.disconnectProcessor, i.processor.name, i.processor.disconnect)) ++
  [(Code.disconnectDatabase, "database", k.database.disconnect),
    (Code.disconnectLedger, "blockchain", k.ledger.disconnect)]

/-- Disconnects providers in order; gives the failures. -/
def disconnectAll (k : Worker ω) :
    List (Code × String × Act ω Unit) → Bench ω → List Failure × Bench ω
  | [], b => ([], b)
  | (code, what, a) :: rest, b =>
    let (first, b) := k.disconnectOne code what a b
    let (others, b) := k.disconnectAll rest b
    (first ++ others, b)

/-- Stops the worker; gives the failures. -/
def shutdown (k : Worker ω) (b : Bench ω) : List Failure × Bench ω :=
  k.disconnectAll k.disconnections b

end Worker

end EventWorker
