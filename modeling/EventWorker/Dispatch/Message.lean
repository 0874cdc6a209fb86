import EventWorker.Dispatch.Report
import EventWorker.Dispatch.Stages
import EventWorker.Validation

/-!
# Handling a message

A message is checked, routed by its label, taken through both stages of its
pipeline and answered: in the end every event left in the memory is written to
the destination that is its key. A failure drops the events there are; if the
client is to be told, an error event takes their place.
-/

namespace EventWorker

open Json (Value)

variable {ω : Type}

/-- What it takes to handle messages. -/
structure Dispatcher (ω : Type) where
  output : Output ω
  table : PipelineTable ω
  env : Environment ω

namespace Dispatcher

/-- Writes one event; tells whether it was accepted. -/
def writeOne (d : Dispatcher ω) (destination : String) (e : Event) (b : Bench ω) :
    Bool × Bench ω :=
  let payload := e.render
  let b := d.env.log .debug Code.logToSend
    (.object [("to", .str destination), ("event", .str payload)]) b
  match (Bench.onWorld (d.output.write { destination, payload })).outcome b with
  | (.ok (), b) => (true, b)
  | (.error _, b) => (false, b)

/-- Writes events in order; counts those accepted. -/
def writeAll (d : Dispatcher ω) : List (String × Event) → Bench ω → Nat × Bench ω
  | [], b => (0, b)
  | (destination, e) :: rest, b =>
    let (accepted, b) := d.writeOne destination e b
    let (sent, b) := d.writeAll rest b
    (if accepted then sent + 1 else sent, b)

/-- Writes all events of the memory, key by key; counts those accepted. -/
def notify (d : Dispatcher ω) (b : Bench ω) : Nat × Bench ω :=
  let (waiting, events) := b.events.drain
  d.writeAll waiting { b with events }

/-- Drops the events there are, and puts an error event under `key` if the client
is to be told of the failure. -/
def replaceEvents (key : String) (h : Header) (f : Failure) (source : ErrorSource) (b : Bench ω) :
    Bench ω :=
  let b := { b with events := {} }
  if f.notifiable then b.pushEvent key (errorEvent h f (inputLabel h.label) source) else b

/-- Runs the main stage. Its failure is told under the key of errors. -/
def runMain (d : Dispatcher ω) (p : Pipeline ω) (e : Event) (b : Bench ω) :
    Option Failure × Bench ω :=
  match (Dispatch.mainStage d.env p e).outcome b with
  | (.ok (), b) => (none, b)
  | (.error f, b) => (some f, replaceEvents errorLabel e.header f .pipeline b)

/-- Runs the final stage. Its failure is told to the session of the event. -/
def runFinal (d : Dispatcher ω) (p : Pipeline ω) (e : Event) (b : Bench ω) :
    Option Failure × Bench ω :=
  match (Dispatch.finalStage d.env p).outcome b with
  | (.ok (), b) => (none, b)
  | (.error f, b) => (some f, replaceEvents e.header.session e.header f .pipeline b)

/-- Takes an event through its pipeline. -/
def route (d : Dispatcher ω) (e : Event) (b : Bench ω) : Outcome × Bench ω :=
  match d.table.get? e.label with
  | none =>
    let f := Code.unrecognizedEvent.failure.silent
    (.unrouted e.label f, d.env.log .debug f.logCode (.object [("event", .str e.label)]) b)
  | some p =>
    let (main, b) := d.runMain p e b
    let (final, b) := d.runFinal p e b
    (.handled e.label main final, b)

/-- Drops the events for a message that failed a check, and tells its session if
the client is to be told and the header is known. -/
def reject (d : Dispatcher ω) (raw : String) (r : Rejection) (b : Bench ω) : Bench ω :=
  let f := r.failure
  let b := d.env.log .debug f.logCode
    (.object [("msg", .str f.message), ("notifiable", .bool f.notifiable), ("raw", .str raw)]) b
  match r.header? with
  | some h => replaceEvents h.session h f .worker b
  | none => { b with events := {} }

/-- Handles a raw message and writes what is to be written. -/
def handle (d : Dispatcher ω) (raw : String) (b : Bench ω) : Report × Bench ω :=
  let (outcome, b) :=
    match validate raw with
    | .error r => (Outcome.rejected r.failure, d.reject raw r b)
    | .ok e => d.route e (d.env.log .debug Code.logNewEvent e.toValue b)
  let (sent, b) := d.notify b
  ({ outcome, sent }, b)

end Dispatcher

end EventWorker
