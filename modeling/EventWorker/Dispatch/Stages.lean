import EventWorker.Pipeline.Table

/-!
# The stages of a pipeline

The main processors run inside one unit of work of the database and one of the
ledger. The units are begun in this order and committed in this order, the first
processor that stops ends the stage, and each unit that was begun and not
committed is rolled back. The final processors run in any case, up to the first
that stops.
-/

namespace EventWorker

open Json (Value)

variable {ω : Type}

namespace Environment

/-- The logger of the environment, or one with the usual settings. -/
def loggerOrDefault (env : Environment ω) : Logger :=
  env.providers.logger?.getD {}

/-- Logs a record. -/
def log (env : Environment ω) (severity : Severity) (code : Nat) (detail : Value) (b : Bench ω) :
    Bench ω :=
  match env.loggerOrDefault.record? severity code detail with
  | some r => { b with world := env.services.record r b.world }
  | none => b

/-- Logs that a processor is done. -/
def logHandled (env : Environment ω) (name : String) (more : List (String × Value))
    (b : Bench ω) : Bench ω :=
  env.log .debug Code.logHandled (.object (("processor", .str name) :: more)) b

/-- Logs that a processor stopped. -/
def logStopped (env : Environment ω) (name : String) (f : Failure) (b : Bench ω) : Bench ω :=
  env.log .error f.code
    (.object [("processor", .str name), ("msg", .str f.message), ("perr", .nat f.causeCode)]) b

end Environment

namespace Dispatch

/-- Runs one processor: a stop counts as its failure and is logged, and so is the
end, with `more` beside the name. -/
def runOne (env : Environment ω) (name : String) (more : List (String × Value))
    (run : Step Stop (Bench ω) Unit) : Act (Bench ω) Unit :=
  Step.ofFunction fun b =>
    match run.outcome b with
    | (.ok (), b) => (.ok (), env.logHandled name more b)
    | (.error stop, b) => (.error stop.failure, env.logStopped name stop.failure b)

/-- Runs the main processors in order. -/
def runMain (env : Environment ω) (e : Event) : List (Wired (MainRun ω)) → Act (Bench ω) Unit
  | [] => pure ()
  | p :: rest => do
    runOne env p.name [("event", .str e.label)] (p.run env e)
    runMain env e rest

/-- Runs the final processors in order. -/
def runFinal (env : Environment ω) : List (Wired (FinalRun ω)) → Act (Bench ω) Unit
  | [] => pure ()
  | p :: rest => do
    runOne env p.name [] (p.run env.services env.providers)
    runFinal env rest

/-- The failure of a unit of work that a manager refused. -/
def processingFailure (cause : Failure) : Failure :=
  Code.processing.failure.causedBy cause

/-- A step of a manager on the bench. -/
def managed (a : Act ω Unit) : Act (Bench ω) Unit :=
  (Bench.onWorld a).mapError processingFailure

/-- Rolls back the unit of a manager; nothing depends on how that ends. -/
def undo (m : Manager ω) (b : Bench ω) : Bench ω :=
  ((Bench.onWorld m.rollback).outcome b).2

/-- Rolls back the units of two managers, that of the first one first. -/
def undoBoth (first second : Manager ω) (b : Bench ω) : Bench ω :=
  undo second (undo first b)

/-- Runs an act inside a unit of work of each manager. -/
def inUnits (db ledger : Manager ω) (body : Act (Bench ω) Unit) : Act (Bench ω) Unit := do
  managed db.begin
  (managed ledger.begin).onError (undo db)
  body.onError (undoBoth db ledger)
  (managed db.commit).onError (undoBoth db ledger)
  (managed ledger.commit).onError (undo ledger)

/-- Runs the main stage of a pipeline on an event, from empty memories. -/
def mainStage (env : Environment ω) (p : Pipeline ω) (e : Event) : Act (Bench ω) Unit := do
  Bench.change fun b =>
    env.log .info Code.logLookup
      (.object [("event", .str e.label), ("processors", .nat p.main.length)])
      { b with events := {}, data := {} }
  let db ← Step.ofResult env.database
  let ledger ← Step.ofResult env.ledger
  inUnits db.toManager ledger (runMain env e p.main)

/-- Runs the final stage of a pipeline. -/
def finalStage (env : Environment ω) (p : Pipeline ω) : Act (Bench ω) Unit :=
  runFinal env p.final

end Dispatch

end EventWorker
