import EventWorker.Dispatch.Message
import EventWorker.Worker.Provider

/-!
# Starting a worker

The fragments are checked first. Then the logger, the output, the input, the
database and the ledger are loaded and set up, the pipelines are built, and the
ciphers, the integrity functions and the codecs are loaded. Connecting comes
last: the processors, then the output, the input, the database and the ledger,
each of which is tried again as its settings say. The first failure ends the
start and is terminal.
-/

namespace EventWorker

variable {ω : Type}

/-- What a worker is started from. A given provider takes the place of the
configured one, but is set up with the configured line. -/
structure Plan (ω : Type) where
  config : Config
  supply : Supply ω
  registry : Registry ω := .builtin
  input? : Option (Input ω) := none
  output? : Option (Output ω) := none
  database? : Option (Database ω) := none
  ledger? : Option (Manager ω) := none

/-- A worker that has been started. -/
structure Worker (ω : Type) where
  dispatcher : Dispatcher ω
  input : Input ω
  database : Database ω
  ledger : Manager ω
  /-- The input is a queue that belongs to the worker. -/
  hasQueue : Bool
  /-- The worker has been told to stop. -/
  stopping : Bool := false

namespace Plan

/-- An act of the start, whose failure counts as `code` and is terminal. -/
def under {α : Type} (code : Code) (a : Act ω α) : Act ω α :=
  a.mapError fun f => code.failure.terminal.causedBy f

/-- The given provider, or else the configured one. -/
def choose {κ α : Type} (given? : Option α) (load : String → Except Failure κ) (make : κ → α)
    (name : String) : Except Failure α :=
  match given? with
  | some v => .ok v
  | none => (load name).map make

/-- The logger, set up. -/
def logger (p : Plan ω) : Except Failure Logger :=
  (Provider.logger p.config.logging.name).map fun _ =>
    Logger.ofSettings (Settings.parse p.config.logging.line)

/-- The input is to be loaded and is a queue. -/
def hasQueue (p : Plan ω) : Bool :=
  p.input?.isNone && match Provider.input p.config.input.name with
    | .ok kind => kind = .queue
    | .error _ => false

/-- The ciphers by their lowercase names. -/
def ciphers (p : Plan ω) : Except Failure (List (String × Cipher)) :=
  (p.config.ciphers.mapM fun entry => Provider.cipher entry.2.name).map fun cs =>
    Keyed.ofList (cs.map fun c => (Text.lowercase c.name, c))

/-- Resolves the fragments and builds the pipelines. -/
def table (p : Plan ω) : Act ω (PipelineTable ω) :=
  Step.ofFunction fun w =>
    let build : Act (Wiring ω) (PipelineTable ω) := do
      Wiring.resolve p.config.fragments
      PipelineTable.build {} p.config.pipelines
    let (r, s) := build.outcome { resolver := { registry := p.registry }, world := w }
    (r, s.world)

/-- Connects a provider as often as a policy allows. -/
def connect (code : Code) (policy : RetryPolicy) (a : Act ω Unit) : Act ω Unit :=
  under code (a.retrying policy.retries)

/-- Connects the processors, each once. -/
def connectAll : List (Instance ω) → Act ω Unit
  | [] => pure ()
  | i :: rest => do
    under Code.connectProcessor i.processor.connect
    connectAll rest

/-- Starts a worker. -/
def start (p : Plan ω) : Act ω (Worker ω) := do
  let c := p.config
  Step.ofResult c.fragments.check
  let logger ← Step.ofResult p.logger
  let output ← Step.ofResult (choose p.output? Provider.output p.supply.output c.output.name)
  under Code.setUpOutput (output.setUp c.output.line)
  let input ← Step.ofResult (choose p.input? Provider.input p.supply.input c.input.name)
  under Code.setUpInput (input.setUp c.input.line)
  let database ←
    Step.ofResult (choose p.database? Provider.database p.supply.database c.database.name)
  under Code.setUpDatabase (database.setUp c.database.line)
  let ledger ← Step.ofResult (choose p.ledger? Provider.ledger p.supply.ledger c.ledger.name)
  under Code.setUpLedger (ledger.setUp c.ledger.line)
  let table ← p.table
  let ciphers ← Step.ofResult p.ciphers
  let integrities ← Step.ofResult (Provider.integrities c.integrity.name)
  let codecs ← Step.ofResult (Provider.codecs c.encoding.name)
  connectAll table.distinct
  let outputPolicy ← Step.ofState fun w => (output.retry w, w)
  connect Code.connectOutput outputPolicy output.connect
  let inputPolicy ← Step.ofState fun w => (input.retry w, w)
  connect Code.connectInput inputPolicy input.connect
  connect Code.connectDatabase (.ofSettings (Settings.parse c.database.line)) database.connect
  connect Code.connectLedger (.ofSettings (Settings.parse c.ledger.line)) ledger.connect
  let env : Environment ω :=
    { services := p.supply.services
      database? := some database
      ledger? := some ledger
      providers :=
        { ciphers? := some ciphers, logger? := some logger, integrities? := some integrities
          codecs? := some codecs } }
  return { dispatcher := { output, table, env }, input, database, ledger, hasQueue := p.hasQueue }

end Plan

end EventWorker
