import EventWorker.Bus.Endpoint
import EventWorker.Crypto.Entropy
import EventWorker.Store.Manager
import EventWorker.Worker.Provider

/-!
# Sites

A site is the surroundings of a worker that runs on its own: one provider of each
kind, a clock, a source of fresh bytes and the log.
-/

namespace EventWorker

/-- The providers of a worker, its clock, its entropy and its log. -/
structure Site where
  store : Store := {}
  ledger : Ledger := {}
  queue : QueueInput := {}
  lines : LineInput := {}
  kept : MemoryOutput := {}
  printed : LineOutput := {}
  bus : Broadcast := {}
  /-- Milliseconds since a fixed moment. -/
  clock : Int := 0
  entropy : Crypto.Entropy
  /-- The newest record first. -/
  log : List LogRecord := []

namespace Site

/-- The store as a part of the site. -/
def storeLens : Lens Site Store :=
  ⟨Site.store, fun v s => { s with store := v }⟩

/-- The ledger as a part of the site. -/
def ledgerLens : Lens Site Ledger :=
  ⟨Site.ledger, fun v s => { s with ledger := v }⟩

/-- The queue as a part of the site. -/
def queueLens : Lens Site QueueInput :=
  ⟨Site.queue, fun v s => { s with queue := v }⟩

/-- The line input as a part of the site. -/
def linesLens : Lens Site LineInput :=
  ⟨Site.lines, fun v s => { s with lines := v }⟩

/-- The recording output as a part of the site. -/
def keptLens : Lens Site MemoryOutput :=
  ⟨Site.kept, fun v s => { s with kept := v }⟩

/-- The line output as a part of the site. -/
def printedLens : Lens Site LineOutput :=
  ⟨Site.printed, fun v s => { s with printed := v }⟩

/-- The bus as a part of the site. -/
def busLens : Lens Site Broadcast :=
  ⟨Site.bus, fun v s => { s with bus := v }⟩

variable {ω : Type}

/-- The clock, the entropy and the log of a site in surroundings `ω`. -/
def services (l : Lens ω Site) : Services ω where
  now w := ((l.get w).clock, w)
  draw w :=
    let s := l.get w
    let (stream, entropy) := s.entropy.draw
    (stream, l.set { s with entropy } w)
  record r := l.modify fun s => { s with log := r :: s.log }

/-- The thread on which a worker runs. -/
def thread : String := "worker"

/-- All that a worker can be configured with at a site in surroundings `ω`. -/
def supply (l : Lens ω Site) (thread : String) : Supply ω where
  services := services l
  input
    | .lines => LineInput.input (l.comp linesLens)
    | .queue => QueueInput.input (l.comp queueLens)
  output
    | .lines => LineOutput.output (l.comp printedLens)
    | .memory => MemoryOutput.output (l.comp keptLens)
    | .broadcast => Broadcast.output (l.comp busLens)
  database
    | .memory => Store.database (l.comp storeLens) thread
  ledger
    | .null => Ledger.manager (l.comp ledgerLens)

end Site

end EventWorker
