import EventWorker.Rehearsal.Fault
import EventWorker.Worker.Site

/-!
# Rigs

A rig is a site whose providers can be made to fail and whose processors may
follow scripts. It keeps a trace of what the scripted processors were asked for.
-/

namespace EventWorker

/-- A scripted processor in use. -/
structure Actor where
  name : String
  /-- Its number among those of its name, from 1. -/
  number : Nat
  calls : Nat := 0
  faults : Faults := []
  deriving Repr, Inhabited

namespace Actor

/-- The actor in the trace. -/
def title (a : Actor) : String :=
  a.name ++ "#" ++ String.ofList (Text.decimal a.number)

end Actor

/-- A site with faults, actors and a trace. -/
structure Rig where
  site : Site
  databaseFaults : Faults := []
  ledgerFaults : Faults := []
  inputFaults : Faults := []
  outputFaults : Faults := []
  /-- In the order in which they were made. -/
  actors : List Actor := []
  /-- The newest line first. -/
  trace : List String := []

namespace Rig

/-- The site as a part of the rig. -/
def siteLens : Lens Rig Site :=
  ⟨Rig.site, fun v r => { r with site := v }⟩

/-- The faults of the database as a part of the rig. -/
def databaseFaultsLens : Lens Rig Faults :=
  ⟨Rig.databaseFaults, fun v r => { r with databaseFaults := v }⟩

/-- The faults of the ledger as a part of the rig. -/
def ledgerFaultsLens : Lens Rig Faults :=
  ⟨Rig.ledgerFaults, fun v r => { r with ledgerFaults := v }⟩

/-- The faults of the input as a part of the rig. -/
def inputFaultsLens : Lens Rig Faults :=
  ⟨Rig.inputFaults, fun v r => { r with inputFaults := v }⟩

/-- The faults of the output as a part of the rig. -/
def outputFaultsLens : Lens Rig Faults :=
  ⟨Rig.outputFaults, fun v r => { r with outputFaults := v }⟩

/-- The actor with an index as a part of the rig. -/
def actorLens (index : Nat) : Lens Rig Actor :=
  ⟨fun r => r.actors.getD index default, fun v r => { r with actors := r.actors.set index v }⟩

/-- The faults of the actor with an index as a part of the rig. -/
def actorFaultsLens (index : Nat) : Lens Rig Faults :=
  (actorLens index).comp ⟨Actor.faults, fun v a => { a with faults := v }⟩

/-- The store of the site as a part of the rig. -/
def storeLens : Lens Rig Store :=
  siteLens.comp Site.storeLens

/-- The recording output of the site as a part of the rig. -/
def keptLens : Lens Rig MemoryOutput :=
  siteLens.comp Site.keptLens

/-- The faults of the provider with a name as a part of the rig. -/
def faultsLens? : String → Option (Lens Rig Faults)
  | "db" => some databaseFaultsLens
  | "blk" => some ledgerFaultsLens
  | "in" => some inputFaultsLens
  | "out" => some outputFaultsLens
  | _ => none

/-- What was written, and the rig with nothing written. -/
def takeSent (r : Rig) : List Outbound × Rig :=
  ((keptLens.get r).sent, keptLens.modify (fun o => { o with sent := [] }) r)

/-- The trace, the oldest line first, and the rig without one. -/
def takeTrace (r : Rig) : List String × Rig :=
  (r.trace.reverse, { r with trace := [] })

/-- The log, the oldest record first, and the rig without one. -/
def takeLog (r : Rig) : List LogRecord × Rig :=
  (r.site.log.reverse, { r with site.log := [] })

/-- What a worker at the site of a rig takes its providers from. -/
def supply : Supply Rig :=
  Site.supply siteLens Site.thread

/-- The store of the site behind faults. -/
def database : Database Rig :=
  (supply.database .memory).faulty databaseFaultsLens

/-- The ledger of the site behind faults. -/
def ledger : Manager Rig :=
  (supply.ledger .null).faulty ledgerFaultsLens

/-- The queue of the site behind faults. -/
def input : Input Rig :=
  (supply.input .queue).faulty inputFaultsLens

/-- The recording output of the site behind faults. -/
def output : Output Rig :=
  (supply.output .memory).faulty outputFaultsLens

end Rig

end EventWorker
