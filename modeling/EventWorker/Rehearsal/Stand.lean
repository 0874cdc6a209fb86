import EventWorker.Rehearsal.Script
import EventWorker.Worker.Run

/-!
# Stands

A stand is a started worker with the bench that it works on.
-/

namespace EventWorker

/-- A worker and its bench. -/
structure Stand where
  worker : Worker Rig
  bench : Bench Rig

namespace Rig

/-- A start with the providers of the rig, behind their faults, in place of the
configured ones. -/
def plan (config : Config) (registry : Registry Rig) : Plan Rig where
  config := config
  supply := supply
  registry := registry
  input? := some input
  output? := some output
  database? := some database
  ledger? := some ledger

/-- Puts messages into the queue of the site. -/
def feed (messages : List Inbound) (r : Rig) : Rig :=
  let queue := messages.foldl (fun q m => (q.send m).2) r.site.queue
  { r with site.queue := queue }

end Rig

namespace Stand

/-- The rig as a part of the stand. -/
def rigLens : Lens Stand Rig :=
  ⟨fun s => s.bench.world, fun v s => { s with bench.world := v }⟩

/-- Handles one raw message, without the input. -/
def handle (raw : String) (s : Stand) : Report × Stand :=
  let (report, bench) := s.worker.dispatcher.handle raw s.bench
  (report, { s with bench })

/-- Runs the worker until its queue is empty; gives the number of messages. -/
def run (s : Stand) : Nat × Stand :=
  let waiting := s.bench.world.site.queue.waiting.length
  let (handled, bench) := s.worker.run (waiting + 1) s.bench
  (handled, { s with bench })

/-- Stops the worker; gives the failures. -/
def shutdown (s : Stand) : List Failure × Stand :=
  let (failures, bench) := s.worker.shutdown s.bench
  (failures, { s with bench })

end Stand

end EventWorker
