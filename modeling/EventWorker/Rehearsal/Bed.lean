import EventWorker.Dispatch.Message
import EventWorker.Rehearsal.Script

/-!
# Test beds

A bed is an environment with a bench to work on and the processors at hand, so that a
processor or a dispatcher can be tried without a worker around it.
-/

namespace EventWorker

/-- An environment, a bench on a rig, and the processors that can be made. -/
structure Bed where
  env : Environment Rig
  bench : Bench Rig
  registry : Registry Rig

/-- Which slots of an environment are filled: the managers, the providers, and the
three that sealing needs together. -/
def Environment.slots {ω : Type} (env : Environment ω) : List (String × Except Failure Unit) :=
  let p := env.providers
  [("db", env.database.map fun _ => ()), ("blk", env.ledger.map fun _ => ()),
    ("crypto", p.ciphers.map fun _ => ()), ("logger", p.logger.map fun _ => ()),
    ("integrity", p.integrities.map fun _ => ()), ("encoding", p.codecs.map fun _ => ()),
    ("mle", p.toolkit.map fun _ => ())]

namespace Bed

/-- An environment in which nothing is set. -/
def emptyEnv : Environment Rig :=
  { services := Rig.supply.services }

/-- The bench as a part of the bed. -/
def benchLens : Lens Bed (Bench Rig) :=
  ⟨Bed.bench, fun v b => { b with bench := v }⟩

/-- The rig as a part of the bed. -/
def rigLens : Lens Bed Rig :=
  benchLens.comp Bench.worldLens

/-- Makes a processor and runs it once. -/
def process (bed : Bed) (spec : ProcessorSpec) (e : Event) : Act (Bench Rig) Unit := do
  let p ← Bench.onWorld (bed.registry.create spec)
  let run : Step Stop (Bench Rig) Unit :=
    match p.stage with
    | .main run => run bed.env e
    | .final run => run bed.env.services bed.env.providers
  run.mapError Stop.failure

/-- Builds pipelines of new processors. -/
def table (registry : Registry Rig) (pipelines : Pipelines) :
    Act (Bench Rig) (PipelineTable Rig) :=
  Step.ofFunction fun b =>
    let (r, w) := (PipelineTable.build {} pipelines).outcome
      { resolver := { registry }, world := b.world }
    (r, { b with world := w.world })

/-- A dispatcher with the environment of the bed, which writes to the recording
output of the site. -/
def dispatcher (bed : Bed) (pipelines : Pipelines) : Act (Bench Rig) (Dispatcher Rig) := do
  let table ← table bed.registry pipelines
  return { output := Rig.supply.output .memory, table, env := bed.env }

/-- Runs the final stage of new processors for a label; none if it is unknown. -/
def finish (bed : Bed) (pipelines : Pipelines) (label : String) :
    Act (Bench Rig) (Option Unit) := do
  match (← table bed.registry pipelines).get? label with
  | none => return none
  | some p => return some (← Dispatch.finalStage bed.env p)

/-- The bed with a fresh environment and both memories empty. -/
def cleared (bed : Bed) : Bed :=
  { bed with env := emptyEnv, bench := { world := bed.bench.world } }

end Bed

end EventWorker
