import EventWorker.Pipeline.Resolver

/-!
# The pipeline table

The table binds each label to its two lists of processors. A reference stands
for the processors of the resolved fragment, and each processor named in a
pipeline is created for that place.
-/

namespace EventWorker

variable {ω : Type}

/-- A processor at its place in a pipeline. -/
structure Wired (ρ : Type) where
  id : Identity
  name : String
  run : ρ

/-- The processors bound to a label. -/
structure Pipeline (ω : Type) where
  main : List (Wired (MainRun ω)) := []
  final : List (Wired (FinalRun ω)) := []

/-- Pipelines by label, and every processor in them once, in the order of first
use. -/
structure PipelineTable (ω : Type) where
  pipelines : List (String × Pipeline ω) := []
  distinct : List (Instance ω) := []

namespace PipelineTable

/-- The failure of a processor in the wrong list. -/
def wrongStage (label : String) (i : Instance ω) (wanted : StageKind) : Failure :=
  Code.loadProcessor.failure.terminal.because
    (label ++ ": " ++ i.processor.name ++ " is not a " ++ wanted.name ++ " processor")

/-- The failure of a reference to no resolved fragment. -/
def undefinedReference (label text : String) : Failure :=
  Code.loadProcessor.failure.terminal.because (label ++ ": undefined macro " ++ text)

/-- The processors that an element of a pipeline stands for. -/
def instances (label : String) (e : Element) : Act (Wiring ω) (List (Instance ω)) := do
  match e with
  | .processor spec => return [← Wiring.create spec]
  | .reference text =>
    let found ←
      match e.target? with
      | some name => Wiring.loaded? name
      | none => pure none
    match found with
    | some instances => return instances
    | none => throw (undefinedReference label text)

/-- An instance in a main list. -/
def mainPlace (label : String) (i : Instance ω) : Except Failure (Wired (MainRun ω)) :=
  match i.processor.stage with
  | .main run => .ok { id := i.id, name := i.processor.name, run }
  | .final _ => .error (wrongStage label i .main)

/-- An instance in a final list. -/
def finalPlace (label : String) (i : Instance ω) : Except Failure (Wired (FinalRun ω)) :=
  match i.processor.stage with
  | .final run => .ok { id := i.id, name := i.processor.name, run }
  | .main _ => .error (wrongStage label i .final)

/-- Adds the instances whose ids are not there yet. -/
def track (known : List (Instance ω)) (new : List (Instance ω)) : List (Instance ω) :=
  new.foldl (fun acc i => if acc.any fun j => j.id = i.id then acc else acc ++ [i]) known

/-- Builds one pipeline: its main list before its final one. The instances are
given in the order of their use. -/
def buildOne (label : String) (spec : PipelineSpec) :
    Act (Wiring ω) (Pipeline ω × List (Instance ω)) := do
  let mainInstances ← Wiring.expand (instances label) spec.main
  let main ← Step.ofResult (mainInstances.mapM (mainPlace label))
  let finalInstances ← Wiring.expand (instances label) spec.final
  let final ← Step.ofResult (finalInstances.mapM (finalPlace label))
  return ({ main, final }, mainInstances ++ finalInstances)

/-- Builds the pipelines in the order of their labels. -/
def build (table : PipelineTable ω) : Pipelines → Act (Wiring ω) (PipelineTable ω)
  | [] => return table
  | (label, spec) :: rest => do
    let (pipeline, used) ← buildOne label spec
    build
      { pipelines := Keyed.insert label pipeline table.pipelines
        distinct := track table.distinct used } rest

/-- The pipeline bound to a label. -/
def get? (table : PipelineTable ω) (label : String) : Option (Pipeline ω) :=
  Keyed.find? label table.pipelines

end PipelineTable

end EventWorker
