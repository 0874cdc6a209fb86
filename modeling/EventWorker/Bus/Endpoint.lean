import EventWorker.Bus.Broadcast
import EventWorker.Surroundings

/-!
# Inputs and outputs in their surroundings

Each works in a surrounding state of which it is a part. None of them has a
connection, so setting one up only keeps its settings.
-/

namespace EventWorker

variable {ω : Type}

namespace QueueInput

/-- The queue as the input of a worker. -/
def input (l : Lens ω QueueInput) : Input ω where
  toLifeCycle :=
    { LifeCycle.keeping fun settings => l.modify fun q => { q with settings } with
      disconnect := Step.ofState fun w => ((), l.modify close w) }
  receive w := let (r, q) := (l.get w).receive; (r, l.set q w)
  retry w := RetryPolicy.ofSettings (l.get w).settings

end QueueInput

namespace LineInput

/-- The lines as the input of a worker. -/
def input (l : Lens ω LineInput) : Input ω where
  toLifeCycle := .keeping fun settings => l.modify fun i => { i with settings }
  receive w := let (r, i) := (l.get w).receive; (r, l.set i w)
  retry w := RetryPolicy.ofSettings (l.get w).settings

end LineInput

namespace MemoryOutput

/-- The recording output of a worker. -/
def output (l : Lens ω MemoryOutput) : Output ω where
  toLifeCycle := .keeping fun settings => l.modify fun o => { o with settings }
  write m := Step.ofFunction fun w => let (r, o) := (l.get w).write m; (r, l.set o w)
  retry w := RetryPolicy.ofSettings (l.get w).settings

end MemoryOutput

namespace LineOutput

/-- The line output of a worker. -/
def output (l : Lens ω LineOutput) : Output ω where
  toLifeCycle := .keeping fun settings => l.modify fun o => { o with settings }
  write m := Step.ofState fun w => ((), l.modify (fun o => o.write m) w)
  retry w := RetryPolicy.ofSettings (l.get w).settings

end LineOutput

namespace Broadcast

/-- The bus as the output of a worker. -/
def output (l : Lens ω Broadcast) : Output ω where
  toLifeCycle := .keeping fun settings => l.modify fun b => { b with settings }
  write m := Step.ofState fun w => ((), l.modify (fun b => b.publish m) w)
  retry w := RetryPolicy.ofSettings (l.get w).settings

end Broadcast

end EventWorker
