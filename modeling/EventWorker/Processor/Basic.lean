import EventWorker.Environment
import EventWorker.Memory
import EventWorker.Sealing.Transport

/-!
# Processors

A processor is one stage of a pipeline. A main processor handles the event
inside the units of work; a final one reworks the memories after the main stage,
whatever came of it. Either works on the bench: the outgoing events, the scratch
data and the surroundings. It ends, fails, or breaks down.
-/

namespace EventWorker

open Json (Value)

/-- What processors work on. -/
structure Bench (ω : Type) where
  /-- Outgoing events by destination. -/
  events : Memory Event := {}
  /-- Scratch values by whatever the processors agree on. -/
  data : Memory Value := {}
  world : ω

/-- Why a processor stopped before its end. -/
inductive Stop
  | failed (failure : Failure)
  /-- It broke down, with a text if it left one. -/
  | panicked (message : Option String)
  deriving DecidableEq, Repr

namespace Stop

/-- The failure that a stop counts as. -/
def failure : Stop → Failure
  | .failed f => f
  | .panicked message => Code.processing.failure.because (message.getD "processor panicked")

end Stop

/-- What a main processor does with an event. -/
abbrev MainRun (ω : Type) := Environment ω → Event → Step Stop (Bench ω) Unit

/-- What a final processor does. It sees the providers but no manager. -/
abbrev FinalRun (ω : Type) := Services ω → Providers → Step Stop (Bench ω) Unit

/-- The stage of a processor with what it does there. -/
inductive Stage (ω : Type)
  | main (run : MainRun ω)
  | final (run : FinalRun ω)

/-- The two stages of a pipeline. -/
inductive StageKind
  | main
  | final
  deriving DecidableEq, Repr

namespace StageKind

/-- The name of a stage in messages. -/
def name : StageKind → String
  | .main => "Main"
  | .final => "Finally"

end StageKind

/-- The stage without what is done there. -/
def Stage.kind {ω : Type} : Stage ω → StageKind
  | .main _ => .main
  | .final _ => .final

/-- A processor that has been set up. -/
structure Processor (ω : Type) where
  name : String
  stage : Stage ω
  connect : Act ω Unit := pure ()
  disconnect : Act ω Unit := pure ()

namespace Bench

variable {ω : Type}

/-- The surroundings as a part of the bench. -/
def worldLens : Lens (Bench ω) ω :=
  ⟨Bench.world, fun w b => { b with world := w }⟩

/-- A step against the surroundings. -/
def onWorld {ε α : Type} (a : Step ε ω α) : Step ε (Bench ω) α :=
  a.focus worldLens

/-- A change of the bench. -/
def change {ε : Type} (f : Bench ω → Bench ω) : Step ε (Bench ω) Unit :=
  Step.ofState fun b => ((), f b)

/-- Pushes an outgoing event. -/
def pushEvent (b : Bench ω) (key : String) (e : Event) : Bench ω :=
  { b with events := b.events.push key e }

/-- Pushes scratch values. -/
def pushData (b : Bench ω) (key : String) (vs : List Value) : Bench ω :=
  { b with data := b.data.pushAll key vs }

end Bench

/-- The event that answers another one: same session, task and label. -/
def Event.reply (e : Event) (payload : Json.Fields) : Event :=
  { header := Header.plain e.header.session e.header.task e.header.label, payload }

/-- Pushes the answer to an event under the label of the event. -/
def Bench.reply {ω ε : Type} (e : Event) (payload : List (String × Value)) :
    Step ε (Bench ω) Unit :=
  Bench.change fun b => b.pushEvent e.label (e.reply (Keyed.ofList payload))

/-- A main processor that cannot break down. -/
def MainRun.ofAct {ω : Type} (run : Environment ω → Event → Act (Bench ω) Unit) : MainRun ω :=
  fun env e => (run env e).mapError Stop.failed

/-- A final processor that cannot break down. -/
def FinalRun.ofAct {ω : Type} (run : Services ω → Providers → Act (Bench ω) Unit) : FinalRun ω :=
  fun services providers => (run services providers).mapError Stop.failed

end EventWorker
