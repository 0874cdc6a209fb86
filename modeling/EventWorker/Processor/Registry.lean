import EventWorker.Processor.Delivery
import EventWorker.Processor.Handshake
import EventWorker.Processor.Sessions
import EventWorker.Worker.Config

/-!
# The registry of processors

A registry has a factory for each name of a processor. Creating a processor asks
the factory for one and then sets it up with its configuration line. A factory is
meant to make a fresh processor whenever it is asked. It is free to keep one and
hand it out again, though, and then the processor is set up again as well.
-/

namespace EventWorker

/-- What a factory hands out, waiting for a configuration line: a processor that
nobody else has, or one that the registry keeps, by its number there. -/
inductive Handout (ω : Type)
  | fresh (setUp : String → Act ω (Processor ω))
  | kept (number : Nat) (setUp : String → Act ω Unit)

/-- Hands out a processor. -/
abbrev Factory (ω : Type) := ω → Handout ω × ω

/-- Factories by name, and by number the processors that they hand out more than
once. The number tells a kept processor from all others. -/
structure Registry (ω : Type) where
  factories : List (String × Factory ω) := []
  kept : Nat → Processor ω := fun _ => { name := "", stage := .final fun _ _ => pure () }

namespace Registry

variable {ω : Type}

/-- A factory of processors that have no state and accept any line. -/
def stateless (name : String) (stage : Settings → Stage ω) : String × Factory ω :=
  (name, fun w => (.fresh fun line => pure { name, stage := stage (Settings.parse line) }, w))

/-- A factory of main processors whatever the line. -/
def mainFactory (name : String) (run : Environment ω → Event → Act (Bench ω) Unit) :
    String × Factory ω :=
  stateless name fun _ => .main (MainRun.ofAct run)

/-- The built-in processors. -/
def builtin : Registry ω where
  factories := Keyed.ofList
    [mainFactory "authentication_check" Processor.authenticate,
     mainFactory "update_session" Processor.touchSession,
     mainFactory "start_session" Processor.startSession,
     mainFactory "client_ready" Processor.offerSuites,
     mainFactory "cipher_suite_selection" Processor.selectSuite,
     stateless "find_sessions_mle" fun s =>
       .main (MainRun.ofAct (Processor.findRecipients (s.flag ["multiple_sessions"] true))),
     stateless "event_multiplication_mle" fun _ => .final (FinalRun.ofAct Processor.multiply),
     stateless "event_type_to_session" fun _ =>
       .final (FinalRun.ofAct fun _ _ => Processor.rekeyBySession)]

/-- Adds a factory, in place of an older one with its name. -/
def register (r : Registry ω) (name : String) (factory : Factory ω) : Registry ω :=
  { r with factories := Keyed.insert name factory r.factories }

/-- The names, in their order. -/
def names (r : Registry ω) : List String :=
  Keyed.keys r.factories

/-- Whether a name is known. -/
def contains (r : Registry ω) (name : String) : Bool :=
  Keyed.contains name r.factories

/-- Sets up what was handed out; gives the processor, and its number if it is kept. -/
def setUp (r : Registry ω) (line : String) : Handout ω → Act ω (Option Nat × Processor ω)
  | .fresh setUp => return (none, ← setUp line)
  | .kept number setUp => do
    setUp line
    return (some number, r.kept number)

/-- Has a processor handed out and sets it up. -/
def handOut (r : Registry ω) (spec : ProcessorSpec) : Act ω (Option Nat × Processor ω) :=
  match Keyed.find? spec.name r.factories with
  | none => throw (Code.loadProcessor.failure.terminal.because ("unknown processor " ++ spec.name))
  | some factory => do
    let handout ← Step.ofState factory
    (r.setUp spec.line handout).mapError fun f =>
      Code.setUpProcessor.failure.terminal.causedBy f

/-- A processor that is set up. -/
def create (r : Registry ω) (spec : ProcessorSpec) : Act ω (Processor ω) := do
  return (← r.handOut spec).2

end Registry

end EventWorker
