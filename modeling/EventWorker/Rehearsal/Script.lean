import EventWorker.Processor.Registry
import EventWorker.Rehearsal.Rig

/-!
# Scripted processors

A script says what a processor does when it is called: the moves in order, each
on every call or on one only. Each processor made from a script is an actor with
its own count of calls and its own faults, and it leaves a line in the trace for
all that it is asked for.
-/

namespace EventWorker

open Json (Value Fields)

/-- What a scripted processor does. -/
inductive Move
  /-- Answers the event that is handled, under its label unless a key is given.
  In the final stage there is none. -/
  | reply (payload : Fields) (key? : Option String)
  | event (key : String) (e : Event)
  | data (key : String) (value : Value)
  | fail (f : Failure)
  | panic (message : Option String)
  deriving Repr

/-- A move, and the only call on which it is made if it is not made on all. -/
structure Cue where
  call? : Option Nat := none
  move : Move
  deriving Repr

/-- A processor by what it does. -/
structure Script where
  name : String
  stage : StageKind
  faults : Faults := []
  cues : List Cue := []
  deriving Repr

namespace Rig

/-- Adds a line on an actor to the trace. -/
def note (index : Nat) (text : String) (r : Rig) : Rig :=
  { r with trace := (((actorLens index).get r).title ++ " " ++ text) :: r.trace }

end Rig

namespace Move

/-- Makes a move while an event is handled, or in the final stage. -/
def make (handled? : Option Event) : Move → Step Stop (Bench Rig) Unit
  | .reply payload key? =>
    match handled? with
    | some e => Bench.change fun b => b.pushEvent (key?.getD e.label) (e.reply payload)
    | none => pure ()
  | .event key e => Bench.change fun b => b.pushEvent key e
  | .data key value => Bench.change fun b => b.pushData key [value]
  | .fail f => throw (.failed f)
  | .panic message => throw (.panicked message)

end Move

namespace Script

/-- Makes the moves that are due on a call. -/
def makeAll (handled? : Option Event) (call : Nat) : List Cue → Step Stop (Bench Rig) Unit
  | [] => pure ()
  | cue :: rest => do
    if cue.call?.all fun due => due = call then cue.move.make handled?
    makeAll handled? call rest

/-- One call of an actor. -/
def play (s : Script) (index : Nat) (text : String) (handled? : Option Event) :
    Step Stop (Bench Rig) Unit := do
  let call ← Step.ofState fun b =>
    let actor := (Rig.actorLens index).get b.world
    let call := actor.calls + 1
    let world := (Rig.actorLens index).set { actor with calls := call } (b.world.note index text)
    (call, { b with world })
  makeAll handled? call s.cues

/-- The actor's part in a pipeline. -/
def role (s : Script) (index : Nat) : Stage Rig :=
  match s.stage with
  | .main => .main fun _ e => s.play index ("handle " ++ e.label) (some e)
  | .final => .final fun _ _ => s.play index "finally" none

/-- An act of an actor that leaves a line in the trace, behind a fault. -/
def traced (index : Nat) (text : String) (m : Method) : Act Rig Unit := do
  Step.ofState fun r => ((), r.note index text)
  Faults.guard (Rig.actorFaultsLens index) m (pure ())

/-- The next actor made from the script. -/
def actor (s : Script) (r : Rig) : Actor :=
  { name := s.name
    number := (r.actors.filter fun a => a.name = s.name).length + 1
    faults := s.faults }

/-- Makes actors from the script. -/
def factory (s : Script) : Factory Rig := fun r =>
  let index := r.actors.length
  let setUp (line : String) : Act Rig (Processor Rig) := do
    traced index ("init " ++ line) .setUp
    return { name := s.name
             stage := s.role index
             connect := traced index "open" .connect
             disconnect := traced index "close" .disconnect }
  (.fresh setUp, { r with actors := r.actors ++ [s.actor r] })

end Script

/-- The registry with scripts on top. -/
def Registry.withScripts (r : Registry Rig) (scripts : List Script) : Registry Rig :=
  scripts.foldl (fun r s => r.register s.name s.factory) r

end EventWorker
