import EventWorker.Bus.Endpoint

/-!
# Audiences

An audience is a bus whose subscriptions go by names. Taking a name again makes the
new subscription first and ends the old one then.
-/

namespace EventWorker

/-- A bus and its subscriptions by name. -/
structure Audience where
  bus : Broadcast
  names : List (String × Nat) := []

namespace Audience

/-- The bus as a part of the audience. -/
def busLens : Lens Audience Broadcast :=
  ⟨Audience.bus, fun b a => { a with bus := b }⟩

/-- Subscribes under a name. -/
def subscribe (a : Audience) (name : String) (destination : Option String) : Audience :=
  let (id, bus) := a.bus.subscribe destination
  let bus := match Keyed.find? name a.names with
    | some old => bus.unsubscribe old
    | none => bus
  { bus, names := Keyed.insert name id a.names }

/-- Ends the subscription with a name; tells whether there was one. -/
def leave (a : Audience) (name : String) : Bool × Audience :=
  match Keyed.find? name a.names with
  | some id => (true, { bus := a.bus.unsubscribe id, names := Keyed.erase name a.names })
  | none => (false, a)

/-- What the subscription with a name finds; none if there is no such one. -/
def receive (a : Audience) (name : String) : Option (Delivery × Audience) :=
  ((Keyed.find? name a.names).bind a.bus.receive).map fun (found, bus) =>
    (found, { a with bus })

end Audience

end EventWorker
