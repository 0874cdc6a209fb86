import EventWorker.Rehearsal.Form

/-!
# Seeds

What a store holds before a rehearsal: users, and sessions of a given age.
-/

namespace EventWorker

open Json (Value)

/-- A session to be put into a store, with its age in seconds, and with an
encryption row if it has a key state. -/
structure Seed where
  client : Nat
  value : String
  token : Option String
  age : Int
  state? : Option KeyState

namespace Seed

/-- The seed of an object: an absent key state is that of a session without a suite,
and a null one gives no encryption row. -/
def ofValue (v : Value) : Seed :=
  { client := v.natural "client", value := v.text "value", token := v.text? "token"
    age := v.integer "age_secs"
    state? := if v.get? "mle" = some .null then none else some (Rehearsal.keyStateOr v) }

/-- Puts the session into a store at a time: the ids of both rows. -/
def plant (seed : Seed) (now : Int) : Act Store (Nat × Option Nat) := do
  let db := Store.database Lens.whole Site.thread
  let id ← db.createSession seed.client seed.value seed.token (now - seed.age * 1000)
  match seed.state? with
  | none => return (id, none)
  | some state => return (id, some (← db.createEncryption id state))

end Seed

end EventWorker
