import EventWorker.Ledger
import EventWorker.Surroundings

/-!
# The store and the ledger as managers

The store works for one thread, in a surrounding state of which it is a part.
-/

namespace EventWorker

variable {ω : Type}

namespace Store

/-- A change of the store that cannot fail. -/
def change (l : Lens ω Store) (f : Store → Store) : Act ω Unit :=
  Step.ofState fun w => ((), l.modify f w)

/-- A query of the store. -/
def reading {α : Type} (l : Lens ω Store) (f : Tables → α) : Act ω α :=
  Step.ofFunction fun w => ((l.get w).query f, w)

/-- A write to the store, which changes nothing when it is refused. -/
def writing {α : Type} (l : Lens ω Store) (f : Store → Except Failure (α × Store)) : Act ω α :=
  Step.ofFunction fun w =>
    match f (l.get w) with
    | .ok (v, s) => (.ok v, l.set s w)
    | .error e => (.error e, w)

/-- The store as the database of a thread. -/
def database (l : Lens ω Store) (thread : String) : Database ω where
  setUp _ := pure ()
  connect := Step.ofFunction fun w => let (r, s) := (l.get w).connect; (r, l.set s w)
  disconnect := change l Store.disconnect
  begin := change l fun s => s.begin thread
  commit := change l fun s => s.commit thread
  rollback := change l fun s => s.rollback thread
  session? token value := reading l fun t => t.session? token value
  sessionByValue? value := reading l fun t => t.sessionByValue? value
  user? id := reading l fun t => Keyed.find? id t.users
  userByName? username := reading l fun t => t.userByName? username
  createSession client value token time :=
    writing l fun s => s.createSession thread client value token time
  createEncryption sessionId state := writing l fun s => s.createEncryption thread sessionId state
  updateLastUpdated value time := writing l fun s => s.updateLastUpdated thread value time
  updateEncryption sessionId state := writing l fun s => s.updateEncryption thread sessionId state
  delete sessionId := writing l fun s => s.delete sessionId
  recipientsOf? value := reading l fun t => t.recipientsOf? value
  clientRecipients? value := reading l fun t => t.clientRecipients? value

end Store

namespace Ledger

/-- The ledger as a manager. -/
def manager (l : Lens ω Ledger) : Manager ω where
  toLifeCycle := .idle
  begin := step l .begin
  commit := step l .commit
  rollback := step l .rollback
where
  /-- A call of a step of the ledger. -/
  step (l : Lens ω Ledger) (s : UnitStep) : Act ω Unit :=
    Step.ofFunction fun w => let (r, g) := (l.get w).call s; (r, l.set g w)

end Ledger

end EventWorker
