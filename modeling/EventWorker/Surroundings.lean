import EventWorker.Act
import EventWorker.Bytes.Basic
import EventWorker.Bus.Input
import EventWorker.Bus.Output
import EventWorker.Logger
import EventWorker.Store.Rows

/-!
# Surroundings

What a worker needs from its surroundings, as records of steps on the state `ω`
of the surroundings. Every provider has a life cycle: it is set up with its
configuration line, connected and disconnected.
-/

namespace EventWorker

/-- The life cycle of a provider. -/
structure LifeCycle (ω : Type) where
  setUp (line : String) : Act ω Unit
  connect : Act ω Unit
  disconnect : Act ω Unit

namespace LifeCycle

/-- A life cycle in which nothing happens. -/
def idle {ω : Type} : LifeCycle ω where
  setUp _ := pure ()
  connect := pure ()
  disconnect := pure ()

/-- The life cycle of a provider that keeps its settings and no connection. -/
def keeping {ω : Type} (keep : Settings → ω → ω) : LifeCycle ω where
  setUp line := Step.ofState fun w => ((), keep (Settings.parse line) w)
  connect := pure ()
  disconnect := pure ()

end LifeCycle

/-- A manager of units of work. -/
structure Manager (ω : Type) extends LifeCycle ω where
  begin : Act ω Unit
  commit : Act ω Unit
  rollback : Act ω Unit

/-- A manager that keeps users and sessions. -/
structure Database (ω : Type) extends Manager ω where
  /-- The session with a token and a value. -/
  session? (token value : String) : Act ω (Option Session)
  /-- The session with a value. -/
  sessionByValue? (value : String) : Act ω (Option Session)
  user? (id : Nat) : Act ω (Option User)
  userByName? (username : String) : Act ω (Option User)
  createSession (client : Nat) (value : String) (token : Option String) (time : Int) : Act ω Nat
  createEncryption (sessionId : Nat) (state : KeyState) : Act ω Nat
  updateLastUpdated (value : String) (time : Int) : Act ω Unit
  updateEncryption (sessionId : Nat) (state : KeyState) : Act ω Unit
  /-- Removes a session and its encryption row, whatever becomes of the unit of
  work. -/
  delete (sessionId : Nat) : Act ω Unit
  /-- The session with a value as a destination. -/
  recipientsOf? (value : String) : Act ω (Option (List Recipient))
  /-- All destinations of the client that owns the session with a value. -/
  clientRecipients? (value : String) : Act ω (Option (List Recipient))

/-- Where outgoing messages go. -/
structure Output (ω : Type) extends LifeCycle ω where
  write (m : Outbound) : Act ω Unit
  /-- How often connecting is tried again. -/
  retry : ω → RetryPolicy

/-- Where messages come from. -/
structure Input (ω : Type) extends LifeCycle ω where
  receive : ω → Receipt × ω
  /-- How often connecting is tried again. -/
  retry : ω → RetryPolicy

/-- Time, fresh bytes and the log. -/
structure Services (ω : Type) where
  /-- The current time in milliseconds since a fixed moment. -/
  now : ω → Int × ω
  /-- A source of fresh bytes for one purpose: `n` gives `n` of them. -/
  draw : ω → (Nat → Bytes) × ω
  /-- Keeps a log record. -/
  record : LogRecord → ω → ω

end EventWorker
