import EventWorker.Surroundings
import EventWorker.Sealing.Toolkit

/-!
# The environment of processors

An environment has slots for the managers and the providers. A slot is filled
once and then stays; reading an empty one fails.
-/

namespace EventWorker

/-- The failure of reading a slot that was never filled. -/
def notConfigured (what : String) : Failure :=
  Code.server.failure.because (what ++ " not configured")

/-- The value of a slot. -/
def slot {α : Type} (what : String) : Option α → Except Failure α
  | some v => .ok v
  | none => .error (notConfigured what)

/-- The providers that every processor can use. -/
structure Providers where
  /-- The ciphers by lowercase name. -/
  ciphers? : Option (List (String × Cipher)) := none
  logger? : Option Logger := none
  integrities? : Option (String → Option IntegrityFunction) := none
  codecs? : Option (String → Option Codec) := none

namespace Providers

/-- The table of ciphers. -/
def ciphers (p : Providers) : Except Failure (List (String × Cipher)) :=
  slot "crypto providers" p.ciphers?

/-- The logger. -/
def logger (p : Providers) : Except Failure Logger :=
  slot "logging provider" p.logger?

/-- The integrity functions. -/
def integrities (p : Providers) : Except Failure (String → Option IntegrityFunction) :=
  slot "integrity provider" p.integrities?

/-- The codecs. -/
def codecs (p : Providers) : Except Failure (String → Option Codec) :=
  slot "encoding provider" p.codecs?

/-- What sealing works with. The ciphers are missed first, then the codecs. -/
def toolkit (p : Providers) : Except Failure Toolkit := do
  let ciphers ← p.ciphers
  let codecs ← p.codecs
  let integrities ← p.integrities
  return { ciphers, codecs, integrities }

end Providers

/-- What the processors of a worker work with. -/
structure Environment (ω : Type) where
  services : Services ω
  database? : Option (Database ω) := none
  ledger? : Option (Manager ω) := none
  providers : Providers := {}

namespace Environment

variable {ω : Type}

/-- The database. -/
def database (env : Environment ω) : Except Failure (Database ω) :=
  slot "database provider" env.database?

/-- The ledger. -/
def ledger (env : Environment ω) : Except Failure (Manager ω) :=
  slot "blockchain provider" env.ledger?

/-- Fills a slot that is empty; tells whether it was. -/
def fill {α : Type} (slot : Option α) (v : α) : Bool × Option α :=
  match slot with
  | none => (true, some v)
  | some old => (false, some old)

/-- Fills the database slot. -/
def setDatabase (env : Environment ω) (db : Database ω) : Bool × Environment ω :=
  let (fresh, database?) := fill env.database? db
  (fresh, { env with database? })

/-- Fills the ledger slot. -/
def setLedger (env : Environment ω) (ledger : Manager ω) : Bool × Environment ω :=
  let (fresh, ledger?) := fill env.ledger? ledger
  (fresh, { env with ledger? })

/-- Fills the slot of the ciphers. -/
def setCiphers (env : Environment ω) (ciphers : List (String × Cipher)) : Bool × Environment ω :=
  let (fresh, ciphers?) := fill env.providers.ciphers? ciphers
  (fresh, { env with providers.ciphers? := ciphers? })

/-- Fills the slot of the logger. -/
def setLogger (env : Environment ω) (logger : Logger) : Bool × Environment ω :=
  let (fresh, logger?) := fill env.providers.logger? logger
  (fresh, { env with providers.logger? := logger? })

/-- Fills the slot of the integrity functions. -/
def setIntegrities (env : Environment ω) (integrities : String → Option IntegrityFunction) :
    Bool × Environment ω :=
  let (fresh, integrities?) := fill env.providers.integrities? integrities
  (fresh, { env with providers.integrities? := integrities? })

/-- Fills the slot of the codecs. -/
def setCodecs (env : Environment ω) (codecs : String → Option Codec) : Bool × Environment ω :=
  let (fresh, codecs?) := fill env.providers.codecs? codecs
  (fresh, { env with providers.codecs? := codecs? })

end Environment

end EventWorker
