import EventWorker.Environment

/-!
# Providers by name

The configuration names a provider for each section, up to ASCII case. A supply
has the inputs, outputs and managers that can be named.
-/

namespace EventWorker

/-- The inputs that can be named. -/
inductive InputKind
  | lines
  | queue
  deriving DecidableEq, Repr

/-- The outputs that can be named. -/
inductive OutputKind
  | lines
  | memory
  | broadcast
  deriving DecidableEq, Repr

/-- The databases that can be named. -/
inductive DatabaseKind
  | memory
  deriving DecidableEq, Repr

/-- The ledgers that can be named. -/
inductive LedgerKind
  | null
  deriving DecidableEq, Repr

/-- What a worker takes its inputs, outputs and managers from. -/
structure Supply (ω : Type) where
  services : Services ω
  input : InputKind → Input ω
  output : OutputKind → Output ω
  database : DatabaseKind → Database ω
  ledger : LedgerKind → Manager ω

namespace Provider

/-- The entry with a name, or the failure of the section. -/
def load {α : Type} (code : Code) (entries : List (String × α)) (name : String) :
    Except Failure α :=
  match Keyed.find? (Text.lowercase name) entries with
  | some v => .ok v
  | none => .error (code.failure.terminal.because ("unknown provider " ++ name))

/-- The input with a name. -/
def input (name : String) : Except Failure InputKind :=
  load Code.loadInput [("stdin", .lines), ("channel", .queue)] name

/-- The output with a name. -/
def output (name : String) : Except Failure OutputKind :=
  load Code.loadOutput [("stdout", .lines), ("memory", .memory), ("broadcast", .broadcast)] name

/-- The database with a name. -/
def database (name : String) : Except Failure DatabaseKind :=
  load Code.loadDatabase [("memory", .memory)] name

/-- The ledger with a name. -/
def ledger (name : String) : Except Failure LedgerKind :=
  load Code.loadLedger [("null", .null), ("none", .null)] name

/-- The logger with a name, before it is set up. -/
def logger (name : String) : Except Failure Logger :=
  load Code.loadLogger [("tracing", {}), ("default", {})] name

/-- The cipher with a name. -/
def cipher (name : String) : Except Failure Cipher :=
  load Code.loadCrypto (Cipher.builtin.map fun c => (c.name, c)) name

/-- The integrity functions with a name. -/
def integrities (name : String) : Except Failure (String → Option IntegrityFunction) :=
  load Code.loadIntegrity [("default", IntegrityFunction.named?)] name

/-- The codecs with a name. -/
def codecs (name : String) : Except Failure (String → Option Codec) :=
  load Code.loadEncoding [("default", Codec.named?)] name

end Provider

end EventWorker
