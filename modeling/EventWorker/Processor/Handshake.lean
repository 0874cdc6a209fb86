import EventWorker.Processor.Basic

/-!
# The handshake

A client learns from `offerSuites` which suites the worker serves, and tells
`selectSuite` the suite it chose with a key for it. The key state of the session
changes only when the suite is served and the key has its length.
-/

namespace EventWorker.Processor

open Json (Value)

variable {ω : Type}

/-- The label that asks for the suites. -/
def readyLabel : String := "dop_client_ready"

/-- The label that chooses a suite. -/
def selectionLabel : String := "dop_cipher_suite_selection"

/-- Answers with all suites of the worker, in the order of the cipher names. -/
def offerSuites (env : Environment ω) (e : Event) : Act (Bench ω) Unit := do
  if e.label = readyLabel then
    let ciphers ← Step.ofResult env.providers.ciphers
    let suites := suitesOf (ciphers.map Prod.snd)
    Bench.reply e
      [("err", .nat 0), ("phase", .nat 1), ("cipher_suites", .arr (suites.map Suite.toValue))]

/-- Answers with a code, 0 for success. -/
def answer (e : Event) (code : Nat) : Act (Bench ω) Unit :=
  Bench.reply e [("err", .nat code), ("phase", .nat 1)]

/-- The suite that an event asks for, if one of the ciphers serves it. -/
def requestedSuite? (ciphers : List (String × Cipher)) (e : Event) : Option Suite :=
  ((Keyed.find? "cipher_suite" e.payload).bind Suite.ofValue?).filter fun s =>
    (suitesOf (ciphers.map Prod.snd)).any fun t => t.normalized = s.normalized

/-- The key text has as many bytes as the suite has key bits divided by eight,
toward zero. -/
def keyFits (s : Suite) (key : String) : Bool :=
  match Bytes.Base64.decodeText? key with
  | some bytes => (bytes.length : Int) = s.keyLength.tdiv 8
  | none => false

/-- The key state of a session that has chosen a suite and a key. -/
def chosenState (s : Suite) (key : String) : KeyState :=
  { cipher := s.name, mode := s.mode, keyLength := s.keyLength, key
    encoding := "base64", integrity := "crc16" }

/-- Stores the suite and key that a client chose, or answers why not. -/
def selectSuite (env : Environment ω) (e : Event) : Act (Bench ω) Unit := do
  if e.label ≠ selectionLabel then return
  let ciphers ← Step.ofResult env.providers.ciphers
  match requestedSuite? ciphers e with
  | none => answer e Code.cipherSuite.id
  | some suite =>
    let key := (e.param? "cipher_key").getD ""
    if keyFits suite key then
      let db ← Step.ofResult env.database
      let found ← Bench.onWorld <| (db.sessionByValue? e.header.session).mapError fun f =>
        Code.sessionNotFound.failure.causedBy f
      match found with
      | none => answer e Code.sessionNotFound.id
      | some session =>
        Bench.onWorld <|
          (db.updateEncryption session.id (chosenState suite key)).mapError fun f =>
            Code.encryptionNotCreated.failure.causedBy f
        answer e 0
    else answer e Code.keyLength.id

end EventWorker.Processor
