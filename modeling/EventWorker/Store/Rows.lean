import EventWorker.Sealing.KeyState

/-!
# Rows

A session belongs to a user and has at most one encryption row, which is keyed
by the session. Times are milliseconds since one fixed moment.
-/

namespace EventWorker

open Json (Value FieldSpec)

/-- A registered user. -/
structure User where
  id : Nat
  username : String
  deriving DecidableEq, Repr

/-- A session of a client. -/
structure Session where
  id : Nat
  client : Nat
  /-- What the header of an event names the session by. -/
  value : String
  token : Option String
  lastUpdated : Int
  deriving DecidableEq, Repr

/-- The encryption row of a session. -/
structure Encryption where
  id : Nat
  sessionId : Nat
  state : KeyState
  deriving DecidableEq, Repr

/-- A session as a destination of notifications, with its key state. -/
structure Recipient where
  client : Nat
  value : String
  state : KeyState
  deriving DecidableEq, Repr

/-- The whole seconds after which a session that was not used is expired. -/
def maxSessionAge : Int := 43200

namespace Session

/-- Whether more whole seconds than allowed have gone by since the last use.
Whole seconds are counted toward zero. -/
def isExpired (s : Session) (now : Int) : Bool :=
  maxSessionAge < (now - s.lastUpdated).tdiv 1000

/-- The session as a destination. -/
def recipient (s : Session) (e : Encryption) : Recipient :=
  { client := s.client, value := s.value, state := e.state }

/-- The JSON form of a session, without its time. -/
def fields (s : Session) : List (String × Value) :=
  [("id", .nat s.id), ("client", .nat s.client), ("value", .str s.value),
    ("token", (s.token.map Value.str).getD .null)]

end Session

namespace Encryption

/-- The JSON form of an encryption row. -/
def toValue (e : Encryption) : Value :=
  .object ([("id", .nat e.id), ("session_id", .nat e.sessionId)] ++ e.state.fields)

end Encryption

namespace User

/-- The JSON form of a user. -/
def toValue (u : User) : Value :=
  .object [("id", .nat u.id), ("username", .str u.username)]

end User

namespace Recipient

/-- The JSON form of a recipient. -/
def toValue (r : Recipient) : Value :=
  .object ([("client", .nat r.client), ("value", .str r.value)] ++ r.state.fields)

/-- The recipient of its JSON form. -/
def ofValue? (v : Value) : Option Recipient := do
  let [some client, some value, some cipher, some mode, some keyLength, some key, some integrity,
      some encoding] ←
    Json.record? [.required "client", .required "value", .required "cipher_name",
      .required "cipher_mode", .required "cipher_keylength", .required "key",
      .required "integrity_fun", .required "encoding"] v | none
  return { client := ← client.nat?, value := ← value.str?
           state := { cipher := ← cipher.str?, mode := ← mode.str?, keyLength := ← keyLength.int?
                      key := ← key.str?, encoding := ← encoding.str?
                      integrity := ← integrity.str? } }

end Recipient

end EventWorker
