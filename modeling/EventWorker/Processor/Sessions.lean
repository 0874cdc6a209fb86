import EventWorker.Processor.Basic

/-!
# Sessions: start, authentication, use

`startSession` opens a session for a known user. `authenticate` lets an event
pass only if its session is open under the token it brings and not expired, and
`touchSession` keeps a session in use from expiring. An expired session is
deleted where it is found.
-/

namespace EventWorker.Processor

variable {ω : Type}

/-- The scratch key of the authenticated user. -/
def userKey : String := "User"

/-- The token that an event brings, empty without one. -/
def tokenOf (e : Event) : String :=
  (e.param? "auth_token").getD ""

/-- Finds the session of an event, refuses it when it is expired, and leaves the
user it belongs to in the scratch data. -/
def authenticate (env : Environment ω) (e : Event) : Act (Bench ω) Unit := do
  let db ← Step.ofResult env.database
  let found ← Bench.onWorld <| (db.session? (tokenOf e) e.header.session).mapError fun f =>
    Code.sessionToken.failure.silent.causedBy f
  let some session := found | throw Code.sessionToken.failure.silent
  let now ← Bench.onWorld (Step.ofState env.services.now)
  if session.isExpired now then
    Bench.onWorld (db.delete session.id)
    throw Code.sessionExpired.failure.silent
  let some user ← Bench.onWorld (db.user? session.client) | throw Code.userNotFound.failure
  Bench.change fun b => b.pushData userKey [user.toValue]

/-- Sets the time of last use of the session of an event. -/
def touchSession (env : Environment ω) (e : Event) : Act (Bench ω) Unit := do
  let db ← Step.ofResult env.database
  let found ← Bench.onWorld <|
    (db.session? (tokenOf e) e.header.session).mapError Failure.silent
  if found.isNone then throw (Failure.new 1 "Session not found").silent
  let now ← Bench.onWorld (Step.ofState env.services.now)
  Bench.onWorld <| (db.updateLastUpdated e.header.session now).mapError fun f =>
    Code.encryptionNotCreated.failure.causedBy f

/-- Opens a session with its encryption row for the user that the event names.
An unknown user is an answer, not a failure. -/
def startSession (env : Environment ω) (e : Event) : Act (Bench ω) Unit := do
  let db ← Step.ofResult env.database
  let found ← Bench.onWorld <|
    (db.userByName? ((e.param? "subject").getD "")).mapError fun f =>
      Code.userNotFound.failure.causedBy f
  match found with
  | none =>
    Bench.reply e [("err", .nat Code.userNotFound.id), ("msg", .str Code.userNotFound.text)]
  | some user =>
    let now ← Bench.onWorld (Step.ofState env.services.now)
    let id ← Bench.onWorld <|
      (db.createSession user.id e.header.session (e.param? "auth_token") now).mapError fun f =>
        Code.sessionNotCreated.failure.causedBy f
    let _ ← Bench.onWorld <| (db.createEncryption id .unencrypted).mapError fun f =>
      Code.encryptionNotCreated.failure.causedBy f
    Bench.reply e
      [("err", .nat 0), ("msg", .str Code.newSession.text), ("msg_id", .nat Code.newSession.id)]

end EventWorker.Processor
