import EventWorker.Catalogue
import EventWorker.Store.Rows

/-!
# The tables and their undo records

The tables hold users by id, sessions by id and encryption rows by session id,
each in ascending order of its key. Ids are given out in sequence and never
again. An undo record is what a write replaced.
-/

namespace EventWorker

/-- The contents of a store. -/
structure Tables where
  users : List (Nat × User) := []
  sessions : List (Nat × Session) := []
  /-- Keyed by session. -/
  encryptions : List (Nat × Encryption) := []
  lastSession : Nat := 0
  lastEncryption : Nat := 0
  deriving DecidableEq, Repr, Inhabited

/-- A row as it was before a write, `none` when there was none. -/
inductive Undo
  | session (id : Nat) (before : Option Session)
  | encryption (sessionId : Nat) (before : Option Encryption)
  deriving DecidableEq, Repr

/-- A row put back to what it was. -/
def restore {α : Type} (key : Nat) (before : Option α) (rows : List (Nat × α)) :
    List (Nat × α) :=
  match before with
  | some row => Keyed.insert key row rows
  | none => Keyed.erase key rows

namespace Undo

/-- The session whose row, or whose encryption row, is put back. -/
def sessionId : Undo → Nat
  | .session id _ => id
  | .encryption id _ => id

/-- The tables with the row put back. -/
def apply (t : Tables) : Undo → Tables
  | .session id before => { t with sessions := restore id before t.sessions }
  | .encryption id before => { t with encryptions := restore id before t.encryptions }

end Undo

namespace Tables

/-- The first session with a value. -/
def sessionByValue? (t : Tables) (value : String) : Option Session :=
  (t.sessions.find? fun row => row.2.value = value).map Prod.snd

/-- The first session with a value and a token. -/
def session? (t : Tables) (token value : String) : Option Session :=
  (t.sessions.find? fun row => row.2.value = value && row.2.token = some token).map Prod.snd

/-- The first user with a name. -/
def userByName? (t : Tables) (username : String) : Option User :=
  (t.users.find? fun row => row.2.username = username).map Prod.snd

/-- The encryption row of the session with a value. -/
def encryptionFor? (t : Tables) (value : String) : Option Encryption :=
  (t.sessionByValue? value).bind fun s => Keyed.find? s.id t.encryptions

/-- A session as a destination, if it has an encryption row. -/
def recipient? (t : Tables) (s : Session) : Option Recipient :=
  (Keyed.find? s.id t.encryptions).map s.recipient

/-- The session with a value as a destination. -/
def recipientsOf? (t : Tables) (value : String) : Option (List Recipient) :=
  (t.sessionByValue? value).bind fun s => (t.recipient? s).map fun r => [r]

/-- All destinations of the client that owns the session with a value, in the
order of their ids. -/
def clientRecipients? (t : Tables) (value : String) : Option (List Recipient) :=
  (t.sessionByValue? value).map fun owner =>
    (t.sessions.map Prod.snd |>.filter fun s => s.client = owner.client).filterMap t.recipient?

/-- Adds a session under the next id. Two sessions cannot have one value. -/
def createSession (t : Tables) (client : Nat) (value : String) (token : Option String)
    (time : Int) : Except Failure (Nat × Undo × Tables) :=
  match t.sessionByValue? value with
  | some _ => .error (Code.sessionNotCreated.failure.because ("duplicate session " ++ value))
  | none =>
    let id := t.lastSession + 1
    let row : Session := { id, client, value, token, lastUpdated := time }
    .ok (id, .session id none,
      { t with sessions := Keyed.insert id row t.sessions, lastSession := id })

/-- Gives an existing session an encryption row under the next id, in place of
an older one. -/
def createEncryption (t : Tables) (sessionId : Nat) (state : KeyState) :
    Except Failure (Nat × Undo × Tables) :=
  if Keyed.contains sessionId t.sessions then
    let id := t.lastEncryption + 1
    .ok (id, .encryption sessionId (Keyed.find? sessionId t.encryptions),
      { t with encryptions := Keyed.insert sessionId { id, sessionId, state } t.encryptions
               lastEncryption := id })
  else .error Code.sessionNotFound.failure

/-- Sets the time of last use of the session with a value. -/
def updateLastUpdated (t : Tables) (value : String) (time : Int) :
    Except Failure (Undo × Tables) :=
  match t.sessionByValue? value with
  | none => .error Code.sessionNotFound.failure
  | some s =>
    .ok (.session s.id (some s),
      { t with sessions := Keyed.insert s.id { s with lastUpdated := time } t.sessions })

/-- Replaces the key state of an encryption row, which keeps its id. -/
def updateEncryption (t : Tables) (sessionId : Nat) (state : KeyState) :
    Except Failure (Undo × Tables) :=
  match Keyed.find? sessionId t.encryptions with
  | none => .error Code.sessionNotFound.failure
  | some e =>
    .ok (.encryption sessionId (some e),
      { t with encryptions := Keyed.insert sessionId { e with sessionId, state } t.encryptions })

/-- Removes a session and its encryption row. -/
def delete (t : Tables) (sessionId : Nat) : Tables :=
  { t with sessions := Keyed.erase sessionId t.sessions
           encryptions := Keyed.erase sessionId t.encryptions }

end Tables

end EventWorker
