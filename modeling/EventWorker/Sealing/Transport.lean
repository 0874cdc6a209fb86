import EventWorker.Event
import EventWorker.Sealing.KeyState
import EventWorker.Sealing.Toolkit

/-!
# Sealed events

Sealing encrypts the wire text of an event, without its session, into the
envelope that is the payload of a transport event, and puts the digest of the
text into the header. Opening is the inverse and refuses a text with another
digest. Under a key state without a cipher the event itself goes out, marked as
plain.
-/

namespace EventWorker

namespace Event

/-- The event without its session. -/
def withoutSession (e : Event) : Event :=
  { e with header := { e.header with session := "" } }

/-- The event as it goes out under a key state without a cipher. -/
def marked (e : Event) : Event :=
  { header := { Header.plain "" e.header.task e.header.label with sealing := some 0 }
    payload := e.payload }

/-- Seals an event under a key state. `draw n` gives `n` fresh bytes. -/
def sealUnder (e : Event) (k : KeyState) (t : Toolkit) (draw : Nat → Bytes) :
    Except SealError Event := do
  if k.isPlaintext then return e.marked
  let cipher ← t.cipher k.cipher
  let digest ← t.integrity k.integrity
  let key ← decodeBase64 k.key
  let text := e.withoutSession.render
  let envelope ← Envelope.wrap cipher t.codecs draw text k.params key k.encoding
  let header := Header.transport "" k.cipher k.integrity (digest (Bytes.ofText text))
  return { header := { header with sealing := some 1 }, payload := envelope.fields }

/-- The reason given for a payload that is no envelope. -/
def notEnvelopeText : String := "the payload is not an envelope"

/-- Opens a sealed event with a key in base64; an event that is not sealed stays
as it is. -/
def openWith (e : Event) (key : String) (t : Toolkit) : Except SealError Event := do
  if e.header.sealing ≠ some 1 then return e
  let cipher ← t.cipher (e.header.cipher.getD "")
  let some envelope := Envelope.ofValue? (.obj e.payload) | throw (.decode notEnvelopeText)
  let key ← decodeBase64 key
  let text ← envelope.unwrap cipher t.codecs key
  let digest ← t.integrity (e.header.integrity.getD "")
  let computed := digest (Bytes.ofText text)
  let received := e.header.digest.getD ""
  if computed ≠ received then throw (.integrityMismatch received computed)
  match Event.parse text with
  | .ok opened => return opened
  | .error f => throw (.decode f.message)

/-- A sealed event opened with the first of several keys that opens it. -/
def openWithAny? (e : Event) (keys : List String) (t : Toolkit) : Option Event :=
  keys.findSome? fun key => (e.openWith key t).toOption

/-- The event of a wire text, opened with a key in base64. -/
def receive (text key : String) (t : Toolkit) : Except Failure Event := do
  let e ← Event.parse text
  (e.openWith key t).mapError SealError.toFailure

end Event

end EventWorker
