import EventWorker.Processor.Basic

/-!
# Delivery

`findRecipients` loads the destinations of an event into the scratch data, under
the session of the event. In the final stage the events that wait under their
labels are addressed: `multiply` seals a copy of each for every destination that
was loaded for its session, and `rekeyBySession` moves each as it is to its own
session.
-/

namespace EventWorker.Processor

variable {ω : Type}

/-- Loads the destinations of an event: all sessions of the client, or only the
session itself. -/
def findRecipients (multiple : Bool) (env : Environment ω) (e : Event) : Act (Bench ω) Unit := do
  let db ← Step.ofResult env.database
  let session := e.header.session
  let found ← Bench.onWorld <|
    (if multiple then db.clientRecipients? session else db.recipientsOf? session).mapError fun f =>
      Code.sessionLookup.failure.causedBy f
  let some recipients := found | throw Code.sessionToken.failure.silent
  Bench.change fun b => b.pushData session (recipients.map Recipient.toValue)

/-- The key and the event that a waiting event becomes: under its session and
without it, or as it is when it has none. -/
def readdressed (entry : String × Event) : String × Event :=
  if entry.2.header.hasSession then (entry.2.header.session, entry.2.withoutSession) else entry

/-- Moves every waiting event to its own session. -/
def rekeyBySession : Act (Bench ω) Unit :=
  Bench.change fun b =>
    let (waiting, rest) := b.events.drain
    { b with events := (waiting.map readdressed).foldl (fun m entry => m.push entry.1 entry.2) rest }

/-- The failure reported when a copy cannot be sealed. -/
def sealFailure (e : SealError) : Failure :=
  match e with
  | .unknownIntegrity _ => Code.integrityUnavailable.failure.because e.message
  | _ => Code.encapsulation.failure.because e.message

/-- The cause of a failure to read a destination. -/
def notRecipientText : String := "the scratch value is not a recipient"

/-- Pushes a sealed copy of an event for each recipient, in order, up to the
first that cannot be sealed. -/
def sealFor (services : Services ω) (toolkit : Toolkit) (e : Event) :
    List Recipient → Act (Bench ω) Unit
  | [] => pure ()
  | r :: rest => do
    let draw ← Bench.onWorld (Step.ofState services.draw)
    let copy ← Step.ofResult ((e.sealUnder r.state toolkit draw).mapError sealFailure)
    Bench.change fun b => b.pushEvent r.value copy
    sealFor services toolkit e rest

/-- Seals each of the waiting events for the recipients found in the scratch data
under its session. An event without any is dropped. -/
def sealAll (services : Services ω) (toolkit : Toolkit) : List Event → Act (Bench ω) Unit
  | [] => pure ()
  | e :: rest => do
    let rows ← Step.ofState fun b => (b.data.get e.header.session, b)
    match rows.mapM Recipient.ofValue? with
    | none => throw (Code.encapsulation.failure.because notRecipientText)
    | some recipients => sealFor services toolkit e recipients
    sealAll services toolkit rest

/-- Replaces the waiting events by their sealed copies. Without any it needs no
provider. -/
def multiply (services : Services ω) (providers : Providers) : Act (Bench ω) Unit := do
  let waiting ← Step.ofState fun b =>
    let (waiting, rest) := b.events.drain
    (waiting.map Prod.snd, { b with events := rest })
  if waiting.isEmpty then return
  let toolkit ← Step.ofResult providers.toolkit
  sealAll services toolkit waiting

end EventWorker.Processor
