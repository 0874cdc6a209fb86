import EventWorker.Sealing.Negotiation
import EventWorker.Sealing.Transport

/-!
# Clients

A client chooses a suite among those the worker offers, makes a key for it, tells
the worker both, and opens the notifications it receives with the key.
-/

namespace EventWorker

open Json (Value)

/-- The state of a client. Before a suite is chosen the key is empty. -/
structure Client where
  toolkit : Toolkit
  suite? : Option Suite := none
  key : String := ""

namespace Client

/-- The number of key bytes of a suite, none for a negative length. -/
def keyBytes (s : Suite) : Nat :=
  s.keyLength.toNat / 8

/-- Chooses a suite and makes a fresh key for it. Without a common suite the
state stays. -/
def negotiate (c : Client) (offered : List Suite) (pick : Nat → Nat) (draw : Nat → Bytes) :
    Except SealError (Suite × Client) := do
  let s ← Negotiation.choose pick offered c.toolkit.suites
  return (s, { c with suite? := some s, key := Bytes.Base64.encodeText (draw (keyBytes s)) })

/-- The reason given for a reply without suites. -/
def noSuitesText : String := "reply carries no cipher_suites"

/-- The reason given for a reply whose suites cannot be read. -/
def badSuitesText : String := "cipher_suites is not a list of suites"

/-- The suites that a reply of the worker offers. -/
def suitesOfReply (reply : Event) : Except SealError (List Suite) :=
  match Keyed.find? "cipher_suites" reply.payload with
  | none => .error (.decode noSuitesText)
  | some v =>
    match v.items?.bind fun items => items.mapM Suite.ofValue? with
    | some suites => .ok suites
    | none => .error (.decode badSuitesText)

/-- How the client would seal events itself: under the suite it has chosen, or under
none before. -/
def keyState (c : Client) (encoding integrity : String) : KeyState :=
  let s := c.suite?.getD ⟨noneName, noneName, -1⟩
  { cipher := s.name, mode := s.mode, keyLength := s.keyLength, key := c.key
    encoding, integrity }

/-- The parameters by which the client tells the worker its choice. -/
def selection (c : Client) : Value :=
  match c.suite? with
  | some s => .object [("cipher_suite", s.toValue), ("cipher_key", .str c.key)]
  | none => .object []

/-- Reads a notification, opening it when it is sealed. -/
def receive (c : Client) (text : String) : Except Failure Event :=
  Event.receive text c.key c.toolkit

end Client

end EventWorker
