import EventWorker.Catalogue
import EventWorker.Json.Reader
import EventWorker.Json.Writer

/-!
# Events

An event is a header and a payload. A plain header carries a task and a label,
a transport header the cipher, the integrity function and the digest of a sealed
event; which of the two a header is depends on the cipher alone. On the wire the
header fields stand beside `params`, which holds the payload, and a session that
is empty or `n/a` is left out.
-/

namespace EventWorker

open Json (Value Fields)

/-- What stands in a header field that has no value. -/
def notAvailable : String := "n/a"

/-- The label of events that report a failure. -/
def errorLabel : String := "error"

/-- The header of an event. -/
structure Header where
  session : String
  task : String
  label : String
  /-- Only a transport header has a cipher. -/
  cipher : Option String := none
  integrity : Option String := none
  digest : Option String := none
  /-- 0 for a plain event and 1 for a sealed one, below 256. -/
  sealing : Option Nat := none
  deriving DecidableEq, Repr, Inhabited

/-- A labelled message of a session. -/
structure Event where
  header : Header
  payload : Fields
  deriving Repr, Inhabited, DecidableEq

namespace Header

/-- The header of a plain event. -/
def plain (session task label : String) : Header :=
  { session, task, label }

/-- The header of a sealed event. -/
def transport (session cipher integrity digest : String) : Header :=
  { session, task := notAvailable, label := notAvailable
    cipher := some cipher, integrity := some integrity, digest := some digest }

/-- The header belongs to a sealed event. -/
def isTransport (h : Header) : Bool :=
  h.cipher.isSome

/-- The header names a session. -/
def hasSession (h : Header) : Bool :=
  h.session ≠ "" && h.session ≠ notAvailable

/-- The header fields of the wire form, to which `params` is added. -/
def fields (h : Header) : Fields :=
  let session := if h.hasSession then [("session", Value.str h.session)] else []
  let body :=
    match h.cipher with
    | some cipher =>
      [("cipher_suite_name", Value.str cipher),
        ("integrity_fun", .str (h.integrity.getD notAvailable)),
        ("digest", .str (h.digest.getD notAvailable))]
    | none => [("task", .str h.task), ("event", .str h.label)]
  let sealing := match h.sealing with
    | some n => [("mle", Value.nat n)]
    | none => []
  Keyed.ofList (session ++ body ++ sealing)

/-- All fields of a header, null for those that it lacks. -/
def toValue (h : Header) : Value :=
  let text (s : Option String) : Value := (s.map Value.str).getD .null
  .object [("session", .str h.session), ("task", .str h.task), ("event", .str h.label),
    ("cipher_suite_name", text h.cipher), ("integrity_fun", text h.integrity),
    ("digest", text h.digest), ("mle", (h.sealing.map Value.nat).getD .null)]

/-- A header field as text: a string as it is, a number in its written form. -/
def text? : Option Value → Option String
  | some (.str s) => some s
  | some (.num n) => some n.render
  | _ => none

/-- The header of a wire form. It needs task and label, or else the three fields
of a sealed event. -/
def ofFields (fields : Fields) : Except Failure Header :=
  let field (name : String) : Option String := text? (Keyed.find? name fields)
  let session := (field "session").getD notAvailable
  let sealing := ((Keyed.find? "mle" fields).bind Value.nat?).filter (· < 256)
  match field "task", field "event" with
  | some task, some label => .ok { plain session task label with sealing }
  | _, _ =>
    match field "cipher_suite_name", field "integrity_fun", field "digest" with
    | some cipher, some integrity, some digest =>
      .ok { transport session cipher integrity digest with sealing }
    | _, _, _ => .error Code.labelMissing.failure.silent

end Header

namespace Event

/-- The label of the event, which selects its pipeline. -/
def label (e : Event) : String :=
  e.header.label

/-- The text of a payload field that is a string. -/
def param? (e : Event) (name : String) : Option String :=
  (Keyed.find? name e.payload).bind Value.str?

/-- The wire form: the header fields beside `params`. -/
def toValue (e : Event) : Value :=
  .obj (Keyed.insert "params" (.obj e.payload) e.header.fields)

/-- The wire form as compact JSON text. -/
def render (e : Event) : String :=
  e.toValue.render

/-- The event of a wire form. -/
def ofValue (v : Value) : Except Failure Event := do
  let some fields := v.fields? | .error Code.notJson.failure.silent
  let header ← Header.ofFields fields
  let some payload := (Keyed.find? "params" fields).bind Value.fields?
    | .error Code.paramsRequired.failure.silent
  return { header, payload }

/-- The cause of a failure to read a text as JSON. -/
def notJsonText : String := "the text is not a JSON value"

/-- The event of a wire text. -/
def parse (text : String) : Except Failure Event :=
  match Json.parse? text with
  | some v => ofValue v
  | none => .error (Code.notJson.failure.silent.because notJsonText)

end Event

end EventWorker
