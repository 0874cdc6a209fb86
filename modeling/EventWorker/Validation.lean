import EventWorker.Event

/-!
# Validation

A raw message becomes an event only if it passes every check, in this order: it
is a JSON object, its session is there, is a string and is hexadecimal apart from
dashes, and it has a label. Events of all labels but four also need a payload
with a hexadecimal token. The first check that fails decides the answer.

Some producers write apostrophes for quotation marks; a text that is no JSON is
read once more with every apostrophe replaced.
-/

namespace EventWorker

open Json (Value Fields)

/-- A message that failed a check. The header is known once the session and the
label are. -/
structure Rejection where
  failure : Failure
  header? : Option Header := none
  deriving DecidableEq, Repr

namespace Validation

/-- The labels whose events need no token. -/
def openLabels : List String :=
  ["login", "encryption_login", "cipher_suite_query", "dop_log"]

/-- The character that some producers write for a quotation mark. -/
def apostrophe : Char := '\x27'

/-- The text with quotation marks for apostrophes. -/
def requoted (raw : String) : String :=
  String.ofList (raw.toList.map fun c => if c = apostrophe then '"' else c)

/-- The JSON value of a raw message, as it is or requoted. -/
def read (raw : String) : Except Failure Value :=
  match Json.parse? raw <|> Json.parse? (requoted raw) with
  | some v => .ok v
  | none => .error (Code.notJson.failure.silent.because Event.notJsonText)

/-- A text of hexadecimal digits, at least one. -/
def isHex (s : String) : Bool :=
  !s.toList.isEmpty && s.toList.all fun c => (Text.hexDigit? c).isSome

/-- A session value: hexadecimal apart from dashes. -/
def isSessionValue (s : String) : Bool :=
  isHex (String.ofList (s.toList.filter fun c => decide (c ≠ '-')))

/-- The session of a message. -/
def sessionOf (fields : Fields) : Except Failure String :=
  match Keyed.find? "session" fields with
  | none | some .null => .error Code.sessionMissing.failure
  | some (.str s) => if isSessionValue s then .ok s else .error Code.sessionNotHex.failure.silent
  | some _ => .error Code.sessionFormat.failure

/-- The header of a message. -/
def headerOf (fields : Fields) : Except Failure Header := do
  let session ← sessionOf fields
  let task := (Header.text? (Keyed.find? "task" fields)).getD notAvailable
  match Header.text? (Keyed.find? "event" fields) with
  | some label => return Header.plain session task label
  | none => throw Code.labelMissing.failure.silent

/-- The payload brings a token. -/
def checkToken (payload : Fields) : Except Failure Unit :=
  match Keyed.find? "auth_token" payload with
  | none | some .null => .error Code.authenticationRequired.failure
  | some (.str token) => if isHex token then .ok () else .error Code.tokenNotHex.failure.silent
  | some _ => .error Code.tokenNotHex.failure.silent

/-- The payload of a message with a label: without a token under an open label,
and then empty if it is not there. -/
def payloadOf (label : String) (fields : Fields) : Except Failure Fields :=
  let payload? := (Keyed.find? "params" fields).bind Value.fields?
  if openLabels.contains label then .ok (payload?.getD [])
  else
    match payload? with
    | none => .error Code.paramsRequired.failure.silent
    | some payload => (checkToken payload).map fun _ => payload

end Validation

open Validation in
/-- The event of a raw message, or the first check that it fails. -/
def validate (raw : String) : Except Rejection Event := do
  let fields ←
    match (read raw).mapError fun f => ({ failure := f } : Rejection) with
    | .ok (.obj fields) => .ok fields
    | .ok _ => .error { failure := Code.notJson.failure.silent }
    | .error r => .error r
  let header ← (headerOf fields).mapError fun f => { failure := f }
  let payload ← (payloadOf header.label fields).mapError fun f =>
    { failure := f, header? := some header }
  return { header, payload }

end EventWorker
