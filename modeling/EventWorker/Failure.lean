import EventWorker.Json.Value
import EventWorker.Text.Digits

/-!
# Failures

A failure has a stable numeric code, a message and two flags: whether the
operation may be retried, and whether the client is told. The failures that led
to it follow, nearest first.
-/

namespace EventWorker

open Json (Value)

/-- One link in a chain of failures. -/
structure Notice where
  code : Nat
  message : String
  recoverable : Bool := true
  notifiable : Bool := true
  deriving DecidableEq, Repr, Inhabited

/-- A failure with the chain of its causes, nearest first. -/
structure Failure extends Notice where
  causes : List Notice := []
  deriving DecidableEq, Repr, Inhabited

/-- The broad class of a failure, read off its code. -/
inductive FailureKind
  | validation
  | infrastructure
  | application
  | protocol
  deriving DecidableEq, Repr

namespace Failure

/-- A recoverable, notifiable failure without a cause. -/
def new (code : Nat) (message : String) : Failure :=
  { code, message }

/-- The failure, logged only. -/
def silent (f : Failure) : Failure :=
  { f with notifiable := false }

/-- The failure, not to be retried. -/
def terminal (f : Failure) : Failure :=
  { f with recoverable := false }

/-- The failure with `cause` and its causes in place of its own. -/
def causedBy (f cause : Failure) : Failure :=
  { f with causes := cause.toNotice :: cause.causes }

/-- The failure with a plain text as its cause. -/
def because (f : Failure) (text : String) : Failure :=
  f.causedBy (new 0 text)

/-- The nearest cause. -/
def cause? (f : Failure) : Option Failure :=
  match f.causes with
  | [] => none
  | c :: rest => some { c with causes := rest }

/-- The code of the nearest cause, 0 without one. -/
def causeCode (f : Failure) : Nat :=
  (f.causes.head?.map Notice.code).getD 0

/-- The one-line form: the code in brackets, then the message. -/
def display (f : Failure) : String :=
  "[" ++ String.ofList (Text.decimal f.code) ++ "] " ++ f.message

/-- The code under which the failure is logged: the digits `24` before its own,
as long as the result stays below `2 ^ 32`. -/
def logCode (f : Failure) : Nat :=
  let logged := 24 * Nat.pow 10 (Text.decimal f.code).length + f.code
  if logged < UInt32.size then logged else f.code

/-- The class of the failure. -/
def kind (f : Failure) : FailureKind :=
  let c := f.code
  if 821 ≤ c ∧ c ≤ 829 ∨ c = 840 then .validation
  else if c = 802 ∨ c = 803 ∨ c = 21268 ∨ c = 24765 ∨ c = 24766 ∨ c = 199 then .protocol
  else if 500 ≤ c ∧ c ≤ 599 ∨ c = 818 ∨ c = 816 ∨ 24000 ≤ c ∧ c ≤ 24699 then .infrastructure
  else .application

/-- The wire form of a chain: code, message and, under `per`, the cause, which
is an empty string at the end. -/
def chainValue : List Notice → Value
  | [] => .str ""
  | n :: rest =>
    .object [("code", .nat n.code), ("msg", .str n.message), ("per", chainValue rest)]

/-- The wire form of the failure. -/
def toValue (f : Failure) : Value :=
  chainValue (f.toNotice :: f.causes)

end Failure

/-- A catalogued failure: a code and its default message. -/
structure Code where
  id : Nat
  text : String
  deriving DecidableEq, Repr

namespace Code

/-- The failure of a catalogue entry. -/
def failure (c : Code) : Failure :=
  .new c.id c.text

end Code

end EventWorker
