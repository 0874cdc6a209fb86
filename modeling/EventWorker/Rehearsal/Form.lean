import EventWorker.Json.Access
import EventWorker.Rehearsal.Script

/-!
# Rehearsal forms

Failures, faults, events and scripts are given to a rehearsal as JSON objects, in
which every field may be left out.
-/

namespace EventWorker.Rehearsal

open Json (Value Fields)

mutual

/-- The failure of an object and its causes, nearest first; none for another value. -/
def notices : Value → List Notice
  | .obj fields =>
    let v : Value := .obj fields
    { code := v.natural "code"
      message := v.text "msg"
      recoverable := !v.flag "rip"
      notifiable := !v.flag "silent" } :: causes fields
  | _ => []

/-- The failures under `cause` among the fields of an object. -/
def causes : List (String × Value) → List Notice
  | [] => []
  | (name, v) :: rest => if name = "cause" then notices v else causes rest

end

/-- The failure of an object. -/
def failure? (v : Value) : Option Failure :=
  match notices v with
  | [] => none
  | n :: rest => some { n with causes := rest }

/-- The failure of a value, without code and message by default. -/
def failure (v : Value) : Failure :=
  (failure? v).getD (Failure.new 0 "")

/-- One failure for all calls, or a list of what becomes of each. -/
def faultPlan? : Value → Option FaultPlan
  | .obj fields => some (.always (failure (.obj fields)))
  | .arr items => some (.next (items.map failure?))
  | _ => none

/-- The names under which methods are made to fail. -/
def methodNames : List (String × Method) :=
  [("init", .setUp), ("open", .connect), ("close", .disconnect), ("begin", .begin),
    ("commit", .commit), ("rollback", .rollback), ("get_session", .session),
    ("get_session_by_value", .sessionByValue), ("get_user", .user),
    ("get_user_by_username", .userByName), ("create_session", .createSession),
    ("create_encrypted_session", .createEncryption),
    ("update_session_last_updated", .updateLastUpdated),
    ("update_encrypted_session", .updateEncryption), ("delete_session_and_mle", .delete),
    ("get_session_and_mle", .recipients), ("get_client_sessions_and_mle", .clientRecipients)]

/-- The faults after a method got another fault, or lost the one it had. -/
def setFault (t : Faults) (method : String) (v : Value) : Faults :=
  match Keyed.find? method methodNames with
  | none => t
  | some m =>
    match faultPlan? v with
    | some plan => t.set m plan
    | none => Keyed.erase m t

/-- The faults of an object with a plan for each method. -/
def faults (v : Value) : Faults :=
  (v.fields?.getD []).foldl (fun t entry => setFault t entry.1 entry.2) []

/-- The header of an event: that of a sealed one if `transport` is given. -/
def header (v : Value) : Header :=
  let session := v.text "session"
  let h := match v.field "transport" with
    | .obj fields =>
      let t : Value := .obj fields
      { Header.plain session notAvailable notAvailable with
        cipher := some (t.text "cipher_suite_name")
        integrity := t.text? "integrity_fun"
        digest := t.text? "digest" }
    | _ => Header.plain session (v.text "task") (v.text "event")
  { h with sealing := (v.natural? "mle").filter (· < 256) }

/-- The event of an object. -/
def event (v : Value) : Event :=
  { header := header v, payload := v.entries "params" }

/-- The key state of an object. -/
def keyState (v : Value) : KeyState :=
  { cipher := v.text "cipher_name", mode := v.text "cipher_mode"
    keyLength := v.integer "cipher_keylength", key := v.text "key"
    encoding := v.text "encoding", integrity := v.text "integrity_fun" }

/-- The key state under `mle`, that of a session without a suite by default. -/
def keyStateOr (v : Value) : KeyState :=
  match v.field "mle" with
  | .obj fields => keyState (.obj fields)
  | _ => .unencrypted

/-- The suite of an object. -/
def suite (v : Value) : Suite :=
  { name := v.text "name", mode := v.text "mode", keyLength := v.integer "keylength" }

/-- An incoming message. -/
def inbound (v : Value) : Inbound :=
  { topic := v.text "topic", payload := v.text "payload" }

/-- An outgoing message. -/
def outbound (v : Value) : Outbound :=
  { destination := v.text "destination", payload := v.text "payload" }

/-- A user. -/
def user (v : Value) : User :=
  { id := v.natural "id", username := v.text "username" }

/-- The processor that an object names, with its configuration line. -/
def processor (v : Value) : ProcessorSpec :=
  { name := v.text "processor", line := v.text "config" }

/-- What a scripted processor does. -/
def move? (v : Value) : Option Move :=
  match v.text "do" with
  | "reply" => some (.reply (v.entries "payload") (v.text? "key"))
  | "event" => some (.event (v.text "key") (event (v.field "event")))
  | "data" => some (.data (v.text "key") (v.field "value"))
  | "fail" => some (.fail (failure (v.field "error")))
  | "panic" => some (.panic (v.text? "message"))
  | _ => none

/-- A move with the call on which it is made. -/
def cue? (v : Value) : Option Cue :=
  (move? v).map fun move => { call? := v.natural? "on_call", move }

/-- The script of an object. -/
def script (v : Value) : Script :=
  { name := v.text "name"
    stage := if v.text "stage" = "finally" then .final else .main
    faults := faults (v.field "faults")
    cues := (v.list "actions").filterMap cue? }

/-- A rig with the faults of an object for each of its providers. -/
def rigged (v : Value) (r : Rig) : Rig :=
  { r with
    databaseFaults := faults (v.field "db")
    ledgerFaults := faults (v.field "blk")
    inputFaults := faults (v.field "in")
    outputFaults := faults (v.field "out") }

/-- The scripts under `processors`, on top of the built-in processors unless
`builtins` is false. -/
def registry (v : Value) : Registry Rig :=
  let base : Registry Rig := if v.flagOr true "builtins" then .builtin else {}
  base.withScripts ((v.list "processors").map script)

end EventWorker.Rehearsal
