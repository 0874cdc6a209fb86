import EventWorker.Json.Value

/-!
# Lenient access

The fields of an object that need not be there. A field that is missing, or of another kind
than the one asked for, reads as the empty value of that kind.
-/

namespace EventWorker.Json.Value

/-- The field `name`, null if it is missing. -/
def field (v : Value) (name : String) : Value :=
  (v.get? name).getD .null

/-- The text of the field `name`. -/
def text? (v : Value) (name : String) : Option String :=
  (v.field name).str?

/-- The text of the field `name`, empty by default. -/
def text (v : Value) (name : String) : String :=
  (v.text? name).getD ""

/-- The signed word of the field `name`, zero by default. -/
def integer (v : Value) (name : String) : Int :=
  ((v.field name).int?).getD 0

/-- The integer of the field `name`, if it is not negative. -/
def natural? (v : Value) (name : String) : Option Nat :=
  (v.field name).nat?

/-- The integer of the field `name`, zero if it is negative. -/
def natural (v : Value) (name : String) : Nat :=
  (v.natural? name).getD 0

/-- The truth value of the field `name`. -/
def flagOr (v : Value) (default : Bool) (name : String) : Bool :=
  match v.field name with
  | .bool b => b
  | _ => default

/-- The truth value of the field `name`, false by default. -/
def flag (v : Value) (name : String) : Bool :=
  v.flagOr false name

/-- The items of the field `name`. -/
def list (v : Value) (name : String) : List Value :=
  (v.field name).items?.getD []

/-- The texts among the items of the field `name`. -/
def texts (v : Value) (name : String) : List String :=
  (v.list name).filterMap str?

/-- The fields of the field `name`. -/
def entries (v : Value) (name : String) : Fields :=
  (v.field name).fields?.getD []

end EventWorker.Json.Value
