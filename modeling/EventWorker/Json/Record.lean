import EventWorker.Json.Value

/-!
# Records

A record is written as an object with its fields or as an array of their values
in the order of declaration. Unknown fields of an object are ignored, while an
array may not be longer than the record. A field with several spellings may be
given by one of them only. An optional field may be absent, in an array together
with all that follow it.
-/

namespace EventWorker.Json

/-- A declared field: its spellings, and whether it may be absent. -/
structure FieldSpec where
  names : List String
  optional : Bool := false
  deriving Repr

namespace FieldSpec

/-- A field that must be present, with one spelling. -/
def required (name : String) : FieldSpec :=
  { names := [name] }

/-- The value of a field of an object. The outer option is `none` when the field
is missing or given twice. -/
def read? (spec : FieldSpec) (fields : Fields) : Option (Option Value) :=
  match spec.names.filterMap fun name => Keyed.find? name fields with
  | [] => if spec.optional then some none else none
  | [v] => some (some v)
  | _ => none

/-- The values of an array taken for the declared fields in order. -/
def zip? : List FieldSpec → List Value → Option (List (Option Value))
  | [], [] => some []
  | [], _ :: _ => none
  | spec :: specs, [] => if spec.optional then (zip? specs []).map (none :: ·) else none
  | _ :: specs, v :: vs => (zip? specs vs).map (some v :: ·)

end FieldSpec

/-- The values of the declared fields of a record, `none` for an absent
optional one. -/
def record? (specs : List FieldSpec) : Value → Option (List (Option Value))
  | .obj fields => specs.mapM fun spec => spec.read? fields
  | .arr items => FieldSpec.zip? specs items
  | _ => none

end EventWorker.Json
