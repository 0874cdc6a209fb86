import EventWorker.Json.Token

/-!
# Reading JSON

The reader runs over the tokens with a stack of the arrays and objects that are
open. Of two fields of one name the later one wins, and at most 127 arrays and
objects may be open at once.
-/

namespace EventWorker.Json

/-- An open container: the items so far, newest first, or the fields so far and
the name whose value is being read. -/
inductive Frame
  | array (items : List Value)
  | object (fields : Fields) (name : String)
  deriving Repr

/-- What may come next, and the containers that are open, innermost first. -/
inductive Reading
  /-- A value must follow. -/
  | value (frames : List Frame)
  /-- An array has just been opened: a value or its end. -/
  | firstItem (frames : List Frame)
  /-- An object has just been opened: a name or its end. -/
  | firstName (frames : List Frame)
  /-- A name must follow. -/
  | name (fields : Fields) (frames : List Frame)
  /-- A name has been read and its colon must follow. -/
  | colon (fields : Fields) (name : String) (frames : List Frame)
  /-- A value is complete. -/
  | done (result : Value) (frames : List Frame)
  deriving Repr

namespace Reading

/-- The number of containers that may be open at once. -/
def depthLimit : Nat := 127

/-- Reads a token where a value must stand. -/
def valueStep (frames : List Frame) : Token → Option Reading
  | .scalar v => some (.done v frames)
  | .text s => some (.done (.str s) frames)
  | .lbracket => if frames.length < depthLimit then some (.firstItem frames) else none
  | .lbrace => if frames.length < depthLimit then some (.firstName frames) else none
  | _ => none

/-- Reads one token. -/
def step : Reading → Token → Option Reading
  | .value frames, t => valueStep frames t
  | .firstItem frames, .rbracket => some (.done (.arr []) frames)
  | .firstItem frames, t => valueStep (.array [] :: frames) t
  | .firstName frames, .rbrace => some (.done (.obj []) frames)
  | .firstName frames, .text s => some (.colon [] s frames)
  | .name fields frames, .text s => some (.colon fields s frames)
  | .colon fields s frames, .colon => some (.value (.object fields s :: frames))
  | .done v (.array items :: frames), .comma => some (.value (.array (v :: items) :: frames))
  | .done v (.array items :: frames), .rbracket => some (.done (.arr (v :: items).reverse) frames)
  | .done v (.object fields s :: frames), .comma => some (.name (Keyed.insert s v fields) frames)
  | .done v (.object fields s :: frames), .rbrace =>
    some (.done (.obj (Keyed.insert s v fields)) frames)
  | _, _ => none

/-- The value of a text whose tokens end here. -/
def finish? : Reading → Option Value
  | .done v [] => some v
  | _ => none

end Reading

/-- The value of a JSON text, or `none` when the text is none. -/
def parse? (text : String) : Option Value :=
  (tokens? text.toList).bind fun ts => (ts.foldlM Reading.step (.value [])).bind Reading.finish?

end EventWorker.Json
