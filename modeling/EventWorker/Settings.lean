import EventWorker.Keyed
import EventWorker.Text.Blank
import EventWorker.Text.Integer

/-!
# Settings

Providers and processors are configured by a line of `key=value` segments
between semicolons. A segment without an equals sign or with a blank key says
nothing, keys and values are trimmed, and of two segments with one key the later
one counts. A value may contain equals signs.
-/

namespace EventWorker

/-- Configured values by key. -/
structure Settings where
  entries : List (String × String) := []
  deriving DecidableEq, Repr

namespace Settings

/-- The key and value of a segment that has both. -/
def segment? (cs : List Char) : Option (String × String) :=
  (Text.cut? '=' cs).bind fun (key, value) =>
    let key := Text.trim key
    if key.isEmpty then none
    else some (String.ofList key, String.ofList (Text.trim value))

/-- The settings of a configuration line. -/
def parse (line : String) : Settings :=
  ⟨Keyed.ofList ((Text.pieces ';' line.toList).filterMap segment?)⟩

/-- The value under the first of `keys` that has one. -/
def get? (s : Settings) (keys : List String) : Option String :=
  keys.findSome? fun k => Keyed.find? k s.entries

/-- A text, `default` when it is not set. -/
def text (s : Settings) (keys : List String) (default : String) : String :=
  (s.get? keys).getD default

/-- An integer, `default` when it is not set or no integer. -/
def integer (s : Settings) (keys : List String) (default : Int) : Int :=
  ((s.get? keys).bind Text.integer?).getD default

/-- A truth value in one of six spellings, `default` for any other text. -/
def flag (s : Settings) (keys : List String) (default : Bool) : Bool :=
  match (s.get? keys).map Text.lowercase with
  | none => default
  | some word =>
    if word = "true" ∨ word = "1" ∨ word = "yes" then true
    else if word = "false" ∨ word = "0" ∨ word = "no" then false
    else default

end Settings

end EventWorker
