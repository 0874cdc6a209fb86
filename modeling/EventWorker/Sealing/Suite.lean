import EventWorker.Json.Record
import EventWorker.Text.Blank
import EventWorker.Text.Integer

/-!
# Cipher suites

A suite names a cipher, a mode and a key length in bits, -1 for a cipher without
a key. Peers may write a key length as a number or as text, and compare suites
by their normal text.
-/

namespace EventWorker

open Json (Value FieldSpec)

/-- The mode and key length a cipher is called with. -/
structure CipherParams where
  mode : String
  keyLength : Int
  deriving DecidableEq, Repr

/-- A suite that two peers can agree on. -/
structure Suite where
  name : String
  mode : String
  keyLength : Int
  deriving DecidableEq, Repr

/-- A key length: an integer, or a text that holds one between blanks, where an
empty text is zero. -/
def keyLength? : Value → Option Int
  | .str s =>
    let word := Text.trimmed s
    if word = "" then some 0 else Text.integer? word
  | v => v.int?

namespace CipherParams

/-- The parameters of their JSON form. -/
def ofValue? (v : Value) : Option CipherParams := do
  let [some mode, some length] ← Json.record? [.required "mode", .required "keylength"] v | none
  return { mode := ← mode.str?, keyLength := ← keyLength? length }

/-- The JSON form of parameters. -/
def toValue (p : CipherParams) : Value :=
  .object [("mode", .str p.mode), ("keylength", .int p.keyLength)]

end CipherParams

namespace Suite

/-- The suite of its JSON form. -/
def ofValue? (v : Value) : Option Suite := do
  let [some name, some mode, some length] ←
    Json.record? [.required "name", .required "mode", .required "keylength"] v | none
  return { name := ← name.str?, mode := ← mode.str?, keyLength := ← keyLength? length }

/-- The JSON form of a suite. -/
def toValue (s : Suite) : Value :=
  .object [("name", .str s.name), ("mode", .str s.mode), ("keylength", .int s.keyLength)]

/-- The text by which suites of different peers are compared. -/
def normalized (s : Suite) : String :=
  Text.lowercase (Text.trimmed s.name) ++ "|" ++ Text.lowercase (Text.trimmed s.mode) ++ "|" ++
    String.ofList (Text.signedDecimal s.keyLength)

/-- The parameters that the cipher of the suite is called with. -/
def params (s : Suite) : CipherParams :=
  { mode := s.mode, keyLength := s.keyLength }

end Suite

end EventWorker
