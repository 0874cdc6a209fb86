import EventWorker.Json.Record
import EventWorker.Sealing.Suite

/-!
# Key states

How notifications to one session are sealed: cipher, mode, key length, the key in
base64, the codec of the encrypted text, and the integrity function.
-/

namespace EventWorker

open Json (Value Fields)

/-- How events for a session are sealed. -/
structure KeyState where
  cipher : String
  mode : String
  keyLength : Int
  key : String
  encoding : String
  integrity : String
  deriving DecidableEq, Repr, Inhabited

/-- What stands for no cipher, no key and so on. -/
def noneName : String := "none"

namespace KeyState

/-- The state of a session that has chosen no suite yet. -/
def unencrypted : KeyState :=
  { cipher := noneName, mode := noneName, keyLength := -1, key := noneName
    encoding := noneName, integrity := noneName }

/-- Events go out as they are. -/
def isPlaintext (k : KeyState) : Bool :=
  Text.sameIgnoringCase k.cipher noneName

/-- The parameters that the cipher is called with. -/
def params (k : KeyState) : CipherParams :=
  { mode := k.mode, keyLength := k.keyLength }

/-- The fields of the JSON form. -/
def fields (k : KeyState) : List (String × Value) :=
  [("cipher_name", .str k.cipher), ("cipher_mode", .str k.mode),
    ("cipher_keylength", .int k.keyLength), ("key", .str k.key), ("encoding", .str k.encoding),
    ("integrity_fun", .str k.integrity)]

end KeyState

end EventWorker
