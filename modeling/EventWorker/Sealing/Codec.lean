import EventWorker.Bytes.Base64
import EventWorker.Crypto.Crc16
import EventWorker.Crypto.Sha256
import EventWorker.Sealing.Error

/-!
# Codecs and integrity functions

A codec turns an encrypted text into one that fits a JSON string, and back. An
integrity function gives the digest of a text before it is encrypted. Both are
looked up by exact name.
-/

namespace EventWorker

/-- An encoding and its inverse. -/
structure Codec where
  encode (bytes : Bytes) : Except SealError Bytes
  decode (bytes : Bytes) : Except SealError Bytes

/-- The reason given for a text that is no base64. -/
def notBase64Text : String := "the text is not base64"

/-- The bytes that a text in base64 writes. -/
def decodeBase64 (s : String) : Except SealError Bytes :=
  match Bytes.Base64.decodeText? s with
  | some bytes => .ok bytes
  | none => .error (.decode notBase64Text)

namespace Codec

/-- The codec that changes nothing. -/
def identity : Codec where
  encode := .ok
  decode := .ok

/-- Base64 in both directions. -/
def base64 : Codec where
  encode bytes := .ok (Bytes.Base64.encode bytes)
  decode bytes :=
    match Bytes.Base64.decode? bytes with
    | some bytes => .ok bytes
    | none => .error (.decode notBase64Text)

/-- The built-in codec with a name. -/
def named? (name : String) : Option Codec :=
  if name = "base64" then some base64
  else if name = "input" ∨ name = "none" then some identity
  else none

end Codec

/-- A digest as text. -/
abbrev IntegrityFunction := Bytes → String

namespace IntegrityFunction

/-- The names of the built-in integrity functions. -/
def available : List String :=
  ["crc16", "sha256"]

/-- The built-in integrity function with a name. -/
def named? (name : String) : Option IntegrityFunction :=
  if name = "crc16" then some Crypto.Crc16.digest
  else if name = "sha256" then some Crypto.Sha256.digest
  else none

/-- Whether `digest` is what the function called `name` gives for a text. An
unknown function gives nothing. -/
def check (text digest name : String) : Bool :=
  match named? name with
  | some f => f (Bytes.ofText text) = digest
  | none => false

end IntegrityFunction

end EventWorker
