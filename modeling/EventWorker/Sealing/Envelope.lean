import EventWorker.Sealing.Cipher
import EventWorker.Sealing.Codec

/-!
# Envelopes

An envelope carries one encrypted text with all that the holder of the key needs
to decrypt it: the parameters of the cipher, the nonce in base64, and the name of
the codec that the encrypted text went through.
-/

namespace EventWorker

open Json (Value Fields)

/-- An encrypted text and how it was made. -/
structure Envelope where
  params : CipherParams
  nonce : String
  encoding : String
  ciphertext : String
  deriving DecidableEq, Repr

/-- The codec of a lookup that may fail. -/
def selectCodec (codecs : String → Option Codec) (name : String) : Except SealError Codec :=
  match codecs name with
  | some codec => .ok codec
  | none => .error (.unknownEncoding name)

/-- The reason given for bytes that are no text. -/
def notTextReason : String := "the bytes are not UTF-8"

namespace Envelope

/-- The fields of the JSON form. -/
def fields (e : Envelope) : Fields :=
  Keyed.ofList
    [("cipher_params", e.params.toValue), ("iv", .str e.nonce), ("encoding", .str e.encoding),
      ("ciphertext", .str e.ciphertext)]

/-- The envelope of its JSON form. -/
def ofValue? (v : Value) : Option Envelope := do
  let [some params, some nonce, some encoding, some ciphertext] ←
    Json.record? [.required "cipher_params", .required "iv", .required "encoding",
      .required "ciphertext"] v | none
  return { params := ← CipherParams.ofValue? params, nonce := ← nonce.str?
           encoding := ← encoding.str?, ciphertext := ← ciphertext.str? }

/-- Encrypts a text under `key`. `draw n` gives `n` fresh bytes for the nonce. -/
def wrap (cipher : Cipher) (codecs : String → Option Codec) (draw : Nat → Bytes) (text : String)
    (params : CipherParams) (key : Bytes) (encoding : String) : Except SealError Envelope := do
  let codec ← selectCodec codecs encoding
  let nonce := draw (cipher.nonceBits / 8)
  let encrypted ← cipher.encrypt (Bytes.ofText text) params nonce key
  let encoded ← codec.encode encrypted
  match Bytes.text? encoded with
  | some ciphertext =>
    return { params, nonce := Bytes.Base64.encodeText nonce, encoding, ciphertext }
  | none => throw (.decode ("encoding '" ++ encoding ++ "' is not text: " ++ notTextReason))

/-- Decrypts an envelope under `key`. -/
def unwrap (cipher : Cipher) (codecs : String → Option Codec) (e : Envelope) (key : Bytes) :
    Except SealError String := do
  let codec ← selectCodec codecs e.encoding
  let nonce ← decodeBase64 e.nonce
  let encrypted ← codec.decode (Bytes.ofText e.ciphertext)
  let bytes ← cipher.decrypt encrypted e.params nonce key
  match Bytes.text? bytes with
  | some text => return text
  | none => throw (.decode notTextReason)

end Envelope

end EventWorker
