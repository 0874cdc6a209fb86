import EventWorker.Crypto.Gcm
import EventWorker.Crypto.XChaCha
import EventWorker.Sealing.Error
import EventWorker.Sealing.Padding
import EventWorker.Sealing.Suite

/-!
# Ciphers

A cipher has a name, a nonce length, the suites it serves and the two directions.
There are four: `none` and `plaintext` take no key, `plaintext` pads with zeros
on the way, and `aes` and `xchacha20` authenticate what they encrypt.
-/

namespace EventWorker

/-- A symmetric cipher. -/
structure Cipher where
  name : String
  /-- The length of a nonce in bits. -/
  nonceBits : Nat
  suites : List Suite
  encrypt (text : Bytes) (params : CipherParams) (nonce key : Bytes) : Except SealError Bytes
  decrypt (received : Bytes) (params : CipherParams) (nonce key : Bytes) : Except SealError Bytes

namespace Cipher

/-- The text of an authentication that failed. -/
def authenticationText : String := "aead::Error"

/-- The mode has the given name, up to ASCII case. -/
def checkMode (params : CipherParams) (mode : String) : Except SealError Unit :=
  if Text.sameIgnoringCase params.mode mode then .ok () else .error (.unsupportedMode params.mode)

/-- The nonce has the given length. -/
def checkNonce (nonce : Bytes) (expected : Nat) : Except SealError Unit :=
  if nonce.length = expected then .ok () else .error (.invalidNonceLength expected nonce.length)

/-- The key has the given length. -/
def checkKey (key : Bytes) (expected : Nat) : Except SealError Unit :=
  if key.length = expected then .ok () else .error (.invalidKeyLength expected key.length)

/-- The result of a decryption whose authentication may fail. -/
def authenticated : Option Bytes → Except SealError Bytes
  | some text => .ok text
  | none => .error (.decryptionFailed authenticationText)

/-- What AES asks of its parameters: mode, nonce, and a key of the length that
the parameters name. -/
def checkAes (params : CipherParams) (nonce key : Bytes) : Except SealError Unit := do
  checkMode params "gcm"
  checkNonce nonce 12
  if params.keyLength = 128 then checkKey key 16
  else if params.keyLength = 256 then checkKey key 32
  else .error (.invalidKeyLength 32 (params.keyLength.tdiv 8).toNat)

/-- What XChaCha20-Poly1305 asks of its parameters. -/
def checkXChaCha (params : CipherParams) (nonce key : Bytes) : Except SealError Unit := do
  checkMode params "poly1305"
  checkNonce nonce 24
  checkKey key 32

/-- The cipher that leaves a text as it is. -/
def none : Cipher where
  name := "none"
  nonceBits := 0
  suites := [⟨"none", "none", -1⟩]
  encrypt text _ _ _ := .ok text
  decrypt received _ _ _ := .ok received

/-- The cipher that only pads a text to blocks of sixteen bytes. -/
def plaintext : Cipher where
  name := "plaintext"
  nonceBits := 0
  suites := [⟨"plaintext", "none", -1⟩]
  encrypt text _ _ _ := .ok (Padding.pad 16 text)
  decrypt received _ _ _ := .ok (Padding.strip received)

/-- AES in Galois/counter mode. -/
def aes : Cipher where
  name := "aes"
  nonceBits := 96
  suites := [⟨"aes", "gcm", 128⟩, ⟨"aes", "gcm", 256⟩]
  encrypt text params nonce key := do
    checkAes params nonce key
    return Crypto.Gcm.encrypt key nonce text
  decrypt received params nonce key := do
    checkAes params nonce key
    authenticated (Crypto.Gcm.decrypt? key nonce received)

/-- XChaCha20-Poly1305. -/
def xchacha20 : Cipher where
  name := "xchacha20"
  nonceBits := 192
  suites := [⟨"xchacha20", "poly1305", 256⟩]
  encrypt text params nonce key := do
    checkXChaCha params nonce key
    return Crypto.XChaCha.encrypt key nonce text
  decrypt received params nonce key := do
    checkXChaCha params nonce key
    authenticated (Crypto.XChaCha.decrypt? key nonce received)

/-- The four ciphers. -/
def builtin : List Cipher :=
  [none, plaintext, aes, xchacha20]

/-- The built-in cipher with a name, up to ASCII case. -/
def named? (name : String) : Option Cipher :=
  builtin.find? fun c => c.name = Text.lowercase name

end Cipher

end EventWorker
