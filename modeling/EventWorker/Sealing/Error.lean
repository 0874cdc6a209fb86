import EventWorker.Catalogue

/-!
# Sealing errors

What can go wrong while a suite is chosen or an event is sealed or opened, the
text of each error, and the failure the worker reports for it.
-/

namespace EventWorker

/-- An error of the sealing layer. -/
inductive SealError
  | encryptionFailed (reason : String)
  | decryptionFailed (reason : String)
  | invalidKeyLength (expected actual : Nat)
  | invalidNonceLength (expected actual : Nat)
  | unknownCipher (name : String)
  | unsupportedMode (mode : String)
  | unknownEncoding (name : String)
  | unknownIntegrity (name : String)
  | decode (reason : String)
  | integrityMismatch (received computed : String)
  | noCommonSuite
  deriving DecidableEq, Repr

namespace SealError

/-- The lengths of a key or nonce error. -/
private def lengths (expected actual : Nat) : String :=
  "expected " ++ String.ofList (Text.decimal expected) ++ ", got " ++
    String.ofList (Text.decimal actual)

/-- The text of an error. -/
def message : SealError → String
  | .encryptionFailed reason => "Encryption failed: " ++ reason
  | .decryptionFailed reason => "Decryption failed: " ++ reason
  | .invalidKeyLength expected actual => "Invalid key length: " ++ lengths expected actual
  | .invalidNonceLength expected actual => "Invalid nonce length: " ++ lengths expected actual
  | .unknownCipher name => "Unknown cipher: " ++ name
  | .unsupportedMode mode => "Unsupported cipher mode: " ++ mode
  | .unknownEncoding name => "Unknown encoding: " ++ name
  | .unknownIntegrity name => "Unknown integrity function: " ++ name
  | .decode reason => "Decode error: " ++ reason
  | .integrityMismatch received computed =>
    "Integrity mismatch: received " ++ received ++ ", computed " ++ computed
  | .noCommonSuite => "No cipher suite in common"

/-- The failure reported for an error. Its cause is the text of the error,
except that an unknown encoding has none. -/
def toFailure (e : SealError) : Failure :=
  match e with
  | .integrityMismatch _ _ => Code.integrityMismatch.failure.because e.message
  | .unknownIntegrity _ => Code.integrityUnavailable.failure.because e.message
  | .noCommonSuite | .unknownCipher _ => Code.cipherSuite.failure.terminal.because e.message
  | .unknownEncoding name => .new 1 ("Encoding not supported: " ++ name)
  | _ => Code.encapsulation.failure.because e.message

end SealError

end EventWorker
