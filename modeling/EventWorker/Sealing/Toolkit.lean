import EventWorker.Sealing.Envelope

/-!
# Toolkits

A toolkit is what sealing works with: a table of ciphers by lowercase name, the
codecs and the integrity functions.
-/

namespace EventWorker

/-- Ciphers, codecs and integrity functions. -/
structure Toolkit where
  ciphers : List (String × Cipher)
  codecs : String → Option Codec
  integrities : String → Option IntegrityFunction

/-- All suites of some ciphers; of suites with one normal text the first. -/
def suitesOf (ciphers : List Cipher) : List Suite :=
  (ciphers.flatMap Cipher.suites).foldl
    (fun acc s => if acc.any fun t => t.normalized = s.normalized then acc else acc ++ [s]) []

namespace Toolkit

/-- The toolkit of some ciphers with the built-in codecs and integrity
functions. -/
def ofCiphers (ciphers : List Cipher) : Toolkit where
  ciphers := Keyed.ofList (ciphers.map fun c => (Text.lowercase c.name, c))
  codecs := Codec.named?
  integrities := IntegrityFunction.named?

/-- The cipher with a name, up to ASCII case. -/
def cipher (t : Toolkit) (name : String) : Except SealError Cipher :=
  match Keyed.find? (Text.lowercase name) t.ciphers with
  | some c => .ok c
  | none => .error (.unknownCipher name)

/-- The integrity function with a name. -/
def integrity (t : Toolkit) (name : String) : Except SealError IntegrityFunction :=
  match t.integrities name with
  | some f => .ok f
  | none => .error (.unknownIntegrity name)

/-- The suites of all ciphers in the order of their table names. -/
def suites (t : Toolkit) : List Suite :=
  suitesOf (t.ciphers.map Prod.snd)

end Toolkit

end EventWorker
