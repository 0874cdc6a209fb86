import EventWorker.Crypto.XChaCha

/-!
# Entropy

A source of fresh bytes is a secret key and the number of draws so far. Each draw
has a key stream of its own.
-/

namespace EventWorker.Crypto

/-- A secret key and the number of draws so far. -/
structure Entropy where
  key : Bytes
  draws : Nat := 0
  deriving DecidableEq, Repr

namespace Entropy

/-- The first `n` bytes of the stream of a draw. -/
def bytes (e : Entropy) (n : Nat) : Bytes :=
  let nonce := Bytes.littleEndian 12 e.draws
  ((List.range ((n + 63) / 64)).flatMap (XChaCha.keyBlock e.key nonce)).take n

/-- The stream of the next draw. -/
def draw (e : Entropy) : (Nat → Bytes) × Entropy :=
  (e.bytes, { e with draws := e.draws + 1 })

end Entropy

end EventWorker.Crypto
