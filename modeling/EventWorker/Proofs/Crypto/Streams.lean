import EventWorker.Crypto.Entropy
import EventWorker.Crypto.Gcm

/-!
# Key streams and tags

Both ciphers put a text under a key stream that is at least as long, and a tag of sixteen bytes
behind it.

Results:
1. `Bytes.xorStream_xorStream`: under the same key stream twice a text is itself again.
2. `Crypto.Gcm.decrypt?_encrypt`, `Crypto.XChaCha.decrypt?_encrypt`: what was encrypted is
   accepted and decrypted.
3. `Crypto.Entropy.length_bytes`: a draw has the length that is asked for.
-/

namespace EventWorker

namespace Bytes

variable {size : Nat} {block : Nat → Bytes}

/-- The blocks of a key stream cover the byte string. -/
theorem length_stream (block_length : ∀ i, (block i).length = size) (count : Nat) :
    ((List.range count).flatMap block).length = count * size := by
  induction count with
  | zero => simp
  | succ n ih =>
    rw [List.range_succ, List.flatMap_append, List.length_append, ih, List.flatMap_singleton,
      block_length, Nat.succ_mul]

theorem length_xorStream (positive : 0 < size) (block_length : ∀ i, (block i).length = size)
    (bytes : Bytes) : (xorStream size block bytes).length = bytes.length := by
  have covered : bytes.length ≤ (bytes.length + size - 1) / size * size := by
    have rounded := Nat.div_add_mod (bytes.length + size - 1) size
    have rest := Nat.mod_lt (bytes.length + size - 1) positive
    rw [Nat.mul_comm] at rounded
    omega
  rw [xorStream, List.length_zipWith, length_stream block_length]
  omega

theorem zipWith_xor_xor {xs ys : Bytes} (covered : xs.length ≤ ys.length) :
    List.zipWith (· ^^^ ·) (List.zipWith (· ^^^ ·) xs ys) ys = xs := by
  induction xs generalizing ys with
  | nil => rfl
  | cons x xs ih =>
    cases ys with
    | nil => cases covered
    | cons y ys =>
      simp only [List.zipWith_cons_cons, UInt8.xor_assoc, UInt8.xor_self, UInt8.xor_zero]
      rw [ih (Nat.le_of_succ_le_succ covered)]

theorem xorStream_xorStream (positive : 0 < size) (block_length : ∀ i, (block i).length = size)
    (bytes : Bytes) : xorStream size block (xorStream size block bytes) = bytes := by
  have same := length_xorStream positive block_length bytes
  rw [xorStream, same, xorStream]
  rw [xorStream, List.length_zipWith] at same
  exact zipWith_xor_xor (by omega)

@[simp] theorem length_bigEndian (count n : Nat) : (bigEndian count n).length = count := by
  simp [bigEndian]

@[simp] theorem length_littleEndian (count n : Nat) : (littleEndian count n).length = count := by
  simp [littleEndian]

end Bytes

namespace Crypto

namespace Gcm

theorem length_keyBlock (keys : List Bytes) (nonce : Bytes) (n : Nat) :
    (keyBlock keys nonce n).length = 16 := by
  simp [keyBlock]

theorem counterMode_counterMode (keys : List Bytes) (nonce text : Bytes) :
    counterMode keys nonce (counterMode keys nonce text) = text :=
  Bytes.xorStream_xorStream (by decide) (fun i => length_keyBlock keys nonce (i + 2)) text

theorem decrypt?_encrypt (key nonce text : Bytes) :
    decrypt? key nonce (encrypt key nonce text) = some text := by
  have length_tag (sent : Bytes) : (tag (Aes.roundKeys key) nonce sent).length = 16 := by
    simp [tag]
  simp [decrypt?, encrypt, length_tag, counterMode_counterMode]

end Gcm

namespace XChaCha

theorem length_keyBlock (key nonce : Bytes) (n : Nat) : (keyBlock key nonce n).length = 64 := by
  rw [keyBlock, Bytes.length_stream fun i => Bytes.length_littleEndian 4 _]

theorem stream_stream (key nonce text : Bytes) :
    stream key nonce (stream key nonce text) = text :=
  Bytes.xorStream_xorStream (by decide) (fun i => length_keyBlock key nonce (i + 1)) text

theorem decrypt?_encrypt (key nonce text : Bytes) :
    decrypt? key nonce (encrypt key nonce text) = some text := by
  have length_tag (key nonce sent : Bytes) : (tag key nonce sent).length = 16 := by
    simp [tag, poly1305]
  simp [decrypt?, encrypt, length_tag, stream_stream]

end XChaCha

/-- As many bytes are drawn as are asked for. -/
theorem Entropy.length_bytes (e : Entropy) (n : Nat) : (e.bytes n).length = n := by
  have covered : n ≤ (n + 63) / 64 * 64 := by omega
  rw [bytes, List.length_take, Bytes.length_stream (XChaCha.length_keyBlock _ _)]
  exact Nat.min_eq_left covered

end Crypto

end EventWorker
