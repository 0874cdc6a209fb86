import EventWorker.Bytes.Basic

/-!
# Zero padding

Padding adds as few zero bytes as make the length a multiple of the block size;
stripping removes all zero bytes at the end.
-/

namespace EventWorker.Padding

/-- The byte string with zero bytes up to a multiple of `block` bytes. A block
size of zero asks for nothing. -/
def pad (block : Nat) (bytes : Bytes) : Bytes :=
  bytes ++ List.replicate ((block - bytes.length % block) % block) 0

/-- The byte string without the zero bytes at its end. -/
def strip (bytes : Bytes) : Bytes :=
  (bytes.reverse.dropWhile (· = 0)).reverse

end EventWorker.Padding
