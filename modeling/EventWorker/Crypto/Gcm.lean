import EventWorker.Crypto.Aes

/-!
# AES in Galois/counter mode

An encrypted text is the text under a counter key stream, followed by a tag of
sixteen bytes over what was sent. Nonces have twelve bytes, and no further data
is authenticated.
-/

namespace EventWorker.Crypto.Gcm

/-- The product of two field elements of 128 bits. The most significant bit of a
block is the coefficient of the lowest power. -/
def product (x y : Nat) : Nat :=
  let step (state : Nat × Nat) (i : Nat) : Nat × Nat :=
    let (z, v) := state
    let z := if x.testBit (127 - i) then z ^^^ v else z
    let v := if v.testBit 0 then (v >>> 1) ^^^ (0xE1 <<< 120) else v >>> 1
    (z, v)
  ((List.range 128).foldl step (0, y)).1

/-- A short block filled up with zeros. -/
def filled (block : Bytes) : Bytes :=
  block ++ List.replicate (16 - block.length) 0

/-- The hash of a byte string under the hash key `h`. -/
def ghash (h : Nat) (bytes : Bytes) : Nat :=
  let blocks := (Bytes.chunks 16 bytes).map filled ++ [Bytes.bigEndian 16 (8 * bytes.length)]
  blocks.foldl (fun acc block => product (acc ^^^ Bytes.toBigEndian block) h) 0

/-- The counter block with counter `n`. -/
def counterBlock (nonce : Bytes) (n : Nat) : Bytes :=
  nonce ++ Bytes.bigEndian 4 n

/-- Sixteen bytes of key stream. -/
def keyBlock (keys : List Bytes) (nonce : Bytes) (n : Nat) : Bytes :=
  let block := Aes.encryptBlock keys (counterBlock nonce n)
  (List.range 16).map fun i => block.getD i 0

/-- The text under the key stream, whose counter starts at 2. -/
def counterMode (keys : List Bytes) (nonce bytes : Bytes) : Bytes :=
  Bytes.xorStream 16 (fun i => keyBlock keys nonce (i + 2)) bytes

/-- The tag of a sent text. -/
def tag (keys : List Bytes) (nonce sent : Bytes) : Bytes :=
  let h := Bytes.toBigEndian (Aes.encryptBlock keys (List.replicate 16 0))
  Bytes.bigEndian 16 (ghash h sent ^^^ Bytes.toBigEndian (keyBlock keys nonce 1))

/-- The encrypted form of a text. -/
def encrypt (key nonce text : Bytes) : Bytes :=
  let keys := Aes.roundKeys key
  let sent := counterMode keys nonce text
  sent ++ tag keys nonce sent

/-- The text of a sealed form, if its tag is right. -/
def decrypt? (key nonce received : Bytes) : Option Bytes :=
  if received.length < 16 then none
  else
    let keys := Aes.roundKeys key
    let sent := received.take (received.length - 16)
    if tag keys nonce sent = received.drop (received.length - 16) then some (counterMode keys nonce sent)
    else none

end EventWorker.Crypto.Gcm
