import EventWorker.Bytes.Basic

/-!
# XChaCha20-Poly1305

A stream cipher with a nonce of 24 bytes and a tag of sixteen bytes over what
was sent. The first sixteen bytes of the nonce and the key give a key of their
own, under which the rest of the nonce is used.
-/

namespace EventWorker.Crypto.XChaCha

/-- The sixteen words of a cipher state. -/
abbrev State := Array UInt32

/-- A word rotated left by `n` bits, `n` between 1 and 31. -/
def rotateLeft (x n : UInt32) : UInt32 :=
  (x <<< n) ||| (x >>> (32 - n))

/-- Mixes the words at four places. -/
def quarterRound (s : State) (places : Nat × Nat × Nat × Nat) : State :=
  let (i, j, k, l) := places
  let a := s.getD i 0
  let b := s.getD j 0
  let c := s.getD k 0
  let d := s.getD l 0
  let a := a + b
  let d := rotateLeft (d ^^^ a) 16
  let c := c + d
  let b := rotateLeft (b ^^^ c) 12
  let a := a + b
  let d := rotateLeft (d ^^^ a) 8
  let c := c + d
  let b := rotateLeft (b ^^^ c) 7
  (((s.setIfInBounds i a).setIfInBounds j b).setIfInBounds k c).setIfInBounds l d

/-- The columns and then the diagonals of the state. -/
def doubleRound (s : State) : State :=
  [(0, 4, 8, 12), (1, 5, 9, 13), (2, 6, 10, 14), (3, 7, 11, 15),
   (0, 5, 10, 15), (1, 6, 11, 12), (2, 7, 8, 13), (3, 4, 9, 14)].foldl quarterRound s

/-- Twenty rounds. -/
def rounds (s : State) : State :=
  (List.range 10).foldl (fun s _ => doubleRound s) s

/-- The words of a byte string, least significant byte first. -/
def words (bytes : Bytes) : List UInt32 :=
  (Bytes.chunks 4 bytes).map fun b => UInt32.ofNat (Bytes.toLittleEndian b)

/-- The state of a key and the sixteen bytes that vary. -/
def start (key varying : Bytes) : State :=
  ([0x61707865, 0x3320646e, 0x79622d32, 0x6b206574] ++ words key ++ words varying).toArray

/-- The key that a key and sixteen bytes of nonce give. -/
def subkey (key nonce : Bytes) : Bytes :=
  let s := rounds (start key nonce)
  [0, 1, 2, 3, 12, 13, 14, 15].flatMap fun i => Bytes.littleEndian 4 (s.getD i 0).toNat

/-- Sixty-four bytes of key stream under a nonce of twelve bytes. -/
def keyBlock (key nonce : Bytes) (n : Nat) : Bytes :=
  let s := start key (Bytes.littleEndian 4 n ++ nonce)
  let t := rounds s
  (List.range 16).flatMap fun i => Bytes.littleEndian 4 (s.getD i 0 + t.getD i 0).toNat

/-- The one-time authenticator of a byte string under a key of 32 bytes. -/
def poly1305 (key bytes : Bytes) : Bytes :=
  let r := Bytes.toLittleEndian (key.take 16) &&& 0x0ffffffc0ffffffc0ffffffc0fffffff
  let s := Bytes.toLittleEndian (key.drop 16)
  let acc := (Bytes.chunks 16 bytes).foldl
    (fun acc block => (acc + Bytes.toLittleEndian (block ++ [1])) * r % (1 <<< 130 - 5)) 0
  Bytes.littleEndian 16 (acc + s)

/-- The key and the nonce of twelve bytes used for a nonce of 24. -/
def derived (key nonce : Bytes) : Bytes × Bytes :=
  (subkey key (nonce.take 16), [0, 0, 0, 0] ++ nonce.drop 16)

/-- The tag of a sent text. -/
def tag (key nonce sent : Bytes) : Bytes :=
  let zeros := List.replicate ((16 - sent.length % 16) % 16) 0
  poly1305 ((keyBlock key nonce 0).take 32)
    (sent ++ zeros ++ Bytes.littleEndian 8 0 ++ Bytes.littleEndian 8 sent.length)

/-- The text under the key stream, whose counter starts at 1. -/
def stream (key nonce bytes : Bytes) : Bytes :=
  Bytes.xorStream 64 (fun i => keyBlock key nonce (i + 1)) bytes

/-- The encrypted form of a text. -/
def encrypt (key nonce text : Bytes) : Bytes :=
  let (key, nonce) := derived key nonce
  let sent := stream key nonce text
  sent ++ tag key nonce sent

/-- The text of a sealed form, if its tag is right. -/
def decrypt? (key nonce received : Bytes) : Option Bytes :=
  if received.length < 16 then none
  else
    let (key, nonce) := derived key nonce
    let sent := received.take (received.length - 16)
    if tag key nonce sent = received.drop (received.length - 16) then some (stream key nonce sent)
    else none

end EventWorker.Crypto.XChaCha
