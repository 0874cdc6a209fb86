import EventWorker.Bytes.Basic

/-!
# The AES block cipher

The forward direction for keys of 16 and 32 bytes. A block is sixteen bytes in
column order.
-/

namespace EventWorker.Crypto.Aes

/-- Multiplication by `x` in the field of 256 elements. -/
def double (b : UInt8) : UInt8 :=
  if b &&& 0x80 = 0x80 then (b <<< 1) ^^^ 0x1B else b <<< 1

/-- The product of two elements, over the low `bits` bits of the second. -/
def product (a b : UInt8) : (bits : Nat) → UInt8
  | 0 => 0
  | bits + 1 =>
    (if b &&& 1 = 1 then a else 0) ^^^ product (double a) (b >>> 1) bits

/-- The inverse of an element, zero for zero: its 254th power. -/
def inverse (b : UInt8) : UInt8 :=
  let mul (x y : UInt8) : UInt8 := product x y 8
  let b2 := mul b b
  let b3 := mul b2 b
  let b6 := mul b3 b3
  let b12 := mul b6 b6
  let b15 := mul b12 b3
  let b30 := mul b15 b15
  let b60 := mul b30 b30
  let b120 := mul b60 b60
  let b126 := mul b120 b6
  let b127 := mul b126 b
  mul b127 b127

/-- A byte rotated left by `n` bits, `n` between 1 and 7. -/
def rotateLeft (b n : UInt8) : UInt8 :=
  (b <<< n) ||| (b >>> (8 - n))

/-- The substitution of one byte, computed. -/
def substituted (b : UInt8) : UInt8 :=
  let i := inverse b
  i ^^^ rotateLeft i 1 ^^^ rotateLeft i 2 ^^^ rotateLeft i 3 ^^^ rotateLeft i 4 ^^^ 0x63

/-- The substitutions of all bytes. -/
def substitutions : Array UInt8 :=
  (Array.range 256).map fun n => substituted (UInt8.ofNat n)

/-- The substitution of one byte. -/
def substitute (b : UInt8) : UInt8 :=
  substitutions.getD b.toNat 0

/-- XOR of byte strings. -/
def add (xs ys : Bytes) : Bytes :=
  List.zipWith (· ^^^ ·) xs ys

/-- The next word of a key schedule, from the words before it, newest first.
`keyWords` is the number of words of the key. -/
def nextWord (keyWords : Nat) (words : List Bytes) : Bytes :=
  let i := words.length
  let last := words.headD []
  let constant : UInt8 := (List.range (i / keyWords - 1)).foldl (fun c _ => double c) 1
  let mixed :=
    if i % keyWords = 0 then add (last.drop 1 ++ last.take 1 |>.map substitute) [constant, 0, 0, 0]
    else if 6 < keyWords ∧ i % keyWords = 4 then last.map substitute
    else last
  add (words.getD (keyWords - 1) []) mixed

/-- The round keys of a key, of sixteen bytes each: 11 for a key of 16 bytes and
15 for one of 32. -/
def roundKeys (key : Bytes) : List Bytes :=
  let keyWords := key.length / 4
  let count := 4 * (keyWords + 7)
  let words :=
    (List.range (count - keyWords)).foldl (fun acc _ => nextWord keyWords acc :: acc)
      (Bytes.chunks 4 key).reverse
  Bytes.chunks 16 words.reverse.flatten

/-- The rotation of the four rows of a block by their index. -/
def shiftRows (block : Bytes) : Bytes :=
  (List.range 16).map fun i => block.getD ((i + 4 * (i % 4)) % 16) 0

/-- The mixing of one column. -/
def mixColumn : Bytes → Bytes
  | [a, b, c, d] =>
    let all := a ^^^ b ^^^ c ^^^ d
    [a ^^^ all ^^^ double (a ^^^ b), b ^^^ all ^^^ double (b ^^^ c),
      c ^^^ all ^^^ double (c ^^^ d), d ^^^ all ^^^ double (d ^^^ a)]
  | column => column

/-- The rounds after the first key has been added. The last one mixes no
columns. -/
def rounds (block : Bytes) : List Bytes → Bytes
  | [] => block
  | [key] => add (shiftRows (block.map substitute)) key
  | key :: keys =>
    let mixed := (Bytes.chunks 4 (shiftRows (block.map substitute))).flatMap mixColumn
    rounds (add mixed key) keys

/-- A block under the round keys of a key. -/
def encryptBlock (keys : List Bytes) (block : Bytes) : Bytes :=
  match keys with
  | [] => block
  | key :: keys => rounds (add block key) keys

end EventWorker.Crypto.Aes
