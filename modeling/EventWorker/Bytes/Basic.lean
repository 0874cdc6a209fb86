import EventWorker.Text.Digits

/-!
# Byte strings

A byte string is a list of bytes. Words are laid out in either byte order, and
text in UTF-8.
-/

namespace EventWorker

/-- A byte string. -/
abbrev Bytes := List UInt8

namespace Bytes

/-- The UTF-8 form of a text. -/
def ofText (s : String) : Bytes :=
  s.toByteArray.data.toList

/-- The text of a UTF-8 byte string. -/
def text? (bytes : Bytes) : Option String :=
  String.fromUTF8? ⟨bytes.toArray⟩

/-- Every text is read back from its UTF-8 form. -/
theorem text?_ofText (s : String) : text? (ofText s) = some s := by
  simp [text?, ofText, String.fromUTF8?, s.isValidUTF8, String.fromUTF8]

/-- A byte string that is read as a text is the UTF-8 form of it. -/
theorem ofText_of_text? {bytes : Bytes} {s : String} (h : text? bytes = some s) :
    ofText s = bytes := by
  simp only [text?, String.fromUTF8?] at h
  split at h
  · simp only [Option.some.injEq] at h
    subst h
    simp [ofText, String.fromUTF8]
  · simp at h

/-- The lowercase hexadecimal form of a byte string. -/
def hex (bytes : Bytes) : String :=
  String.ofList (bytes.flatMap fun b => [Text.hexDigit (b.toNat / 16), Text.hexDigit b.toNat])

/-- The byte string of a hexadecimal form in either case. -/
def ofHex? : List Char → Option Bytes
  | [] => some []
  | [_] => none
  | a :: b :: rest => do
    let high ← Text.hexDigit? a
    let low ← Text.hexDigit? b
    return UInt8.ofNat (high * 16 + low) :: (← ofHex? rest)

/-- The last `count` bytes of a number, most significant first. -/
def bigEndian (count n : Nat) : Bytes :=
  (List.range count).map fun i => UInt8.ofNat (n >>> (8 * (count - 1 - i)))

/-- The last `count` bytes of a number, least significant first. -/
def littleEndian (count n : Nat) : Bytes :=
  (List.range count).map fun i => UInt8.ofNat (n >>> (8 * i))

/-- The number whose bytes are given most significant first. -/
def toBigEndian (bytes : Bytes) : Nat :=
  bytes.foldl (fun acc b => acc * 256 + b.toNat) 0

/-- The number whose bytes are given least significant first. -/
def toLittleEndian (bytes : Bytes) : Nat :=
  bytes.foldr (fun b acc => b.toNat + 256 * acc) 0

/-- The consecutive pieces of `size` bytes, the last of which may be shorter. -/
def chunks (size : Nat) (bytes : Bytes) : List Bytes :=
  (List.range ((bytes.length + size - 1) / size)).map fun i =>
    (bytes.drop (i * size)).take size

/-- The byte string XORed with the blocks `0`, `1`, … of a key stream. -/
def xorStream (size : Nat) (block : Nat → Bytes) (bytes : Bytes) : Bytes :=
  List.zipWith (· ^^^ ·) bytes ((List.range ((bytes.length + size - 1) / size)).flatMap block)

end Bytes

end EventWorker
