import EventWorker.Bytes.Basic

/-!
# CRC-16

The cyclic redundancy check with the reflected polynomial `0xA001`, least
significant bit first, from a zero register, written as four lowercase
hexadecimal digits.
-/

namespace EventWorker.Crypto.Crc16

/-- One shift of the register. -/
def shift (register : UInt16) : UInt16 :=
  if register &&& 1 = 1 then (register >>> 1) ^^^ 0xA001 else register >>> 1

/-- The register after one byte. -/
def feed (register : UInt16) (b : UInt8) : UInt16 :=
  shift (shift (shift (shift (shift (shift (shift (shift (register ^^^ b.toUInt16))))))))

/-- The register after a byte string. -/
def register (bytes : Bytes) : UInt16 :=
  bytes.foldl feed 0

/-- The check of a byte string as text. -/
def digest (bytes : Bytes) : String :=
  Bytes.hex (Bytes.bigEndian 2 (register bytes).toNat)

end EventWorker.Crypto.Crc16
