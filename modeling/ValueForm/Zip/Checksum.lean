import ValueForm.Bytes

/-!
# Checksums

The cyclic redundancy check of archive entries: the remainder of the data by a
fixed polynomial of degree 32, low-order bits first, inverted at both ends.
-/

namespace ValueForm

namespace Checksum

/-- The divisor without its leading term, lowest power in the highest bit. -/
def polynomial : UInt32 := 0xedb88320

/-- Move on by one bit. -/
def shiftBit (state : UInt32) : UInt32 :=
  if state &&& 1 = 1 then (state >>> 1) ^^^ polynomial else state >>> 1

/-- Move on by `count` bits. -/
def shiftBits : (count : Nat) → UInt32 → UInt32
  | 0, state => state
  | count + 1, state => shiftBits count (shiftBit state)

/-- Take in a byte. -/
def feed (state : UInt32) (byte : UInt8) : UInt32 :=
  shiftBits 8 (state ^^^ byte.toUInt32)

end Checksum

/-- The checksum of a byte string. -/
def Bytes.checksum (bytes : Bytes) : UInt32 :=
  (bytes.foldl Checksum.feed 0xffffffff) ^^^ 0xffffffff

end ValueForm
