import ValueForm.Bytes

/-!
# Bit streams

A byte string read bit by bit, the low-order bit of each byte first. A bit
reader takes bits off the front and fails when they run out.
-/

namespace ValueForm

/-- The bits left to read. -/
structure BitStream where
  /-- The bits left of the current byte, next one first. -/
  pending : List Bool
  rest : Bytes
  deriving DecidableEq, Repr

/-- A reader of `α` from a bit stream. -/
abbrev BitReader := StateT BitStream Option

namespace BitStream

/-- A stream at the start of a byte string. -/
def ofBytes (bytes : Bytes) : BitStream :=
  ⟨[], bytes⟩

/-- The number of bits left. -/
def size (stream : BitStream) : Nat :=
  stream.pending.length + 8 * stream.rest.length

/-- The bits of a byte, low-order bit first. -/
def bitsOf (byte : UInt8) : List Bool :=
  (List.range 8).map byte.toNat.testBit

/-- The next bit, and the stream after it. -/
def next? (stream : BitStream) : Option (Bool × BitStream) :=
  match stream.pending, stream.rest with
  | bit :: pending, rest => some (bit, ⟨pending, rest⟩)
  | [], byte :: rest =>
      match bitsOf byte with
      | bit :: pending => some (bit, ⟨pending, rest⟩)
      | [] => none
  | [], [] => none

end BitStream

namespace BitReader

/-- One bit. -/
def bit : BitReader Bool :=
  BitStream.next?

/-- A number of `width` bits, low-order bit first. -/
def number : (width : Nat) → BitReader Nat
  | 0 => return 0
  | width + 1 => do
      let low ← bit
      let high ← number width
      return low.toNat + 2 * high

/-- Pass over what is left of the current byte. -/
def align : BitReader Unit :=
  modify fun stream => { stream with pending := [] }

/-- The next `count` bytes of an aligned stream. -/
def bytes (count : Nat) : BitReader Bytes := fun stream =>
  if count ≤ stream.rest.length then
    some (stream.rest.take count, { stream with rest := stream.rest.drop count })
  else
    none

end BitReader

end ValueForm
