/-!
# Byte strings

A byte string is a list of bytes. Every number in a class file is big-endian,
so one pair of functions, indexed by the width, serves all of them:
`Bytes.bigEndian` writes the low-order bytes of a number and `Bytes.toNat`
reads a byte string as a number.
-/

namespace ValueForm

/-- A byte string. -/
abbrev Bytes := List UInt8

namespace Bytes

/-- The `width` low-order bytes of a number, most significant first. -/
def bigEndian : (width : Nat) → (value : Nat) → Bytes
  | 0, _ => []
  | width + 1, value => bigEndian width (value / 256) ++ [UInt8.ofNat value]

/-- The number a byte string stands for, most significant byte first. -/
def toNat (bytes : Bytes) : Nat :=
  bytes.foldl (fun value byte => value * 256 + byte.toNat) 0

/-- A 16-bit number as two bytes. -/
def ofUInt16 (value : UInt16) : Bytes :=
  bigEndian 2 value.toNat

/-- A 32-bit number as four bytes. -/
def ofUInt32 (value : UInt32) : Bytes :=
  bigEndian 4 value.toNat

/-- A 64-bit number as eight bytes. -/
def ofUInt64 (value : UInt64) : Bytes :=
  bigEndian 8 value.toNat

/-- The length of a list as a 16-bit count field. -/
def count16 {α : Type} (items : List α) : Bytes :=
  ofUInt16 (UInt16.ofNat items.length)

/-- A count field followed by the items, each written by `write`. -/
def counted16 {α : Type} (write : α → Bytes) (items : List α) : Bytes :=
  count16 items ++ items.flatMap write

/-- The UTF-8 bytes of a text. -/
def ofText (text : String) : Bytes :=
  text.toUTF8.data.toList

/-- The text a byte string spells in UTF-8, if it is well formed. -/
def toText? (bytes : Bytes) : Option String :=
  String.fromUTF8? ⟨bytes.toArray⟩

end Bytes

end ValueForm
