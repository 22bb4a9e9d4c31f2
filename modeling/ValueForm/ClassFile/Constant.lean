import ValueForm.Reader

/-!
# Constants

The entries of a constant pool and their encoding: a tag byte followed by the
fields. A `long` or `double` takes two slots of the pool; the second one holds
`Constant.reserved`, which is never written.
-/

namespace ValueForm

/-- An entry of the constant pool. Floating-point numbers are kept as their
bits and texts as their bytes, so that an entry is written as it was read. -/
inductive Constant where
  | utf8 (bytes : Bytes)
  | integer (value : Int32)
  | float (bits : UInt32)
  | long (value : Int64)
  | double (bits : UInt64)
  | classRef (name : UInt16)
  | string (text : UInt16)
  | fieldRef (owner nameAndType : UInt16)
  | methodRef (owner nameAndType : UInt16)
  | interfaceMethodRef (owner nameAndType : UInt16)
  | nameAndType (name descriptor : UInt16)
  | methodHandle (kind : UInt8) (reference : UInt16)
  | methodType (descriptor : UInt16)
  | dynamic (bootstrap nameAndType : UInt16)
  | invokeDynamic (bootstrap nameAndType : UInt16)
  | moduleRef (name : UInt16)
  | packageRef (name : UInt16)
  /-- The second slot of a `long` or `double`. -/
  | reserved
  deriving DecidableEq, Repr

namespace Constant

/-- Whether an entry takes two slots. -/
def isWide : Constant → Bool
  | .long _ => true
  | .double _ => true
  | _ => false

/-- A tag and one index. -/
def writeIndex (tag : UInt8) (index : UInt16) : Bytes :=
  tag :: Bytes.ofUInt16 index

/-- A tag and two indices. -/
def writeIndices (tag : UInt8) (first second : UInt16) : Bytes :=
  tag :: (Bytes.ofUInt16 first ++ Bytes.ofUInt16 second)

/-- The encoding of an entry. -/
def toBytes : Constant → Bytes
  | .utf8 bytes => 1 :: (Bytes.count16 bytes ++ bytes)
  | .integer value => 3 :: Bytes.ofUInt32 value.toUInt32
  | .float bits => 4 :: Bytes.ofUInt32 bits
  | .long value => 5 :: Bytes.ofUInt64 value.toUInt64
  | .double bits => 6 :: Bytes.ofUInt64 bits
  | .classRef name => writeIndex 7 name
  | .string text => writeIndex 8 text
  | .fieldRef owner member => writeIndices 9 owner member
  | .methodRef owner member => writeIndices 10 owner member
  | .interfaceMethodRef owner member => writeIndices 11 owner member
  | .nameAndType name descriptor => writeIndices 12 name descriptor
  | .methodHandle kind reference => 15 :: kind :: Bytes.ofUInt16 reference
  | .methodType descriptor => writeIndex 16 descriptor
  | .dynamic bootstrap member => writeIndices 17 bootstrap member
  | .invokeDynamic bootstrap member => writeIndices 18 bootstrap member
  | .moduleRef name => writeIndex 19 name
  | .packageRef name => writeIndex 20 name
  | .reserved => []

/-- One index, passed to a constructor. -/
def readIndex (make : UInt16 → Constant) : Reader Constant := do
  return make (← Reader.u16)

/-- Two indices, passed to a constructor. -/
def readIndices (make : UInt16 → UInt16 → Constant) : Reader Constant := do
  let first ← Reader.u16
  let second ← Reader.u16
  return make first second

/-- The fields of an entry with a given tag. -/
def readFields (tag : UInt8) : Reader Constant :=
  match tag.toNat with
  | 1 => do
      let length ← Reader.u16
      return .utf8 (← Reader.take length.toNat)
  | 3 => do return .integer (← Reader.u32).toInt32
  | 4 => do return .float (← Reader.u32)
  | 5 => do return .long (← Reader.u64).toInt64
  | 6 => do return .double (← Reader.u64)
  | 7 => readIndex .classRef
  | 8 => readIndex .string
  | 9 => readIndices .fieldRef
  | 10 => readIndices .methodRef
  | 11 => readIndices .interfaceMethodRef
  | 12 => readIndices .nameAndType
  | 15 => do
      let kind ← Reader.u8
      return .methodHandle kind (← Reader.u16)
  | 16 => readIndex .methodType
  | 17 => readIndices .dynamic
  | 18 => readIndices .invokeDynamic
  | 19 => readIndex .moduleRef
  | 20 => readIndex .packageRef
  | _ => Reader.fail .unknownConstant

/-- One entry. -/
def read : Reader Constant := do
  let tag ← Reader.u8
  readFields tag

end Constant

end ValueForm
