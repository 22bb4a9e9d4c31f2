import ValueForm.Reader

/-!
# Attributes, members and method code

An attribute is a name index and an uninterpreted body. Fields and methods are
members: access flags, name, descriptor and attributes. The body of a `Code`
attribute is read into `CodeAttribute`.

Counts and lengths are not stored: they are the lengths of the lists they
describe.
-/

namespace ValueForm

/-- A named, uninterpreted part of a class, member or code. -/
structure Attribute where
  name : UInt16
  info : Bytes
  deriving DecidableEq, Repr

namespace Attribute

/-- A name index, a length and the body. -/
def read : Reader Attribute := do
  let name ← Reader.u16
  let length ← Reader.u32
  return ⟨name, ← Reader.take length.toNat⟩

/-- The encoding of an attribute. -/
def toBytes (item : Attribute) : Bytes :=
  Bytes.ofUInt16 item.name ++ Bytes.ofUInt32 (UInt32.ofNat item.info.length) ++ item.info

/-- The name of method code. -/
def codeName : String := "Code"

/-- The name of a table from code addresses to source lines. -/
def lineNumberTableName : String := "LineNumberTable"

/-- The name of a table of local variables with their descriptors. -/
def localVariableTableName : String := "LocalVariableTable"

/-- The name of a table of local variables with their generic signatures. -/
def localVariableTypeTableName : String := "LocalVariableTypeTable"

/-- The name of a table of verification frames. -/
def stackMapTableName : String := "StackMapTable"

end Attribute

/-- A field or a method. -/
structure Member where
  access : UInt16
  name : UInt16
  descriptor : UInt16
  attributes : List Attribute
  deriving DecidableEq, Repr

namespace Member

/-- Flags, name, descriptor and attributes. -/
def read : Reader Member := do
  let access ← Reader.u16
  let name ← Reader.u16
  let descriptor ← Reader.u16
  return ⟨access, name, descriptor, ← Reader.counted16 Attribute.read⟩

/-- The encoding of a member. -/
def toBytes (member : Member) : Bytes :=
  Bytes.ofUInt16 member.access ++ Bytes.ofUInt16 member.name ++
    Bytes.ofUInt16 member.descriptor ++ Bytes.counted16 Attribute.toBytes member.attributes

/-- Whether a method has no receiver. -/
def isStatic (member : Member) : Bool :=
  member.access &&& 0x0008 != 0

end Member

/-- A range of code addresses guarded by a handler. -/
structure ExceptionEntry where
  start : UInt16
  stop : UInt16
  handler : UInt16
  /-- The class caught, or 0 for all. -/
  catchType : UInt16
  deriving DecidableEq, Repr

namespace ExceptionEntry

/-- The four fields in order. -/
def read : Reader ExceptionEntry := do
  let start ← Reader.u16
  let stop ← Reader.u16
  let handler ← Reader.u16
  return ⟨start, stop, handler, ← Reader.u16⟩

/-- The encoding of an entry. -/
def toBytes (entry : ExceptionEntry) : Bytes :=
  Bytes.ofUInt16 entry.start ++ Bytes.ofUInt16 entry.stop ++ Bytes.ofUInt16 entry.handler ++
    Bytes.ofUInt16 entry.catchType

end ExceptionEntry

/-- The body of a `Code` attribute. -/
structure CodeAttribute where
  maxStack : UInt16
  maxLocals : UInt16
  code : Bytes
  exceptions : List ExceptionEntry
  attributes : List Attribute
  deriving DecidableEq, Repr

namespace CodeAttribute

/-- Limits, code, exception table and attributes. -/
def read : Reader CodeAttribute := do
  let maxStack ← Reader.u16
  let maxLocals ← Reader.u16
  let length ← Reader.u32
  let code ← Reader.take length.toNat
  let exceptions ← Reader.counted16 ExceptionEntry.read
  return ⟨maxStack, maxLocals, code, exceptions, ← Reader.counted16 Attribute.read⟩

/-- The encoding of a code body. -/
def toBytes (body : CodeAttribute) : Bytes :=
  Bytes.ofUInt16 body.maxStack ++ Bytes.ofUInt16 body.maxLocals ++
    Bytes.ofUInt32 (UInt32.ofNat body.code.length) ++ body.code ++
    Bytes.counted16 ExceptionEntry.toBytes body.exceptions ++
    Bytes.counted16 Attribute.toBytes body.attributes

end CodeAttribute

end ValueForm
