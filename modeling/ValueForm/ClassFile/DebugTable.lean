import ValueForm.Reader

/-!
# Debugging tables of a method body

Source lines by code address, and the local variables live over a range of
addresses. The table of generic signatures has the layout of the table of
descriptors.
-/

namespace ValueForm

/-- The source line of the code from an address on. -/
structure LineNumber where
  start : UInt16
  line : UInt16
  deriving DecidableEq, Repr

namespace LineNumber

/-- Address and line. -/
def read : Reader LineNumber := do
  let start ← Reader.u16
  return ⟨start, ← Reader.u16⟩

/-- The encoding of an entry. -/
def toBytes (entry : LineNumber) : Bytes :=
  Bytes.ofUInt16 entry.start ++ Bytes.ofUInt16 entry.line

/-- A counted table. -/
def readTable : Reader (List LineNumber) :=
  Reader.counted16 read

/-- The encoding of a table. -/
def tableBytes (table : List LineNumber) : Bytes :=
  Bytes.counted16 toBytes table

end LineNumber

/-- A local variable live over `length` addresses from `start`. -/
structure LocalVariable where
  start : UInt16
  length : UInt16
  name : UInt16
  descriptor : UInt16
  slot : UInt16
  deriving DecidableEq, Repr

namespace LocalVariable

/-- The five fields in order. -/
def read : Reader LocalVariable := do
  let start ← Reader.u16
  let length ← Reader.u16
  let name ← Reader.u16
  let descriptor ← Reader.u16
  return ⟨start, length, name, descriptor, ← Reader.u16⟩

/-- The encoding of an item. -/
def toBytes (item : LocalVariable) : Bytes :=
  Bytes.ofUInt16 item.start ++ Bytes.ofUInt16 item.length ++ Bytes.ofUInt16 item.name ++
    Bytes.ofUInt16 item.descriptor ++ Bytes.ofUInt16 item.slot

/-- A counted table. -/
def readTable : Reader (List LocalVariable) :=
  Reader.counted16 read

/-- The encoding of a table. -/
def tableBytes (table : List LocalVariable) : Bytes :=
  Bytes.counted16 toBytes table

end LocalVariable

end ValueForm
