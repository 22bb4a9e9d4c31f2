import ValueForm.ClassFile.Pool
import ValueForm.ClassFile.Attribute

/-!
# Class files

A class file is its versions, constant pool, flags, class and superclass,
interfaces, fields, methods and attributes. `ClassFile.read` reads one at the
front of a byte string, `ClassFile.parse` a whole byte string, and
`ClassFile.toBytes` writes one.
-/

namespace ValueForm

/-- A class file. -/
structure ClassFile where
  minorVersion : UInt16
  majorVersion : UInt16
  pool : ConstantPool
  access : UInt16
  thisClass : UInt16
  superClass : UInt16
  interfaces : List UInt16
  fields : List Member
  methods : List Member
  attributes : List Attribute
  deriving DecidableEq, Repr

/-- Why a byte string is not a class file. -/
inductive ClassParseError where
  | malformed (error : ReadError)
  /-- The class ends before the input does. -/
  | trailing (count : Nat)
  deriving DecidableEq, Repr

/-- The failure in words. -/
def ClassParseError.message : ClassParseError → String
  | .malformed error => "Failed to parse classfile: " ++ error.message
  | .trailing count => s!"Failed to parse classfile: {count} trailing bytes"

namespace ClassFile

/-- The bytes every class file starts with. -/
def magic : Bytes := [0xca, 0xfe, 0xba, 0xbe]

/-- A class file at the front of the input. -/
def read : Reader ClassFile := do
  Reader.magic magic
  let minorVersion ← Reader.u16
  let majorVersion ← Reader.u16
  let pool ← ConstantPool.read
  let access ← Reader.u16
  let thisClass ← Reader.u16
  let superClass ← Reader.u16
  let interfaces ← Reader.counted16 Reader.u16
  let fields ← Reader.counted16 Member.read
  let methods ← Reader.counted16 Member.read
  let attributes ← Reader.counted16 Attribute.read
  return {
    minorVersion, majorVersion, pool, access, thisClass, superClass, interfaces, fields, methods,
    attributes }

/-- A complete class file; nothing may follow it. -/
def parse (bytes : Bytes) : Except ClassParseError ClassFile :=
  match read bytes with
  | .error error => .error (.malformed error)
  | .ok (classFile, []) => .ok classFile
  | .ok (_, rest) => .error (.trailing rest.length)

/-- The encoding of a class file. -/
def toBytes (classFile : ClassFile) : Bytes :=
  magic ++ Bytes.ofUInt16 classFile.minorVersion ++ Bytes.ofUInt16 classFile.majorVersion ++
    classFile.pool.toBytes ++ Bytes.ofUInt16 classFile.access ++
    Bytes.ofUInt16 classFile.thisClass ++ Bytes.ofUInt16 classFile.superClass ++
    Bytes.counted16 Bytes.ofUInt16 classFile.interfaces ++
    Bytes.counted16 Member.toBytes classFile.fields ++
    Bytes.counted16 Member.toBytes classFile.methods ++
    Bytes.counted16 Attribute.toBytes classFile.attributes

/-- The name of the class. -/
def thisClassName? (classFile : ClassFile) : Option String :=
  classFile.pool.className? classFile.thisClass

/-- A public class without members, with only its own and its superclass's
entries in the pool. -/
def empty (majorVersion : UInt16) (thisName superName : String) : ClassFile :=
  let (thisClass, pool) := ({} : ConstantPool).internClass thisName
  let (superClass, pool) := pool.internClass superName
  {
    minorVersion := 0, majorVersion, pool, access := 0x0021, thisClass, superClass,
    interfaces := [], fields := [], methods := [], attributes := [] }

/-- Make the declared pool size agree with the entries. -/
def syncCounts (classFile : ClassFile) : ClassFile :=
  { classFile with pool := classFile.pool.syncSize }

end ClassFile

end ValueForm
