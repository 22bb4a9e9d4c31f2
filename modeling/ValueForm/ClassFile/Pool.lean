import ValueForm.ClassFile.Constant

/-!
# Constant pools

Entries are numbered from 1. `ConstantPool.get?` and the functions after it
resolve an index to what the entry stands for; `ConstantPool.push` appends an
entry, and the `intern` functions find an entry or append it.

The declared size is kept beside the entries because a class file may declare a
size that its entries do not fill exactly: 0, or one that ends in the middle of
a two-slot entry.
-/

namespace ValueForm

/-- A constant pool. -/
structure ConstantPool where
  /-- The declared size, normally one more than the number of slots. -/
  size : UInt16 := 1
  entries : Array Constant := #[]
  deriving DecidableEq, Repr

/-- What a field or method reference names. -/
structure MemberRef where
  owner : String
  name : String
  descriptor : String
  deriving DecidableEq, Repr

namespace ConstantPool

/-- Read entries until the slots below `size` are filled, starting from those
in `entries`. A two-slot entry is followed by `Constant.reserved`. Each entry
fills a slot, so `fuel` need not exceed `size`. -/
def readEntries (size : Nat) : (fuel : Nat) → (entries : Array Constant) → Reader (Array Constant)
  | 0, entries, input => .ok (entries, input)
  | fuel + 1, entries, input =>
      if entries.size + 1 < size then
        match Constant.read input with
        | .error error => .error error
        | .ok (constant, rest) =>
            let next := entries.push constant
            readEntries size fuel (if constant.isWide then next.push .reserved else next) rest
      else
        .ok (entries, input)

/-- A declared size followed by the entries. -/
def read : Reader ConstantPool := do
  let size ← Reader.u16
  let entries ← readEntries size.toNat size.toNat #[]
  return ⟨size, entries⟩

/-- The encoding of a pool. -/
def toBytes (pool : ConstantPool) : Bytes :=
  Bytes.ofUInt16 pool.size ++ pool.entries.toList.flatMap Constant.toBytes

/-- The entry at an index; there is none at 0. -/
def get? (pool : ConstantPool) (index : UInt16) : Option Constant :=
  match index.toNat with
  | 0 => none
  | position + 1 => pool.entries[position]?

/-- The bytes of a text entry. -/
def utf8Bytes? (pool : ConstantPool) (index : UInt16) : Option Bytes :=
  match pool.get? index with
  | some (.utf8 bytes) => some bytes
  | _ => none

/-- The text at an index, if its bytes are well-formed UTF-8. -/
def text? (pool : ConstantPool) (index : UInt16) : Option String :=
  match pool.get? index with
  | some (.utf8 bytes) => bytes.toText?
  | _ => none

/-- The name of a class entry. -/
def className? (pool : ConstantPool) (index : UInt16) : Option String :=
  match pool.get? index with
  | some (.classRef name) => pool.text? name
  | _ => none

/-- The name and descriptor of a name-and-type entry. -/
def nameAndType? (pool : ConstantPool) (index : UInt16) : Option (String × String) :=
  match pool.get? index with
  | some (.nameAndType name descriptor) => do
      let name ← pool.text? name
      let descriptor ← pool.text? descriptor
      return (name, descriptor)
  | _ => none

/-- The member a class and a name-and-type entry name together. -/
def memberOf? (pool : ConstantPool) (owner nameAndType : UInt16) : Option MemberRef := do
  let owner ← pool.className? owner
  let (name, descriptor) ← pool.nameAndType? nameAndType
  return ⟨owner, name, descriptor⟩

/-- The member a field, method or interface method reference names. -/
def member? (pool : ConstantPool) (index : UInt16) : Option MemberRef :=
  match pool.get? index with
  | some (.fieldRef owner nameAndType) => pool.memberOf? owner nameAndType
  | some (.methodRef owner nameAndType) => pool.memberOf? owner nameAndType
  | some (.interfaceMethodRef owner nameAndType) => pool.memberOf? owner nameAndType
  | _ => none

/-- Whether an index is that of a class entry naming an array class. -/
def namesArrayClass (pool : ConstantPool) (constant : Constant) : Bool :=
  match constant with
  | .classRef name =>
      match pool.text? name with
      | some text => text.toList.head? == some '['
      | none => false
  | _ => false

/-- Make the declared size agree with the entries. -/
def syncSize (pool : ConstantPool) : ConstantPool :=
  { pool with size := UInt16.ofNat (pool.entries.size + 1) }

/-- Append an entry and give its index. -/
def push (pool : ConstantPool) (constant : Constant) : UInt16 × ConstantPool :=
  let first := pool.entries.push constant
  let entries := if constant.isWide then first.push .reserved else first
  (UInt16.ofNat first.size, { pool with entries }.syncSize)

/-- The index of the first entry with a property. -/
def find? (pool : ConstantPool) (p : Constant → Bool) : Option UInt16 :=
  (pool.entries.findIdx? p).map fun position => UInt16.ofNat (position + 1)

/-- The index of the first entry equal to `constant`. -/
def indexOf? (pool : ConstantPool) (constant : Constant) : Option UInt16 :=
  pool.find? (· == constant)

/-- The index of `constant`, which is appended if the pool lacks it. -/
def intern (pool : ConstantPool) (constant : Constant) : UInt16 × ConstantPool :=
  match pool.indexOf? constant with
  | some index => (index, pool)
  | none => pool.push constant

/-- The index of the first text entry spelling `text`. -/
def textIndex? (pool : ConstantPool) (text : String) : Option UInt16 :=
  pool.indexOf? (.utf8 (Bytes.ofText text))

/-- The index of a text entry. -/
def internText (pool : ConstantPool) (text : String) : UInt16 × ConstantPool :=
  pool.intern (.utf8 (Bytes.ofText text))

/-- The index of a class entry. -/
def internClass (pool : ConstantPool) (name : String) : UInt16 × ConstantPool :=
  let (nameIndex, pool) := pool.internText name
  pool.intern (.classRef nameIndex)

/-- The index of a name-and-type entry. -/
def internNameAndType (pool : ConstantPool) (name descriptor : String) :
    UInt16 × ConstantPool :=
  let (nameIndex, pool) := pool.internText name
  let (descriptorIndex, pool) := pool.internText descriptor
  pool.intern (.nameAndType nameIndex descriptorIndex)

/-- The index of a field reference. -/
def internField (pool : ConstantPool) (field : MemberRef) : UInt16 × ConstantPool :=
  let (ownerIndex, pool) := pool.internClass field.owner
  let (nameAndTypeIndex, pool) := pool.internNameAndType field.name field.descriptor
  pool.intern (.fieldRef ownerIndex nameAndTypeIndex)

/-- The index of a method reference. -/
def internMethod (pool : ConstantPool) (method : MemberRef) : UInt16 × ConstantPool :=
  let (ownerIndex, pool) := pool.internClass method.owner
  let (nameAndTypeIndex, pool) := pool.internNameAndType method.name method.descriptor
  pool.intern (.methodRef ownerIndex nameAndTypeIndex)

end ConstantPool

end ValueForm
