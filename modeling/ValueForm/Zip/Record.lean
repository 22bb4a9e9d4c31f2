import ValueForm.Reader

/-!
# Records of archive files

An archive file holds a local header in front of the data of every entry, then
a directory with a header for every entry, then an end record that locates the
directory. Where 16 or 32 bits do not suffice, a wide end record and its locator
stand in front of the end record. Numbers are little-endian. Fields without
meaning here, such as times, are skipped when reading and written as zero.
-/

namespace ValueForm

namespace Bytes

/-- The `width` low-order bytes of a number, least significant first. -/
def littleEndian : (width : Nat) → (value : Nat) → Bytes
  | 0, _ => []
  | width + 1, value => UInt8.ofNat value :: littleEndian width (value / 256)

/-- The number a byte string stands for, least significant byte first. -/
def toNatLittle : Bytes → Nat
  | [] => 0
  | byte :: rest => byte.toNat + 256 * toNatLittle rest

end Bytes

/-- A little-endian number of `width` bytes. -/
def Reader.little (width : Nat) : Reader Nat := do
  return (← Reader.take width).toNatLittle

namespace Zip

/-- The bytes a local header starts with. -/
def localSignature : Bytes := [0x50, 0x4b, 0x03, 0x04]

/-- The bytes a directory header starts with. -/
def directorySignature : Bytes := [0x50, 0x4b, 0x01, 0x02]

/-- The bytes the end record starts with. -/
def endSignature : Bytes := [0x50, 0x4b, 0x05, 0x06]

/-- The bytes the wide end record starts with. -/
def wideEndSignature : Bytes := [0x50, 0x4b, 0x06, 0x06]

/-- The bytes the locator of the wide end record starts with. -/
def locatorSignature : Bytes := [0x50, 0x4b, 0x06, 0x07]

/-- The greatest 16-bit number: a count that is given elsewhere. -/
def wideCount : Nat := 0xffff

/-- The greatest 32-bit number: a size or an offset that is given elsewhere. -/
def wideSize : Nat := 0xffffffff

/-- The fields that the local and the directory header of an entry share. -/
structure EntryFields where
  flags : Nat
  method : Nat
  checksum : Nat
  compressedSize : Nat
  size : Nat
  deriving DecidableEq, Repr

namespace EntryFields

/-- The format version needed to read an entry, in tenths. -/
def versionNeeded : Nat := 20

/-- Version, flags, method, time, date, checksum and sizes. -/
def read : Reader EntryFields := do
  discard (Reader.take 2)
  let flags ← Reader.little 2
  let method ← Reader.little 2
  discard (Reader.take 4)
  let checksum ← Reader.little 4
  let compressedSize ← Reader.little 4
  return ⟨flags, method, checksum, compressedSize, ← Reader.little 4⟩

/-- The encoding of the fields. -/
def toBytes (fields : EntryFields) : Bytes :=
  Bytes.littleEndian 2 versionNeeded ++ Bytes.littleEndian 2 fields.flags ++
    Bytes.littleEndian 2 fields.method ++ Bytes.littleEndian 4 0 ++
    Bytes.littleEndian 4 fields.checksum ++ Bytes.littleEndian 4 fields.compressedSize ++
    Bytes.littleEndian 4 fields.size

/-- Whether the data is encrypted. -/
def isEncrypted (fields : EntryFields) : Bool :=
  fields.flags.testBit 0

/-- Whether the name is stored as UTF-8. -/
def isUtf8 (fields : EntryFields) : Bool :=
  fields.flags.testBit 11

end EntryFields

/-- The length of a local header up to its name. -/
def localHeaderSize : Nat := 30

/-- Read a local header up to its name, and tell its whole length. -/
def localHeaderLength : Reader Nat := do
  Reader.magic localSignature
  discard EntryFields.read
  let nameLength ← Reader.little 2
  let extraLength ← Reader.little 2
  return localHeaderSize + nameLength + extraLength

/-- The encoding of a local header. -/
def localHeaderBytes (fields : EntryFields) (name : Bytes) : Bytes :=
  localSignature ++ fields.toBytes ++ Bytes.littleEndian 2 name.length ++
    Bytes.littleEndian 2 0 ++ name

/-- A directory header: the fields of an entry, its name, extra fields and
comment as they are stored, and the offset of its local header. -/
structure DirectoryHeader where
  fields : EntryFields
  name : Bytes
  extra : Bytes
  comment : Bytes
  offset : Nat
  deriving DecidableEq, Repr

namespace DirectoryHeader

/-- The length of the shortest directory header. -/
def leastSize : Nat := 46

/-- A directory header. -/
def read : Reader DirectoryHeader := do
  Reader.magic directorySignature
  discard (Reader.take 2)
  let fields ← EntryFields.read
  let nameLength ← Reader.little 2
  let extraLength ← Reader.little 2
  let commentLength ← Reader.little 2
  discard (Reader.take 8)
  let offset ← Reader.little 4
  let name ← Reader.take nameLength
  let extra ← Reader.take extraLength
  let comment ← Reader.take commentLength
  return ⟨fields, name, extra, comment, offset⟩

/-- The encoding of a directory header. -/
def toBytes (header : DirectoryHeader) : Bytes :=
  directorySignature ++ Bytes.littleEndian 2 EntryFields.versionNeeded ++ header.fields.toBytes ++
    Bytes.littleEndian 2 header.name.length ++ Bytes.littleEndian 2 header.extra.length ++
    Bytes.littleEndian 2 header.comment.length ++ Bytes.littleEndian 8 0 ++
    Bytes.littleEndian 4 header.offset ++ header.name ++ header.extra ++ header.comment

end DirectoryHeader

/-- The end record. -/
structure EndRecord where
  disk : Nat
  directoryDisk : Nat
  diskEntries : Nat
  totalEntries : Nat
  directorySize : Nat
  directoryOffset : Nat
  deriving DecidableEq, Repr

namespace EndRecord

/-- An end record; its comment must be complete. -/
def read : Reader EndRecord := do
  Reader.magic endSignature
  let disk ← Reader.little 2
  let directoryDisk ← Reader.little 2
  let diskEntries ← Reader.little 2
  let totalEntries ← Reader.little 2
  let directorySize ← Reader.little 4
  let directoryOffset ← Reader.little 4
  let commentLength ← Reader.little 2
  discard (Reader.take commentLength)
  return ⟨disk, directoryDisk, diskEntries, totalEntries, directorySize, directoryOffset⟩

/-- The encoding of an end record without comment. -/
def toBytes (record : EndRecord) : Bytes :=
  endSignature ++ Bytes.littleEndian 2 record.disk ++ Bytes.littleEndian 2 record.directoryDisk ++
    Bytes.littleEndian 2 record.diskEntries ++ Bytes.littleEndian 2 record.totalEntries ++
    Bytes.littleEndian 4 record.directorySize ++ Bytes.littleEndian 4 record.directoryOffset ++
    Bytes.littleEndian 2 0

/-- Whether a wide end record may complete an end record. -/
def mayBeWide (record : EndRecord) : Bool :=
  record.totalEntries == wideCount || record.directoryOffset == wideSize

end EndRecord

/-- The locator of a wide end record. -/
structure WideLocator where
  directoryDisk : Nat
  endOffset : Nat
  disks : Nat
  deriving DecidableEq, Repr

namespace WideLocator

/-- The length of a locator. -/
def size : Nat := 20

/-- A locator. -/
def read : Reader WideLocator := do
  Reader.magic locatorSignature
  let directoryDisk ← Reader.little 4
  let endOffset ← Reader.little 8
  return ⟨directoryDisk, endOffset, ← Reader.little 4⟩

/-- The encoding of a locator. -/
def toBytes (locator : WideLocator) : Bytes :=
  locatorSignature ++ Bytes.littleEndian 4 locator.directoryDisk ++
    Bytes.littleEndian 8 locator.endOffset ++ Bytes.littleEndian 4 locator.disks

end WideLocator

/-- The wide end record. Its length counts from the field behind it. -/
structure WideEndRecord where
  length : Nat
  versionMadeBy : Nat
  versionNeeded : Nat
  disk : Nat
  directoryDisk : Nat
  diskEntries : Nat
  totalEntries : Nat
  directorySize : Nat
  directoryOffset : Nat
  deriving DecidableEq, Repr

namespace WideEndRecord

/-- The length of the signature and the length field, which a record does not
count. -/
def uncounted : Nat := 12

/-- The length of a record that holds nothing further. -/
def leastLength : Nat := 44

/-- The format version that brought wide end records, in tenths. -/
def version : Nat := 45

/-- A wide end record, up to what it may hold further. -/
def read : Reader WideEndRecord := do
  Reader.magic wideEndSignature
  let length ← Reader.little 8
  let versionMadeBy ← Reader.little 2
  let versionNeeded ← Reader.little 2
  let disk ← Reader.little 4
  let directoryDisk ← Reader.little 4
  let diskEntries ← Reader.little 8
  let totalEntries ← Reader.little 8
  let directorySize ← Reader.little 8
  let directoryOffset ← Reader.little 8
  return ⟨length, versionMadeBy, versionNeeded, disk, directoryDisk, diskEntries, totalEntries,
    directorySize, directoryOffset⟩

/-- The encoding of a wide end record that holds nothing further. -/
def toBytes (record : WideEndRecord) : Bytes :=
  wideEndSignature ++ Bytes.littleEndian 8 record.length ++
    Bytes.littleEndian 2 record.versionMadeBy ++ Bytes.littleEndian 2 record.versionNeeded ++
    Bytes.littleEndian 4 record.disk ++ Bytes.littleEndian 4 record.directoryDisk ++
    Bytes.littleEndian 8 record.diskEntries ++ Bytes.littleEndian 8 record.totalEntries ++
    Bytes.littleEndian 8 record.directorySize ++ Bytes.littleEndian 8 record.directoryOffset

end WideEndRecord

end Zip

end ValueForm
