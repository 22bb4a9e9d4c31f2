import ValueForm.Zip.Checksum
import ValueForm.Zip.Error
import ValueForm.Zip.Record

/-!
# Writing archive files

`Archive.toBytes` lays out an archive file: every entry behind its local header,
then the directory, then the end record, with a wide one in front where the
number of entries or the offset of the directory asks for it. The data of
directories is left out.
An archive in which a name repeats, or with a name too long for its length
field, has no file form.
-/

namespace ValueForm

namespace Zip

/-- The data of an entry as it is written. -/
def writtenData (entry : Entry) : Bytes :=
  if entry.isDirectory then [] else entry.data

/-- The fields of an entry whose data is written as it is. -/
def storedFields (name data : Bytes) : EntryFields where
  flags := if name.all (·.toNat < 128) then 0 else 0x0800
  method := 0
  checksum := data.checksum.toNat
  compressedSize := data.length
  size := data.length

/-- The local header and data of an entry at an offset, and its directory
header. -/
def packEntry (offset : Nat) (entry : Entry) : Bytes × DirectoryHeader :=
  let name := Bytes.ofText entry.name
  let data := writtenData entry
  let fields := storedFields name data
  (localHeaderBytes fields name ++ data, ⟨fields, name, [], [], offset⟩)

/-- The end of an archive file: the end record of a directory at an offset, and
the wide one in front if there has to be one. -/
def packEnd (count size offset : Nat) : Bytes :=
  let narrow : EndRecord := {
    disk := 0, directoryDisk := 0, diskEntries := min count wideCount,
    totalEntries := min count wideCount, directorySize := min size wideSize,
    directoryOffset := min offset wideSize }
  if count ≤ wideCount ∧ size ≤ wideSize ∧ offset ≤ wideSize then narrow.toBytes
  else
    let wide : WideEndRecord := {
      length := WideEndRecord.leastLength, versionMadeBy := WideEndRecord.version,
      versionNeeded := WideEndRecord.version, disk := 0, directoryDisk := 0,
      diskEntries := count, totalEntries := count, directorySize := size,
      directoryOffset := offset }
    let locator : WideLocator := ⟨0, offset + size, 1⟩
    wide.toBytes ++ locator.toBytes ++ narrow.toBytes

/-- Lay out entries from an offset on; `parts` and `headers` hold what is done,
last one first. -/
def packEntries : (offset : Nat) → (parts : List Bytes) → (headers : List DirectoryHeader) →
    List Entry → Bytes
  | offset, parts, headers, [] =>
      let directory := headers.reverse.flatMap DirectoryHeader.toBytes
      parts.reverse.flatten ++ directory ++ packEnd headers.length directory.length offset
  | offset, parts, headers, entry :: rest =>
      let (part, header) := packEntry offset entry
      packEntries (offset + part.length) (part :: parts) (header :: headers) rest

/-- Whether a name occurs twice. -/
def repeatsName : List String → Bool
  | [] => false
  | name :: rest => rest.contains name || repeatsName rest

/-- Whether a name fits its length field. -/
def fitsName (name : String) : Bool :=
  name.utf8ByteSize < 65536

end Zip

/-- The archive file of an archive. -/
def Archive.toBytes (archive : Archive) : Except ArchiveError Bytes :=
  if Zip.repeatsName archive.names then .error (Zip.invalid "Duplicate filename")
  else if archive.names.all Zip.fitsName then .ok (Zip.packEntries 0 [] [] archive.entries)
  else .error (Zip.invalid "File name too long")

end ValueForm
