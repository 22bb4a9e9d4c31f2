import ValueForm.Zip.ExtraField

/-!
# Directories of archive files

The end record is looked for from the end of the file backwards, and the first
one that leads to a complete directory counts. Bytes in front of the archive are
allowed: the directory, or the wide end record where there is one, is looked for
from its declared offset on, and where it is found tells by how much all offsets
are shifted.

`listing` gives the entries that a file lists, without a look at their data.
-/

namespace ValueForm

namespace Zip

/-- Where a byte sequence occurs, last place first. `offset` is that of
`bytes` and `found` holds the places before it. -/
def occurrences (pattern : Bytes) : (offset : Nat) → (found : List Nat) → (bytes : Bytes) → List Nat
  | _, found, [] => found
  | offset, found, byte :: rest =>
      let found := if pattern.isPrefixOf (byte :: rest) then offset :: found else found
      occurrences pattern (offset + 1) found rest

/-- Where a byte sequence occurs in a file from `start` on and before `stop`,
first place first. -/
def occurrencesWithin (file pattern : Bytes) (start stop : Nat) : List Nat :=
  (occurrences pattern start [] ((file.drop start).take (stop - start))).reverse

/-- A directory: where it starts, by how much offsets are shifted, and how many
headers it has. -/
structure Directory where
  start : Nat
  shift : Nat
  count : Nat
  /-- Whether the end record is in accord with itself. -/
  isSound : Bool
  deriving DecidableEq, Repr

/-- The directory that an end record at an offset leads to. -/
def locateNarrow (file : Bytes) (position : Nat) (record : EndRecord) :
    Except ArchiveError Directory :=
  let declared := record.directoryOffset
  let directory (shift : Nat) : Directory :=
    ⟨declared + shift, shift, record.diskEntries, record.disk == record.directoryDisk⟩
  if record.totalEntries = 0 then .ok (directory (position - declared))
  else if position ≤ declared then .error (invalid "Invalid CDFH offset in EOCD")
  else
    match occurrencesWithin file directorySignature declared position with
    | start :: _ => .ok (directory (start - declared))
    | [] => .error (invalid "No CDFH found")

/-- The directory that the wide end record at an offset leads to. It must fill
the space up to its locator and agree with it. -/
def wideDirectory (file : Bytes) (locatorStart : Nat) (locator : WideLocator) (start : Nat) :
    Except ArchiveError Directory :=
  match WideEndRecord.read (file.drop start) with
  | .error _ => .error (invalid "EOCD64 extends beyond EOCD64 locator")
  | .ok (record, _) =>
      if record.length < WideEndRecord.leastLength then
        .error (invalid "Low EOCD64 record size")
      else if record.directoryDisk ≠ locator.directoryDisk then
        .error (invalid "Invalid EOCD64: inconsistency with Locator data")
      else if start + WideEndRecord.uncounted + record.length ≠ locatorStart then
        .error (invalid "Invalid EOCD64: inconsistent length")
      else if start < record.directoryOffset + record.totalEntries * DirectoryHeader.leastSize then
        .error (invalid "Invalid EOCD64: inconsistent number of files")
      else
        let shift := start - locator.endOffset
        .ok ⟨record.directoryOffset + shift, shift, record.totalEntries,
          record.disk == record.directoryDisk && record.diskEntries ≤ record.totalEntries &&
            record.versionNeeded ≤ record.versionMadeBy⟩

/-- The directory that the first usable wide end record leads to; `reason`
tells why there was none so far. -/
def searchWide (file : Bytes) (locatorStart : Nat) (locator : WideLocator) :
    (reason : ArchiveError) → (starts : List Nat) → Except ArchiveError Directory
  | reason, [] => .error reason
  | _, start :: starts =>
      match wideDirectory file locatorStart locator start with
      | .ok directory => .ok directory
      | .error reason => searchWide file locatorStart locator reason starts

/-- The directory that the locator at an offset leads to. -/
def locateWide (file : Bytes) (locatorStart : Nat) (locator : WideLocator) :
    Except ArchiveError Directory :=
  if locatorStart ≤ locator.endOffset then .error (invalid "Invalid EOCD64 Locator CD offset")
  else if 1 < locator.disks then .error (invalid "Multi-disk ZIP files are not supported")
  else
    searchWide file locatorStart locator (invalid "Could not find EOCD64")
      (occurrencesWithin file wideEndSignature locator.endOffset locatorStart)

/-- The locator in front of an end record, with its offset. -/
def locatorBefore? (file : Bytes) (position : Nat) : Option (Nat × WideLocator) :=
  if position < WideLocator.size then none
  else
    let start := position - WideLocator.size
    match WideLocator.read (file.drop start) with
    | .ok (locator, _) => some (start, locator)
    | .error _ => none

/-- The directory that the end record at an offset leads to. -/
def locate (file : Bytes) (position : Nat) : Except ArchiveError Directory :=
  match EndRecord.read (file.drop position) with
  | .error _ => .error (invalid "Invalid EOCD comment length")
  | .ok (record, _) =>
      match if record.mayBeWide then locatorBefore? file position else none with
      | some (locatorStart, locator) => locateWide file locatorStart locator
      | none => locateNarrow file position record

/-- What a header says of its entry, with the offset in the file. The local
header must start before the directory. -/
def placed? (directory : Directory) (header : DirectoryHeader) : Option EntryInfo := do
  let info ← (EntryInfo.ofHeader header).toOption
  let offset := info.offset + directory.shift
  if offset < directory.start then some { info with offset } else none

/-- The entries of a directory. -/
def readDirectory? (file : Bytes) (directory : Directory) : Option (List EntryInfo) :=
  if directory.isSound then do
    let (headers, _) ← (Reader.times directory.count DirectoryHeader.read
      (file.drop directory.start)).toOption
    headers.mapM (placed? directory)
  else
    none

/-- The entries that the first usable end record leads to; `reason` tells why
there was none so far. -/
def search (file : Bytes) : (reason : ArchiveError) → (positions : List Nat) →
    Except ArchiveError (List EntryInfo)
  | reason, [] => .error reason
  | _, position :: positions =>
      match locate file position with
      | .error reason => search file reason positions
      | .ok directory =>
          match readDirectory? file directory with
          | some entries => .ok entries
          | none => search file noEnd positions

/-- The entries that a file lists, in the order of its directory. -/
def listing (file : Bytes) : Except ArchiveError (List EntryInfo) :=
  search file noEnd (occurrences endSignature 0 [] file)

end Zip

end ValueForm
