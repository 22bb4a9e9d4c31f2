import ValueForm.Zip.Checksum
import ValueForm.Zip.EntryName
import ValueForm.Zip.Error
import ValueForm.Zip.Record

/-!
# Extra fields

A directory header may carry extra fields, each a kind, a length and its
content. They give sizes and offsets that are too large for the header, times,
a name and a comment in UTF-8, and how the data is encrypted. `EntryInfo.ofHeader`
is what a header and its extra fields say of an entry.

A field of a known kind must have the form of its kind. Where the fields break
off they end, and what was read before counts.
-/

namespace ValueForm

namespace Zip

/-- What is known of an entry: how its data is stored, where its local header
is, and its name and comment. -/
structure EntryInfo where
  fields : EntryFields
  offset : Nat
  /-- The bytes of the name. -/
  storedName : Bytes
  name : String
  comment : String
  /-- Whether an extra field tells how the data is encrypted. -/
  isSealed : Bool := false
  deriving DecidableEq, Repr

/-- The kinds of extra fields. -/
inductive ExtraKind where
  | wideSizes
  | fileTimes
  | encryption
  | timestamps
  | unicodeComment
  | unicodeName
  | other
  deriving DecidableEq, Repr

/-- The kind with a number. -/
def ExtraKind.ofCode : Nat → ExtraKind
  | 0x0001 => .wideSizes
  | 0x000a => .fileTimes
  | 0x9901 => .encryption
  | 0x5455 => .timestamps
  | 0x6375 => .unicodeComment
  | 0x7075 => .unicodeName
  | _ => .other

/-- Why the reading of extra fields ends early. -/
inductive ExtraStop where
  /-- The fields break off. -/
  | brokenOff
  /-- A field does not have the form of its kind. -/
  | refused (error : ArchiveError)
  deriving DecidableEq, Repr

/-- The bytes of the extra fields still to be read, and what is known so far. -/
structure ExtraState where
  rest : Bytes
  info : EntryInfo
  deriving DecidableEq, Repr

/-- A reader of extra fields. What it has found out stays when it stops. -/
abbrev ExtraReader := EStateM ExtraStop ExtraState

namespace ExtraReader

/-- The next `count` bytes. -/
def bytes (count : Nat) : ExtraReader Bytes := do
  let state ← get
  match Reader.splitExact count [] state.rest with
  | some (taken, rest) => do
      set { state with rest }
      return taken
  | none => throw .brokenOff

/-- A number of `width` bytes. -/
def number (width : Nat) : ExtraReader Nat := do
  return (← bytes width).toNatLittle

/-- Give up on the archive file. -/
def refuse {α : Type} (error : ArchiveError) : ExtraReader α :=
  throw (.refused error)

/-- Replace what is known of the entry. -/
def setInfo (info : EntryInfo) : ExtraReader Unit :=
  modify fun state => { state with info }

/-- A 64-bit number in place of a 32-bit one. A field gives the numbers whose
place in the header is marked, and a field that is long enough gives all. -/
def wideNumber (length value : Nat) (replace : EntryInfo → Nat → EntryInfo) : ExtraReader Nat := do
  if 24 ≤ length ∨ value = wideSize then
    let wide ← number 8
    setInfo (replace (← get).info wide)
    return 8
  else
    return 0

/-- The size, the stored size and the offset of an entry. -/
def wideSizes (length : Nat) : ExtraReader Unit := do
  let info := (← get).info
  let first ← wideNumber length info.fields.size fun info size =>
    { info with fields := { info.fields with size } }
  let second ← wideNumber length info.fields.compressedSize fun info compressedSize =>
    { info with fields := { info.fields with compressedSize } }
  let third ← wideNumber length info.offset fun info offset => { info with offset }
  let used := first + second + third
  if used ≤ length then discard (bytes (length - used))
  else refuse (invalid "ZIP64 extra-data field is the wrong length")

/-- The times of a file, in one attribute of three 64-bit numbers. -/
def fileTimes (length : Nat) : ExtraReader Unit := do
  if length ≠ 32 then refuse (unsupported "NTFS extra field has an unsupported length")
  else
    discard (bytes 4)
    if (← number 2) ≠ 1 then
      refuse (unsupported "NTFS extra field has an unsupported attribute tag")
    else if (← number 2) ≠ 24 then
      refuse (unsupported "NTFS extra field has an unsupported attribute size")
    else discard (bytes 24)

/-- Up to three times, one for each flag that is set. Only the first is there
if there is room for one. -/
def timestamps (length : Nat) : ExtraReader Unit := do
  let flags ← number 1
  let times := ((List.range 8).filter flags.testBit).length
  if length ≠ 5 ∧ length ≠ 1 + 4 * times then
    refuse (unsupported "flags and len don't match in extended timestamp field")
  else if 8 ≤ flags then
    refuse (unsupported "found unsupported timestamps in the extended timestamp header")
  else discard (bytes (length - 1))

/-- The encryption of the data: a version, the vendor, the strength, and the
method behind it. -/
def encryption (length : Nat) : ExtraReader Unit := do
  if length ≠ 7 then refuse (unsupported "AES extra data field has an unsupported length")
  else
    let version ← number 2
    let vendor ← number 2
    let strength ← number 1
    let method ← number 2
    if vendor ≠ 0x4541 then refuse (invalid "Invalid AES vendor")
    else if version ≠ 1 ∧ version ≠ 2 then refuse (invalid "Invalid AES vendor version")
    else if strength < 1 ∨ 3 < strength then refuse (invalid "Invalid AES encryption strength")
    else
      let info := (← get).info
      setInfo { info with fields := { info.fields with method }, isSealed := true }

/-- A text in UTF-8, with the checksum of the bytes it stands for. -/
def unicodeText (length : Nat) (replaced : Bytes) : ExtraReader (Bytes × String) := do
  discard (bytes 1)
  let checksum ← number 4
  if length < 5 then refuse (invalid "Unicode extra field is too small")
  else
    let content ← bytes (length - 5)
    if replaced.checksum.toNat ≠ checksum then
      refuse (invalid "CRC32 checksum failed on Unicode extra field")
    else
      match content.toText? with
      | some text => return (content, text)
      | none => refuse (invalid "Invalid UTF-8")

/-- A comment in place of the one in the header. -/
def unicodeComment (length : Nat) : ExtraReader Unit := do
  let (_, comment) ← unicodeText length (Bytes.ofText (← get).info.comment)
  setInfo { (← get).info with comment }

/-- A name in place of the one in the header. -/
def unicodeName (length : Nat) : ExtraReader Unit := do
  let (storedName, name) ← unicodeText length (← get).info.storedName
  setInfo { (← get).info with storedName, name }

/-- One field. -/
def field : ExtraReader Unit := do
  let kind ← number 2
  let length ← number 2
  match ExtraKind.ofCode kind with
  | .wideSizes => wideSizes length
  | .fileTimes => fileTimes length
  | .encryption => encryption length
  | .timestamps => timestamps length
  | .unicodeComment => unicodeComment length
  | .unicodeName => unicodeName length
  | .other => discard (bytes length)

/-- Fields up to the end. Every field takes bytes, so `fields` need not exceed
their number. -/
def upTo : (fields : Nat) → ExtraReader Unit
  | 0 => return
  | fields + 1 => do
      if (← get).rest.isEmpty then return
      else
        field
        upTo fields

end ExtraReader

namespace EntryInfo

/-- The number of the method of encrypted data. -/
def sealedMethod : Nat := 99

/-- What a header says without its extra fields. -/
def plain (header : DirectoryHeader) : EntryInfo where
  fields := header.fields
  offset := header.offset
  storedName := header.name
  name := EntryName.decode header.fields.isUtf8 header.name
  comment := EntryName.decode header.fields.isUtf8 header.comment

/-- What a header and its extra fields say of an entry. -/
def ofHeader (header : DirectoryHeader) : Except ArchiveError EntryInfo :=
  match (ExtraReader.upTo header.extra.length).run ⟨header.extra, plain header⟩ with
  | .error (.refused error) _ => .error error
  | .ok _ state | .error .brokenOff state =>
      if state.info.fields.method = sealedMethod ∧ !state.info.isSealed then
        .error (invalid "AES encryption without AES extra data field")
      else
        .ok state.info

end EntryInfo

end Zip

end ValueForm
