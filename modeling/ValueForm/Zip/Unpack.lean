import ValueForm.Zip.Directory
import ValueForm.Zip.Inflate

/-!
# Reading archive files

`Archive.ofBytes` reads an archive file: the entries its directory lists, one
after the other, each with its data. A local header is read when its entry is,
so damage to an entry shows only when its turn comes.

Where names repeat, the data of the last entry takes the place of the first.
-/

namespace ValueForm

namespace Zip

/-- Put an entry in the place of the first one with its name, or at the end. -/
def collapse (entry : EntryInfo) : List EntryInfo → List EntryInfo
  | [] => [entry]
  | first :: rest => if first.name = entry.name then entry :: rest else first :: collapse entry rest

/-- How the data of entries is stored. -/
inductive Method where
  | stored
  | deflated
  deriving DecidableEq, Repr

/-- The method with a number. -/
def Method.ofCode? : Nat → Option Method
  | 0 => some .stored
  | 8 => some .deflated
  | _ => none

/-- The data behind what a method stored. -/
def Method.unpack? : Method → Bytes → Option Bytes
  | .stored, bytes => some bytes
  | .deflated, bytes => inflate? bytes

/-- Whether a name is taken for a directory, whose data is not read. -/
def namesDirectory (name : String) : Bool :=
  let last := name.toList.getLast?
  last == some '/' || last == some '\\'

/-- The stored data of an entry and the method it is stored by. -/
def openEntry (file : Bytes) (info : EntryInfo) : Except ArchiveError (Method × Bytes) :=
  if info.fields.isEncrypted then .error (unsupported "Password required to decrypt file")
  else
    match localHeaderLength (file.drop info.offset) with
    | .error _ => .error (invalid "Invalid local file header")
    | .ok (length, _) =>
        match Method.ofCode? info.fields.method with
        | none => .error (unsupported "Compression method not supported")
        | some method =>
            if info.isSealed then .error wrongPassword
            else
              .ok (method, (file.drop (info.offset + length)).take info.fields.compressedSize)

/-- Read the data of an entry and check it. -/
def readEntry (file : Bytes) (info : EntryInfo) : Except ArchiveError Entry := do
  let (method, stored) ← openEntry file info
  if namesDirectory info.name then .ok ⟨info.name, []⟩
  else
    match method.unpack? stored with
    | none => .error (.unreadable "corrupt deflate stream")
    | some data =>
        if data.checksum.toNat = info.fields.checksum then .ok ⟨info.name, data⟩
        else .error (.unreadable "Invalid checksum")

end Zip

/-- The archive in an archive file. -/
def Archive.ofBytes (file : Bytes) : Except ArchiveError Archive := do
  let listed ← Zip.listing file
  let distinct := listed.foldl (fun entries entry => Zip.collapse entry entries) []
  let entries ← distinct.mapM (Zip.readEntry file)
  return ⟨entries⟩

end ValueForm
