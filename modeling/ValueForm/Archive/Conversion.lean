import ValueForm.Archive.Basic
import ValueForm.Conversion.Class

/-!
# Converting archives

Every class entry of an archive is converted; all other entries, the order and
the names stay. Whether a class is value-capable is looked up in the archive
itself, once for every class; a class that is not in the archive is an ordinary
class.
-/

namespace ValueForm

/-- Why an archive cannot be converted. -/
inductive ArchiveConvertError where
  | archive (error : ArchiveError)
  | entry (name : String) (error : ConvertError)
  deriving DecidableEq, Repr

namespace ArchiveConvertError

/-- The failure in words. -/
def message : ArchiveConvertError → String
  | .archive error => "jar error: " ++ error.message
  | .entry name error => name ++ ": " ++ error.message

/-- The messages of the failures behind a failure. -/
def causes : ArchiveConvertError → List String
  | .archive error => error.message :: error.causes
  | .entry _ error => error.message :: error.causes

end ArchiveConvertError

/-- An entry after conversion. -/
def Entry.convert (options : ConvertOptions) (entry : Entry) :
    Inquiry ArchiveConvertError Entry := do
  if entry.isClass then
    let data ← (ClassFile.convert entry.data options).mapError (.entry entry.name)
    return { entry with data }
  else
    return entry

namespace Archive

/-- The archive as a source of class files. -/
def finder (archive : Archive) : ClassFinder := fun className =>
  match archive.get? (className ++ ".class") with
  | some data => .found data
  | none => .absent

/-- Convert entries in order; `done` holds those already converted, last one
first. -/
def convertEntries (options : ConvertOptions) : List Entry → (done : List Entry) →
    Inquiry ArchiveConvertError (List Entry)
  | [], done => return done.reverse
  | entry :: rest, done => do
      let converted ← entry.convert options
      if converted ≠ entry then Inquiry.leave (.entryConverted entry.name)
      convertEntries options rest (converted :: done)

/-- A converted archive, or why there is none, with the notes left on the
way. -/
structure Conversion where
  result : Except ArchiveConvertError Archive
  notes : List Note

/-- The number of entries that differ between an archive and its conversion. -/
def changes (before after : List Entry) : Nat :=
  (before.zip after).countP fun (old, new) => old ≠ new

/-- Convert an archive. -/
def convert (archive : Archive) (options : ConvertOptions) : Conversion :=
  let outcome := (convertEntries options archive.entries []).run archive.finder
  match outcome.result with
  | .error error => ⟨.error error, outcome.notes⟩
  | .ok entries =>
      let converted := changes archive.entries entries
      let total := archive.entries.length
      ⟨.ok ⟨entries⟩, outcome.notes ++ [.summary converted total outcome.oracle.lookups]⟩

end Archive

end ValueForm
