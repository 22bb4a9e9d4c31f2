import ValueForm.ClassFile.Basic

/-!
# Archives

An archive is a list of named entries in a fixed order; names may repeat. A
name ending in a slash is a directory. Looking up a name finds the first entry
that has it.
-/

namespace ValueForm

/-- A named part of an archive. -/
structure Entry where
  name : String
  data : Bytes
  deriving DecidableEq, Repr

namespace Entry

/-- Whether an entry is a directory. -/
def isDirectory (entry : Entry) : Bool :=
  entry.name.toList.getLast? == some '/'

/-- Whether an entry is a class file. -/
def isClass (entry : Entry) : Bool :=
  !entry.isDirectory && ".class".toList.isSuffixOf entry.name.toList

end Entry

/-- Named entries in order. -/
structure Archive where
  entries : List Entry := []
  deriving DecidableEq, Repr

/-- Why something cannot be done with an archive. -/
inductive ArchiveError where
  /-- A file cannot be read, or the data of an entry is damaged. -/
  | unreadable (reason : String)
  /-- The structure of an archive file is damaged, or an archive has no file
  form. -/
  | malformed (reason : String)
  | malformedClass (error : ClassParseError)
  | missingEntry (name : String)
  deriving DecidableEq, Repr

namespace ArchiveError

/-- The failure in words. -/
def message : ArchiveError → String
  | .unreadable reason => "I/O error: " ++ reason
  | .malformed reason => "ZIP error: " ++ reason
  | .malformedClass error => "class parse error: " ++ error.message
  | .missingEntry name => "entry not found: " ++ name

/-- The messages of the failures behind a failure. -/
def causes : ArchiveError → List String
  | .unreadable reason => [reason]
  | .malformed reason => [reason]
  | _ => []

end ArchiveError

namespace Archive

/-- The names of the entries. -/
def names (archive : Archive) : List String :=
  archive.entries.map (·.name)

/-- The data of the first entry with a name. -/
def get? (archive : Archive) (name : String) : Option Bytes :=
  (archive.entries.find? (·.name == name)).map (·.data)

/-- Whether there is an entry with a name. -/
def contains (archive : Archive) (name : String) : Bool :=
  archive.entries.any (·.name == name)

/-- Append an entry; entries of the same name stay. -/
def push (archive : Archive) (entry : Entry) : Archive :=
  ⟨archive.entries ++ [entry]⟩

/-- Replace the data of the first entry with the name of the given one, or append it. -/
def replaceFirst (entry : Entry) : List Entry → List Entry
  | [] => [entry]
  | first :: rest =>
      if first.name = entry.name then entry :: rest else first :: replaceFirst entry rest

/-- Set the data of the first entry with a name, or append an entry. -/
def set (archive : Archive) (name : String) (data : Bytes) : Archive :=
  ⟨replaceFirst ⟨name, data⟩ archive.entries⟩

/-- Append a directory; a missing slash is added to its name. -/
def addDirectory (archive : Archive) (name : String) : Archive :=
  archive.push ⟨if name.toList.getLast? = some '/' then name else name ++ "/", []⟩

/-- The class in an entry. -/
def parseClass (archive : Archive) (name : String) : Except ArchiveError ClassFile :=
  match archive.get? name with
  | none => .error (.missingEntry name)
  | some data => (ClassFile.parse data).mapError .malformedClass

/-- Store a class in an entry. -/
def setClass (archive : Archive) (name : String) (classFile : ClassFile) : Archive :=
  archive.set name classFile.toBytes

end Archive

end ValueForm
