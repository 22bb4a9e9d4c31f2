import ValueForm.Archive.Basic

/-!
# Why an archive file is refused

An archive file is refused because a part of it is damaged or because it uses
what is not supported. Both are failures of its structure; failures in the data
of an entry are told apart from them.
-/

namespace ValueForm

namespace Zip

/-- A part of an archive file is damaged. -/
def invalid (reason : String) : ArchiveError :=
  .malformed ("invalid Zip archive: " ++ reason)

/-- An archive file uses what is not supported. -/
def unsupported (reason : String) : ArchiveError :=
  .malformed ("unsupported Zip archive: " ++ reason)

/-- There is no end record. -/
def noEnd : ArchiveError := invalid "Could not find EOCD"

/-- The data of an entry is encrypted, and no password is at hand. -/
def wrongPassword : ArchiveError := .malformed "provided password is incorrect"

end Zip

end ValueForm
