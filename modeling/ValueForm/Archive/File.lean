import ValueForm.Archive.Conversion
import ValueForm.Archive.OutputPath
import ValueForm.Zip.Pack
import ValueForm.Zip.Unpack

/-!
# Converting archive files

From the content of an archive file to the path and the content of the
converted one.
-/

namespace ValueForm

/-- Why a file cannot be read. -/
inductive FileError where
  | notFound
  | other (reason : String)
  deriving DecidableEq, Repr

/-- The failure in words. -/
def FileError.message : FileError → String
  | .notFound => "No such file or directory (os error 2)"
  | .other reason => reason

/-- A file to be written. -/
structure OutputFile where
  path : String
  content : Bytes
  deriving DecidableEq, Repr

/-- The outcome of the conversion of a file, with the notes left on the way. -/
structure FileConversion where
  result : Except ArchiveConvertError OutputFile
  notes : List Note

/-- The archive in a file. -/
def Archive.ofFile (content : Except FileError Bytes) : Except ArchiveError Archive :=
  match content with
  | .error error => .error (.unreadable error.message)
  | .ok bytes => Archive.ofBytes bytes

/-- Convert the archive file at a path, given its content. -/
def convertFile (path : String) (content : Except FileError Bytes) (options : ConvertOptions) :
    FileConversion :=
  match Archive.ofFile content with
  | .error error => ⟨.error (.archive error), []⟩
  | .ok archive =>
      let conversion := archive.convert options
      match conversion.result with
      | .error error => ⟨.error error, conversion.notes⟩
      | .ok converted =>
          match converted.toBytes with
          | .error error => ⟨.error (.archive error), conversion.notes⟩
          | .ok bytes =>
              let target := outputPath path
              ⟨.ok ⟨target, bytes⟩, conversion.notes ++ [.wrote target]⟩

end ValueForm
