import ValueForm.CommandLine.Report

/-!
# The command line

Reads the archive, runs the conversion, writes the converted archive through a
temporary file so that only a complete archive takes its place, and prints the
report.
-/

namespace ValueForm

/-- The content of a file. -/
def readContent (path : String) : IO (Except FileError Bytes) := do
  try
    let content ← IO.FS.readBinFile path
    return .ok content.data.toList
  catch error =>
    match error with
    | .noFileOrDirectory .. => return .error .notFound
    | other => return .error (.other (toString other))

/-- Write a file. -/
def writeFile (file : OutputFile) : IO Unit := do
  let temporary := file.path ++ ".part"
  IO.FS.writeBinFile temporary ⟨file.content.toArray⟩
  IO.FS.rename temporary file.path

/-- Write the file of a report and print the report. -/
def publish (report : Report) : IO UInt32 := do
  if let some file := report.written then
    writeFile file
  for line in report.log do
    IO.eprintln line
  IO.print report.output
  return UInt32.ofNat report.exitCode

/-- The path a command reads, if it reads one. -/
def Command.inputPath? : Command → Option String
  | .convert settings => some settings.path
  | _ => none

end ValueForm

open ValueForm in
/-- Run on command-line arguments. -/
def main (arguments : List String) : IO UInt32 := do
  match Command.parse arguments with
  | .error error => publish (Report.ofUsageError error)
  | .ok command =>
      let content ←
        match command.inputPath? with
        | some path => readContent path
        | none => pure (.error .notFound)
      publish (command.run fun _ => content)
