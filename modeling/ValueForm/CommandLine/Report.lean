import ValueForm.Archive.File
import ValueForm.CommandLine.Arguments

/-!
# What the command line reports

The lines of the log, the report of a failure with the chain of its causes, and
the texts for help, version and wrong usage.
-/

namespace ValueForm

/-- What a run leaves behind: its exit code, its output, the lines of its log,
and the file it writes. -/
structure Report where
  exitCode : Nat
  output : String := ""
  log : List String := []
  written : Option OutputFile := none
  deriving DecidableEq, Repr

namespace Report

/-- The name of the program. -/
def programName : String := "flatten-jar"

/-- The version of the program. -/
def programVersion : String := "0.1.0"

/-- How the program is called. -/
def usage : String := "Usage: " ++ programName ++ " [OPTIONS] <JAR>"

/-- The help text. -/
def helpText : String :=
  "Rewrites JVM class files so value-capable classes travel in their flattened value form\n\n" ++
    usage ++ "\n\n" ++
    "Arguments:\n" ++
    "  <JAR>  Input archive; the result is written next to it as `<name>-valuetypified.jar`\n\n" ++
    "Options:\n" ++
    "      --no-array-rewrite  Keep arrays of value-capable classes as reference arrays\n" ++
    "  -v, --verbose           Log every converted class and method\n" ++
    "  -h, --help              Print help\n" ++
    "  -V, --version           Print version\n"

/-- The lines of a text. -/
def lines (text : String) : List String :=
  (text.toList.splitOn '\n').map String.ofList

/-- Lines with `first` in front of the first and `later` in front of the
others. -/
def indented (first later : String) : List String → List String
  | [] => []
  | line :: rest => (first ++ line) :: rest.map (later ++ ·)

/-- Whether a note is shown. -/
def isShown (verbose : Bool) (note : Note) : Bool :=
  verbose || note.level != .debug

/-- The lines of a note in the log. -/
def noteLines (note : Note) : List String :=
  indented ("[" ++ note.level.label ++ "] ") "    " (lines note.text)

/-- The log of the notes that are shown. -/
def logLines (verbose : Bool) (notes : List Note) : List String :=
  (notes.filter (isShown verbose)).flatMap noteLines

/-- What stands in front of a numbered cause: the number takes five columns. -/
def numbered (number : Nat) : String :=
  let digits := toString number
  String.ofList (List.replicate (5 - digits.length) ' ') ++ digits ++ ": "

/-- The lines of the causes of a failure. A single cause is not numbered. -/
def causeLines : List String → List String
  | [] => []
  | [cause] => indented "    " "    " (lines cause)
  | causes => causes.zipIdx.flatMap fun (cause, number) =>
      indented (numbered number) "       " (lines cause)

/-- The lines that report a failure. -/
def failureLines (path : String) (error : ArchiveConvertError) : List String :=
  lines ("Error: failed to convert " ++ path) ++ ["", "Caused by:"] ++
    causeLines (error.message :: error.causes)

/-- The report of a conversion. -/
def ofConversion (settings : Settings) (conversion : FileConversion) : Report :=
  let log := logLines settings.verbose conversion.notes
  match conversion.result with
  | .ok file => { exitCode := 0, output := file.path ++ " generated\n", log, written := some file }
  | .error error => { exitCode := 1, log := log ++ failureLines settings.path error }

/-- The report of wrong usage. -/
def ofUsageError (error : UsageError) : Report where
  exitCode := 2
  log := lines ("error: " ++ error.message) ++
    ["", usage, "", "For more information, try '--help'."]

end Report

/-- Carry out a command; `content` gives the content of the file at a path. -/
def Command.run (content : String → Except FileError Bytes) : Command → Report
  | .help => { exitCode := 0, output := Report.helpText }
  | .version =>
      { exitCode := 0, output := Report.programName ++ " " ++ Report.programVersion ++ "\n" }
  | .convert settings =>
      let options : ConvertOptions := ⟨!settings.keepArrays⟩
      Report.ofConversion settings (convertFile settings.path (content settings.path) options)

/-- Run the program on arguments. -/
def runArguments (content : String → Except FileError Bytes) (arguments : List String) : Report :=
  match Command.parse arguments with
  | .error error => Report.ofUsageError error
  | .ok command => command.run content

end ValueForm
