/-!
# Command-line arguments

The arguments are read from left to right, and the first one that settles the
matter does: a fault, or a request for help or for the version. Short options
may stand together behind one dash. After `--` everything is a path.
-/

namespace ValueForm

/-- A conversion to carry out. -/
structure Settings where
  path : String
  keepArrays : Bool := false
  verbose : Bool := false
  deriving DecidableEq, Repr

/-- What the arguments ask for. -/
inductive Command where
  | help
  | version
  | convert (settings : Settings)
  deriving DecidableEq, Repr

/-- Why the arguments make no sense. -/
inductive UsageError where
  | unexpected (argument : String)
  | repeated (option : String)
  | unexpectedValue (option value : String)
  | emptyPath
  | missingPath
  deriving DecidableEq, Repr

/-- The failure in words. -/
def UsageError.message : UsageError → String
  | .unexpected argument => "unexpected argument '" ++ argument ++ "' found"
  | .repeated option => "the argument '" ++ option ++ "' cannot be used multiple times"
  | .unexpectedValue option value =>
      "unexpected value '" ++ value ++ "' for '" ++ option ++ "' found; no more were expected"
  | .emptyPath => "a value is required for '<JAR>' but none was supplied"
  | .missingPath => "the following required arguments were not provided:\n  <JAR>"

/-- The options. -/
inductive CommandOption where
  | keepArrays
  | verbose
  | help
  | version
  deriving DecidableEq, Repr

namespace CommandOption

/-- The long form of an option. -/
def long : CommandOption → String
  | .keepArrays => "--no-array-rewrite"
  | .verbose => "--verbose"
  | .help => "--help"
  | .version => "--version"

/-- All options. -/
def all : List CommandOption :=
  [.keepArrays, .verbose, .help, .version]

/-- The option with a long form. -/
def ofLong? (text : String) : Option CommandOption :=
  all.find? (·.long == text)

/-- The option with a letter. -/
def ofLetter? : Char → Option CommandOption
  | 'v' => some .verbose
  | 'h' => some .help
  | 'V' => some .version
  | _ => none

end CommandOption

/-- What the arguments read so far say. -/
structure ArgumentState where
  path : Option String := none
  keepArrays : Bool := false
  verbose : Bool := false

namespace ArgumentState

/-- Take in an option. An option that settles the matter ends the reading. -/
def option (state : ArgumentState) (given : CommandOption) :
    Except (Except UsageError Command) ArgumentState :=
  match given with
  | .help => .error (.ok .help)
  | .version => .error (.ok .version)
  | .keepArrays =>
      if state.keepArrays then .error (.error (.repeated given.long))
      else .ok { state with keepArrays := true }
  | .verbose =>
      if state.verbose then .error (.error (.repeated given.long))
      else .ok { state with verbose := true }

/-- Take in the letters behind a dash. -/
def letters (state : ArgumentState) : List Char → Except (Except UsageError Command) ArgumentState
  | [] => .ok state
  | letter :: rest =>
      match CommandOption.ofLetter? letter with
      | none => .error (.error (.unexpected ("-" ++ String.singleton letter)))
      | some given =>
          match state.option given with
          | .error verdict => .error verdict
          | .ok state => state.letters rest

/-- Take in a path. -/
def positional (state : ArgumentState) (argument : String) :
    Except (Except UsageError Command) ArgumentState :=
  match state.path with
  | some _ => .error (.error (.unexpected argument))
  | none =>
      if argument = "" then .error (.error .emptyPath)
      else .ok { state with path := some argument }

/-- Take in an option in its long form, with or without a value. -/
def longOption (state : ArgumentState) (argument : String) :
    Except (Except UsageError Command) ArgumentState :=
  let name := String.ofList (argument.toList.takeWhile (· != '='))
  let value := argument.toList.dropWhile (· != '=')
  match CommandOption.ofLong? name, value with
  | none, _ => .error (.error (.unexpected name))
  | some given, [] => state.option given
  | some given, _ :: value => .error (.error (.unexpectedValue given.long (String.ofList value)))

/-- Take in an argument before `--`. -/
def argument (state : ArgumentState) (text : String) :
    Except (Except UsageError Command) ArgumentState :=
  match text.toList with
  | '-' :: '-' :: _ => state.longOption text
  | '-' :: letter :: rest => state.letters (letter :: rest)
  | _ => state.positional text

/-- What complete arguments ask for. -/
def finish (state : ArgumentState) : Except UsageError Command :=
  match state.path with
  | none => .error .missingPath
  | some path => .ok (.convert ⟨path, state.keepArrays, state.verbose⟩)

/-- Read the arguments after `--`. -/
def readPaths : ArgumentState → List String → Except UsageError Command
  | state, [] => state.finish
  | state, text :: rest =>
      match state.positional text with
      | .error verdict => verdict
      | .ok state => readPaths state rest

/-- Read arguments. -/
def read : ArgumentState → List String → Except UsageError Command
  | state, [] => state.finish
  | state, text :: rest =>
      if text = "--" then state.readPaths rest
      else
        match state.argument text with
        | .error verdict => verdict
        | .ok state => read state rest

end ArgumentState

/-- What arguments ask for. -/
def Command.parse (arguments : List String) : Except UsageError Command :=
  ArgumentState.read {} arguments

end ValueForm
