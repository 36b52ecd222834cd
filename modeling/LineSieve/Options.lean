import LineSieve.Selection

/-!
# The command line

The arguments are read from left to right. An argument that begins with a hyphen holds options,
up to the argument `--`; all others name the files to search. The pattern is the value of the
option `E`, in the same argument or as the next one, whatever that looks like.

A value that stands in an argument of its own is *held* and only counts when the next option or
file takes effect. This decides which complaint comes first: an argument that is unknown, or has a
value it cannot take, is refused before a held value is looked at.
-/

namespace LineSieve

/-- The marks that can be set on a command line. -/
inductive Flag
  | quiet
  | invertMatch
  | count
  | debug
  deriving DecidableEq

/-- What a command line asks for. -/
structure Options extends Selection.Mode where
  /-- The pattern to search for. -/
  pattern : String
  /-- The files to search, in order. -/
  files : List String := []
  /-- Describe on the standard error stream what is being done. -/
  debug : Bool := false
  deriving DecidableEq

/-- Why a command line does not lead to a search. -/
inductive UsageError
  /-- It asks for an explanation of the options. -/
  | helpRequested
  /-- It asks for the version. -/
  | versionRequested
  /-- There is no such option. -/
  | unknownArgument (argument : String)
  /-- The option is given a second time. -/
  | repeatedArgument (argument : String)
  /-- The option takes no value, but has one. -/
  | unexpectedValue (argument : String)
  /-- The pattern option comes last, without a value. -/
  | missingValue
  /-- There is no pattern. -/
  | missingPattern
  deriving DecidableEq

/-- The exit status of a command line that does not lead to a search: asking for help or for the
    version is no mistake. -/
def UsageError.exitStatus : UsageError → Nat
  | .helpRequested | .versionRequested => 0
  | _ => 2

/-- What the name of an option stands for. -/
inductive Switch
  | pattern
  | flag (f : Flag)
  | help
  | version

/-- The options with a name in full. -/
def Switch.ofName? : String → Option Switch
  | "extended-regexp" => some .pattern
  | "quiet" => some (.flag .quiet)
  | "invert-match" => some (.flag .invertMatch)
  | "count" => some (.flag .count)
  | "debug" => some (.flag .debug)
  | "help" => some .help
  | "version" => some .version
  | _ => none

/-- The options with a letter. -/
def Switch.ofLetter? : Char → Option Switch
  | 'E' => some .pattern
  | 'q' => some (.flag .quiet)
  | 'v' => some (.flag .invertMatch)
  | 'c' => some (.flag .count)
  | 'h' => some .help
  | 'V' => some .version
  | _ => none

/-- How the next argument is to be taken. -/
inductive CommandLine.Mode
  /-- As options, if it begins with a hyphen. -/
  | options
  /-- As the pattern. -/
  | value
  /-- As a file. -/
  | files
  deriving DecidableEq

/-- What has been read of a command line. -/
structure CommandLine where
  /-- The pattern, once it counts. -/
  pattern : Option String := none
  /-- A pattern that does not count yet. -/
  held : Option String := none
  /-- The flags set. -/
  flags : List Flag := []
  /-- The files named, the latest first. -/
  files : List String := []
  mode : CommandLine.Mode := .options

namespace CommandLine

/-- Makes the pattern count. -/
def setPattern (l : CommandLine) (pattern : String) : Except UsageError CommandLine :=
  match l.pattern with
  | none => .ok { l with pattern := some pattern }
  | some _ => .error (.repeatedArgument "--extended-regexp")

/-- Makes a held pattern count. -/
def settle (l : CommandLine) : Except UsageError CommandLine :=
  match l.held with
  | none => .ok l
  | some pattern => { l with held := none }.setPattern pattern

/-- Sets a flag. -/
def setFlag (l : CommandLine) (f : Flag) (argument : String) : Except UsageError CommandLine :=
  if f ∈ l.flags then .error (.repeatedArgument argument) else .ok { l with flags := f :: l.flags }

/-- Takes an option, with its value if that stands in the same argument. -/
def useSwitch (l : CommandLine) (argument : String) :
    Switch → Option String → Except UsageError CommandLine
  | .pattern, none => do return { ← l.settle with mode := .value }
  | .pattern, some value => do (← l.settle).setPattern value
  | .flag f, none => do (← l.settle).setFlag f argument
  | .help, none => do let _ ← l.settle; throw .helpRequested
  | .version, none => do let _ ← l.settle; throw .versionRequested
  | _, some _ => .error (.unexpectedValue argument)

/-- Takes an argument that begins with two hyphens, `body` being what follows them: the name of
    an option, and behind an equals sign its value. -/
def useName (l : CommandLine) (body : List Char) : Except UsageError CommandLine :=
  let name := String.ofList (body.takeWhile (· != '='))
  match Switch.ofName? name with
  | none => .error (.unknownArgument name)
  | some switch =>
      l.useSwitch name switch <|
        match body.dropWhile (· != '=') with
        | [] => none
        | _ :: value => some (String.ofList value)

/-- The value that follows the letter of the pattern option in the same argument, if anything
    does; an equals sign between them is left out. -/
def valueBehindLetter : List Char → Option String
  | [] => none
  | '=' :: value => some (String.ofList value)
  | value => some (String.ofList value)

/-- Takes the letters of an argument that begins with one hyphen. -/
def useLetters (l : CommandLine) : List Char → Except UsageError CommandLine
  | [] => .ok l
  | c :: rest =>
      match Switch.ofLetter? c with
      | none => .error (.unknownArgument c.toString)
      | some .pattern => l.useSwitch c.toString .pattern (valueBehindLetter rest)
      | some switch => do (← l.useSwitch c.toString switch none).useLetters rest

/-- Takes an argument that names a file. -/
def useFile (l : CommandLine) (name : String) : Except UsageError CommandLine := do
  let l ← l.settle
  return { l with files := name :: l.files }

/-- Takes the next argument. -/
def step (l : CommandLine) (argument : String) : Except UsageError CommandLine :=
  match l.mode with
  | .value => .ok { l with held := some argument, mode := .options }
  | .files => l.useFile argument
  | .options =>
      match argument.toList with
      | ['-', '-'] => .ok { l with mode := .files }
      | '-' :: '-' :: body => l.useName body
      | '-' :: c :: rest => l.useLetters (c :: rest)
      | _ => l.useFile argument

/-- What the command line asked for, once it has ended. -/
def finish (l : CommandLine) : Except UsageError Options := do
  if l.mode = .value then throw .missingValue
  let l ← l.settle
  match l.pattern with
  | none => throw .missingPattern
  | some pattern =>
      return {
        pattern
        files := l.files.reverse
        quiet := .quiet ∈ l.flags
        invert := .invertMatch ∈ l.flags
        count := .count ∈ l.flags
        debug := .debug ∈ l.flags }

end CommandLine

/-- Reads a command line, the name of the program left out. -/
def Options.ofArguments (arguments : List String) : Except UsageError Options := do
  (← arguments.foldlM CommandLine.step {}).finish

end LineSieve
