import LineSieve.Report

/-!
# The command line program

Reads the sources from the system, writes the outcome and ends with its status. What is written
and with which status is decided by the modules this one imports.
-/

namespace LineSieve

/-- How the program is used. -/
def usage : String :=
  "Usage: linesieve [OPTIONS] --extended-regexp <PATTERN> [FILE]...

Arguments:
  [FILE]...  Files to search (standard input if none, or for `-`)

Options:
  -E, --extended-regexp <PATTERN>  Pattern to match each line against
  -q, --quiet                      Print nothing, only set the exit status
  -v, --invert-match               Select lines that do not match
  -c, --count                      Print the number of selected lines for each input
      --debug                      Show the compiled pattern on the standard error stream
  -h, --help                       Print help
  -V, --version                    Print version
"

/-- The error of the operating system behind a failed operation. -/
def systemError : IO.Error → SystemError
  | .noFileOrDirectory _ code description
  | .alreadyExists _ code description
  | .invalidArgument _ code description
  | .permissionDenied _ code description
  | .resourceExhausted _ code description
  | .inappropriateType _ code description
  | .noSuchThing _ code description
  | .interrupted _ code description
  | .otherError code description
  | .resourceBusy code description
  | .resourceVanished code description
  | .unsupportedOperation code description
  | .hardwareFault code description
  | .unsatisfiedConstraints code description
  | .illegalOperation code description
  | .protocolError code description
  | .timeExpired code description => ⟨description, some code.toNat⟩
  | .unexpectedEof => ⟨"unexpected end of file", none⟩
  | .userError description => ⟨description, none⟩

/-- Reads the standard input to its end. -/
partial def readStdin (input : IO.FS.Stream) (read : ByteArray) : IO ByteArray := do
  let more ← input.read 65536
  if more.isEmpty then return read else readStdin input (read ++ more)

/-- The octets that an action reads, or why the source `name` could not be read. -/
def content (name : String) (action : IO ByteArray) : IO (Except Failure (List UInt8)) := do
  match ← action.toBaseIO with
  | .ok octets => return .ok octets.toList
  | .error e => return .error (.reading name (systemError e))

/-- Reads a source from the system. -/
def readFromSystem (name : String) : IO (Except Failure (List UInt8)) := do
  if name = "-" then content name (do readStdin (← IO.getStdin) .empty)
  else
    match ← (IO.FS.Handle.mk name .read).toBaseIO with
    | .ok handle => content name handle.readBinToEnd
    | .error e => return .error (.opening name (systemError e))

/-- Says why a command line does not lead to a search. -/
def UsageError.explain : UsageError → IO Unit
  | .helpRequested => IO.print usage
  | .versionRequested => IO.println "linesieve 1.0"
  | .unknownArgument argument => IO.eprintln s!"error: unexpected argument '{argument}' found"
  | .repeatedArgument argument =>
      IO.eprintln s!"error: the argument '{argument}' cannot be used multiple times"
  | .unexpectedValue argument => IO.eprintln s!"error: the argument '{argument}' takes no value"
  | .missingValue => IO.eprintln "error: a value is required for '--extended-regexp <PATTERN>'"
  | .missingPattern => IO.eprint s!"error: '--extended-regexp <PATTERN>' is required\n\n{usage}"

/-- Searches as the options ask and shows the outcome. -/
def runSearch (options : Options) : IO UInt32 := do
  let outcome := Outcome.ofSearch .plain options (← searchWith readFromSystem options)
  (← IO.getStderr).write outcome.stderr.toByteArray
  (← IO.getStdout).write outcome.stdout.toByteArray
  (← IO.getStdout).flush
  return outcome.status.toUInt32

end LineSieve

def main (arguments : List String) : IO UInt32 := do
  match LineSieve.Options.ofArguments arguments with
  | .error e =>
      e.explain
      return e.exitStatus.toUInt32
  | .ok options => LineSieve.runSearch options
