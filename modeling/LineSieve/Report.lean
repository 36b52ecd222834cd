import LineSieve.FileSystem
import LineSieve.Options
import LineSieve.Text.Quoted

/-!
# Searching the sources

The sources are searched in the order in which they are named. One that cannot be opened or read
is reported and the search goes on with the next. What is written of a source has its
name in front if there are several. A quiet search ends with the first source that has a line to
select.

`searchSources` leaves it open how a source is read. `search` reads from a file system and an
input given beforehand, so that it is a function; a program reads from the system that it runs on.

On the way to the first source there are a few events, and a log tells of them on the standard
error stream, in front of all complaints (`run`).
-/

namespace LineSieve

/-! ## Failures -/

/-- A source that could not be searched. -/
inductive Failure
  /-- It could not be opened. -/
  | opening (name : String) (cause : SystemError)
  /-- It was opened, but could not be read. -/
  | reading (name : String) (cause : SystemError)
  deriving DecidableEq

/-- The failure in words. -/
def Failure.message : Failure → String
  | .opening name cause => s!"failed to open {name}: {cause.message}"
  | .reading name cause => s!"failed to search {name}: {cause.message}"

/-- What is said of a pattern that does not compile. -/
def PatternError.describe (e : PatternError) (pattern : String) : String :=
  s!"invalid pattern {String.ofList (Text.quote pattern.toList)}: {e.message}"

/-! ## Reports -/

/-- The exit status of a finished search. A failed source makes it 2, unless the search was quiet
    and had already found a line. -/
def exitStatus (selected : Bool) (failed : Nat) (quiet : Bool) : Nat :=
  if selected && quiet then 0
  else if failed > 0 then 2
  else if selected then 0
  else 1

/-- What became of the sources. -/
structure Report where
  /-- What was written. -/
  output : List UInt8 := []
  /-- Whether a line was selected. -/
  selected : Bool := false
  /-- The sources that could not be searched, in order. -/
  failures : List Failure := []
  deriving DecidableEq

namespace Report

/-- The exit status of a search that ended with this report. -/
def exitStatus (r : Report) (quiet : Bool) : Nat :=
  LineSieve.exitStatus r.selected r.failures.length quiet

/-- A complaint as the standard error stream shows it. -/
def complaint (message : String) : List UInt8 :=
  Text.Utf8.encode (("error: ".toList ++ message.toList) ++ ['\n'])

/-- What the standard error stream shows of the failures. -/
def complaints (r : Report) : List UInt8 :=
  r.failures.flatMap fun failure => complaint failure.message

/-- Adds what became of one source, given its content or why there is none. -/
def add (r : Report) (p : Pattern) (mode : Selection.Mode) (label : Option String) :
    Except Failure (List UInt8) → Report
  | .error failure => { r with failures := r.failures ++ [failure] }
  | .ok content =>
      let selection := Selection.ofInput p mode label content
      { r with
        output := r.output ++ selection.output
        selected := r.selected || selection.selected > 0 }

end Report

/-! ## Searching -/

/-- The sources to search: the files named or, if there are none, the standard input. -/
def Options.sources (options : Options) : List String :=
  if options.files.isEmpty then ["-"] else options.files

/-- Searches sources one after the other, each read by `read`. -/
def searchSources {m : Type → Type} [Monad m]
    (read : String → m (Except Failure (List UInt8))) (p : Pattern) (mode : Selection.Mode)
    (labelled : Bool) : List String → Report → m Report
  | [], r => pure r
  | name :: rest, r => do
      let content ← read name
      let r := r.add p mode (if labelled then some name else none) content
      if mode.quiet && r.selected then pure r
      else searchSources read p mode labelled rest r

/-- Compiles the pattern and searches all sources, each read by `read`. -/
def searchWith {m : Type → Type} [Monad m]
    (read : String → m (Except Failure (List UInt8))) (options : Options) :
    m (Except PatternError Report) := do
  match Pattern.compile options.pattern.toList with
  | .error e => pure (.error e)
  | .ok p =>
      let sources := options.sources
      return .ok (← searchSources read p options.toMode (sources.length > 1) sources {})

/-- Reads a source from a file system. A lone hyphen names the standard input, which is the state:
    reading it uses it up. -/
def readSource (system : FileSystem) (name : String) :
    StateM (List UInt8) (Except Failure (List UInt8)) := do
  if name = "-" then return .ok (← getModify fun _ => [])
  match system.find name with
  | .error cause => return .error (.opening name cause)
  | .ok (.directory _) => return .error (.reading name .isADirectory)
  | .ok (.file content) => return .ok content

/-- Searches files and the standard input. -/
def search (options : Options) (system : FileSystem) (stdin : List UInt8) :
    Except PatternError Report :=
  ((searchWith (readSource system) options).run stdin).1

/-! ## The log -/

/-- How closely a reader has to look to be told of an event. -/
inductive Level
  | debug
  | trace
  deriving DecidableEq

/-- The level as a line of the log shows it. -/
def Level.name : Level → String
  | .debug => "DEBUG"
  | .trace => "TRACE"

/-- What happens on the way to the first source. -/
inductive Event
  /-- The alternatives of the pattern are undone, with so many candidates. -/
  | expanded (candidates : Nat)
  /-- The pattern is compiled. -/
  | compiled (p : Pattern)
  /-- The search of so many sources begins. -/
  | searching (sources : Nat)

namespace Event

/-- The level from which on the event is told. -/
def level : Event → Level
  | .expanded _ => .trace
  | .compiled _ | .searching _ => .debug

/-- The event in words. -/
def message : Event → String
  | .expanded candidates => s!"alternation expanded candidates={candidates}"
  | .compiled p =>
      let pattern := String.ofList (Text.quote p.source)
      let candidates := " | ".intercalate (p.candidates.map fun c => String.ofList c.render)
      s!"compiled pattern pattern={pattern} candidates={candidates}"
  | .searching sources => s!"searching inputs={sources}"

end Event

/-- The events of a run. Those behind the first need a pattern that compiles. -/
def Options.events (options : Options) : List Event :=
  .expanded (Candidate.ofPattern options.pattern.toList).length ::
    match Pattern.compile options.pattern.toList with
    | .error _ => []
    | .ok p => [.compiled p, .searching options.sources.length]

/-- What the surroundings of a program have to do with its log. -/
structure Logger where
  /-- Whether they ask for the event to be told. -/
  asked : Event → Bool
  /-- How the log tells of the event, with the time or whatever else belongs there. -/
  line : Event → List UInt8

namespace Logger

/-- What the log shows of some events. With the option to describe what is being done these are
    the ones that matter for that, whatever the surroundings ask for. -/
def log (logger : Logger) (debug : Bool) (events : List Event) : List UInt8 :=
  (events.filter fun event => if debug then event.level = .debug else logger.asked event).flatMap
    logger.line

/-- Surroundings that ask for nothing, and a line with no more in it than the event. -/
def plain : Logger where
  asked _ := false
  line event := Text.Utf8.encode s!"{event.level.name} {event.message}\n".toList

end Logger

/-! ## Running the program -/

/-- What a program run leaves behind. -/
structure Outcome where
  status : Nat
  stdout : List UInt8
  stderr : List UInt8
  deriving DecidableEq

/-- What a program shows for the end of a search: its log, and what became of the sources or why
    the pattern does not compile. -/
def Outcome.ofSearch (logger : Logger) (options : Options) :
    Except PatternError Report → Outcome
  | .error e =>
      ⟨2, [], logger.log options.debug options.events ++
        Report.complaint (e.describe options.pattern)⟩
  | .ok r =>
      ⟨r.exitStatus options.quiet, r.output,
        logger.log options.debug options.events ++ r.complaints⟩

/-- Runs the program on files and the standard input. -/
def run (logger : Logger) (options : Options) (system : FileSystem) (stdin : List UInt8) :
    Outcome :=
  .ofSearch logger options (search options system stdin)

end LineSieve
