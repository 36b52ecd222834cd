import LineSieve.Proofs.Searching.Sources
import LineSieve.Proofs.Text.Encoding

/-!
# A search is composed of its sources

What a search writes, which failures it reports and whether it selects a line is what its sources
give one by one, in their order. A source that fails adds a complaint and nothing else.

A complaint has the name of its source in it as it is. So it is a line if the name is one, and a
name of several lines makes a complaint of as many. In front of the complaints stands the log, if
anybody asks for it.

* **`searchNoting_of_compile`**: a search reads the sources that it gets to, and no others.
* **`search_insert`**: one more source that fails adds its failure, at its place, to what was
  reported before; a quiet search may not get to it.
* **`count_newline_complaints`**: the lines of the complaints, counted exactly.
* **`search_is_composed`**: all of this about one search.
-/

namespace LineSieve

open Text (newline)

/-! ## What a search does -/

/-- A search that notes down the sources that it reads: what comes of it, these sources, and what
    is left of the standard input. -/
def searchNoting (options : Options) (system : FileSystem) (stdin : List UInt8) :
    Except PatternError Report × List String × List UInt8 :=
  (searchWith (readNoting system) options).run ([], stdin)

section

variable {options : Options} (system : FileSystem) (stdin : List UInt8)

/-- With a pattern that does not compile nothing is read. -/
theorem searchNoting_of_error {e : PatternError}
    (h : Pattern.compile options.pattern.toList = .error e) :
    searchNoting options system stdin = (.error e, [], stdin) := by
  rw [searchNoting, searchWith, h]
  rfl

variable {p : Pattern} (hp : Pattern.compile options.pattern.toList = .ok p)
include hp

/-- **The sources that a search gets to are those that it reads.** -/
theorem searchNoting_of_compile :
    searchNoting options system stdin =
      let found := (visited p options.toMode (system.sources stdin options.sources)).map Source.name
      (search options system stdin, found, leftOver stdin found) := by
  rw [search_of_compile system stdin hp]
  exact run_searchWith (reads_readNoting system stdin) hp

/-- A search that is not quiet reads every source. -/
theorem searchNoting_of_loud (hloud : options.quiet = false) :
    searchNoting options system stdin =
      (.ok (.ofSources p options.toMode (1 < options.sources.length)
        (system.sources stdin options.sources)), options.sources,
        leftOver stdin options.sources) := by
  have hvisited : visited p options.toMode _ = _ :=
    visited_of_loud hloud (system.sources stdin options.sources)
  rw [searchNoting_of_compile system stdin hp, search_of_compile system stdin hp, hvisited,
    FileSystem.map_name_sources]

/-- A quiet search reads the sources up to the first in which it selects a line. -/
theorem searchNoting_of_quiet (hquiet : options.quiet = true) :
    let names := options.sources.take
      ((system.sources stdin options.sources).findIdx (·.selects p options.toMode) + 1)
    searchNoting options system stdin =
      (.ok (.ofSources p options.toMode (1 < options.sources.length) (system.sources stdin names)),
        names, leftOver stdin names) := by
  intro names
  have hvisited : visited p options.toMode _ = _ :=
    visited_of_quiet hquiet (system.sources stdin options.sources)
  rw [searchNoting_of_compile system stdin hp, search_of_compile system stdin hp, hvisited,
    List.map_take, FileSystem.map_name_sources, ← FileSystem.sources_take]

end

/-! ## Quiet searches -/

/-- A quiet search writes nothing, not even a number of lines. -/
theorem Report.output_ofSources_of_quiet {p : Pattern} {mode : Selection.Mode}
    (h : mode.quiet = true) (labelled : Bool) (sources : List Source) :
    (ofSources p mode labelled sources).output = [] := by
  refine List.flatMap_eq_nil_iff.mpr fun selection hmem => ?_
  obtain ⟨⟨name, failure | input⟩, -, hselection⟩ := List.mem_filterMap.mp hmem
  · exact nomatch hselection
  · obtain rfl := Option.some.inj hselection
    exact if_pos h

/-! ## One more source that fails -/

section

variable {p : Pattern} {mode : Selection.Mode} {labelled : Bool}

/-- A source that fails adds its failure to what is reported of the others. -/
theorem Report.ofSources_insert (front behind : List Source) (name : String) (failure : Failure) :
    ofSources p mode labelled (front ++ ⟨name, .error failure⟩ :: behind) =
      { ofSources p mode labelled (front ++ behind) with
        failures := front.filterMap (·.failure?) ++ failure :: behind.filterMap (·.failure?) } := by
  rw [ofSources_append, ofSources_cons, ofSources_failed, ofSources_append]
  rfl

end

namespace FileSystem

variable {system : FileSystem} {name : String} {failure : Failure}

theorem contentOf_of_failure? (h : system.failure? name = some failure) :
    name ≠ "-" ∧ system.contentOf name = .error failure := by
  have hname : name ≠ "-" := by
    rintro rfl
    exact absurd h.symm (Option.some_ne_none failure)
  refine ⟨hname, ?_⟩
  rw [failure?, source, if_neg hname, Source.failure?] at h
  cases hcontent : system.contentOf name with
  | ok input =>
      rw [hcontent] at h
      exact absurd h.symm (Option.some_ne_none failure)
  | error found =>
      rw [hcontent] at h
      exact congrArg _ (Option.some.inj h)

/-- A source that fails is found so at any place, and leaves the others what they have. -/
theorem sources_insert (h : system.failure? name = some failure) (stdin : List UInt8)
    (front behind : List String) :
    system.sources stdin (front ++ name :: behind) =
      system.sources stdin front ++
        ⟨name, .error failure⟩ :: system.sources (leftOver stdin front) behind := by
  obtain ⟨hname, hcontent⟩ := contentOf_of_failure? h
  rw [sources_append, sources_cons, leftOver_of_ne hname, source, if_neg hname, hcontent]

end FileSystem

/-- **One more source that fails** adds its failure to those of the others, at its place, and
    changes nothing else. A quiet search that stops before it gets there is not changed at all. -/
theorem search_insert {options : Options} {system : FileSystem} {stdin : List UInt8} {p : Pattern}
    (hp : Pattern.compile options.pattern.toList = .ok p) {front behind : List String}
    (hfiles : options.files = front ++ behind) (hmany : 2 ≤ options.files.length) {name : String}
    {failure : Failure} (hfailure : system.failure? name = some failure) :
    let more := { options with files := front ++ name :: behind }
    let stops := options.quiet && (system.sources stdin front).any (·.selects p options.toMode)
    (stops = true → search more system stdin = search options system stdin) ∧
    (stops = false → ∃ (r : Report) (after : List Failure),
      search options system stdin =
        .ok { r with failures := front.filterMap system.failure? ++ after } ∧
      search more system stdin =
        .ok { r with failures := front.filterMap system.failure? ++ failure :: after } ∧
      (options.quiet = false → after = behind.filterMap system.failure?)) := by
  intro more stops
  have hlength : 2 ≤ (front ++ name :: behind).length := by
    rw [hfiles, List.length_append] at hmany
    rw [List.length_append, List.length_cons]
    omega
  have hsources : options.sources = front ++ behind := by
    rw [Options.sources_of_files (List.ne_nil_of_length_pos (by omega)), hfiles]
  have hmore : more.sources = front ++ name :: behind :=
    Options.sources_of_files (List.ne_nil_of_length_pos (Nat.lt_of_lt_of_le Nat.two_pos hlength))
  -- both searches have more than one source, so what they write is labelled in both
  have hlabelled : decide (1 < options.sources.length) = true :=
    decide_eq_true (by rw [hsources, ← hfiles]; exact hmany)
  have hlabelledMore : decide (1 < more.sources.length) = true :=
    decide_eq_true (by rw [hmore]; exact hlength)
  have hsearch := search_of_compile system stdin hp
  have hsearchMore : search more system stdin = _ := search_of_compile system stdin hp
  rw [hlabelled, hsources, FileSystem.sources_append, visited_append] at hsearch
  rw [hlabelledMore, hmore, FileSystem.sources_insert hfailure, visited_append] at hsearchMore
  refine ⟨fun hstop => ?_, fun hgo => ?_⟩
  · rw [if_pos hstop] at hsearch hsearchMore
    rw [hsearch, hsearchMore]
  · rw [if_neg (Bool.eq_false_iff.mp hgo)] at hsearch hsearchMore
    have hfront := system.filterMap_failure?_sources stdin front
    rw [visited_cons, show Source.selects p more.toMode ⟨name, .error failure⟩ = false from rfl,
      Bool.and_false, if_neg Bool.false_ne_true, Report.ofSources_insert, hfront] at hsearchMore
    refine ⟨_, _, hsearch.trans ?_, hsearchMore, fun hloud => ?_⟩
    · rw [← hfront, ← List.filterMap_append]
      rfl
    · rw [visited, if_neg (by rw [hloud]; decide), FileSystem.filterMap_failure?_sources]

/-! ## Complaints and their lines -/

namespace SystemError

/-- The errors that following a name and reading what it leads to give rise to. -/
def ofFiles : List SystemError := [notFound, notADirectory, isADirectory, nameTooLong, nulInName]

theorem newline_notMem_message : ∀ cause ∈ ofFiles, '\n' ∉ cause.message.toList := by
  decide +kernel

end SystemError

theorem FileTree.cause_mem_of_walk {path : List String} {above : List FileTree} {here : FileTree}
    {cause : SystemError} (h : walk path above here = .error cause) :
    cause ∈ SystemError.ofFiles := by
  fun_induction walk path above here with
  | case1 => exact nomatch h
  | case2 => exact Except.error.inj h ▸ by decide
  | case3 _ _ _ _ _ ih => exact ih h
  | case4 _ _ _ _ ih => exact ih h
  | case5 => exact Except.error.inj h ▸ by decide
  | case6 => exact Except.error.inj h ▸ by decide
  | case7 _ _ _ _ _ _ _ _ _ ih => exact ih h

namespace FileSystem

variable {system : FileSystem} {name : String} {failure : Failure}

theorem cause_mem_of_find {cause : SystemError} (h : system.find name = .error cause) :
    cause ∈ SystemError.ofFiles := by
  unfold find at h
  split at h
  next => exact Except.error.inj h ▸ by decide
  next =>
    split at h
    next => exact Except.error.inj h ▸ by decide
    next =>
      split at h
      next => exact Except.error.inj h ▸ by decide
      next => exact FileTree.cause_mem_of_walk h
      next => exact FileTree.cause_mem_of_walk h

/-- The failure of a source names the source and one of these errors. -/
theorem exists_cause_of_contentOf (h : system.contentOf name = .error failure) :
    ∃ cause ∈ SystemError.ofFiles,
      failure = .opening name cause ∨ failure = .reading name cause := by
  unfold contentOf at h
  split at h
  next cause hfind => exact ⟨cause, cause_mem_of_find hfind, .inl (Except.error.inj h).symm⟩
  next => exact ⟨.isADirectory, by decide, .inr (Except.error.inj h).symm⟩
  next => exact nomatch h

/-- Of the words of a failure only the name of the source may go over several lines. -/
theorem count_newline_message (h : system.failure? name = some failure) :
    failure.message.toList.count '\n' = name.toList.count '\n' := by
  have hwords {before cause : String} (hbefore : '\n' ∉ before.toList)
      (hcause : '\n' ∉ cause.toList) :
      (before ++ name ++ ": " ++ cause).toList.count '\n' = name.toList.count '\n' := by
    rw [String.toList_append, String.toList_append, String.toList_append, List.count_append,
      List.count_append, List.count_append, List.count_eq_zero_of_not_mem hbefore,
      List.count_eq_zero_of_not_mem hcause, Nat.zero_add]
    rfl
  obtain ⟨cause, hmem, rfl | rfl⟩ := exists_cause_of_contentOf (contentOf_of_failure? h).2
  · exact hwords (by decide) (SystemError.newline_notMem_message cause hmem)
  · exact hwords (by decide) (SystemError.newline_notMem_message cause hmem)

/-- **A complaint about a source ends with a newline**, and the others in it are those in the name
    of the source. -/
theorem exists_complaint_eq (h : system.failure? name = some failure) :
    ∃ text, Report.complaint failure.message = text ++ [newline] ∧
      text.count newline = name.toList.count '\n' := by
  refine ⟨Text.Utf8.encode ("error: ".toList ++ failure.message.toList),
    Text.Utf8.encode_append _ _, ?_⟩
  rw [Text.Utf8.count_newline_encode, List.count_append, count_newline_message h]
  exact Nat.zero_add _

/-- **The lines of all complaints**: one for each source that fails, and one more for each newline
    in its name. -/
theorem count_newline_complaints (names : List String) :
    ((names.filterMap system.failure?).flatMap fun failure =>
      Report.complaint failure.message).count newline =
        names.countP (fun name => (system.failure? name).isSome) +
          ((names.filter fun name => (system.failure? name).isSome).flatMap
            String.toList).count '\n' := by
  induction names with
  | nil => rfl
  | cons name names ih =>
      rw [List.filterMap_cons, List.filter_cons, List.countP_cons]
      cases hfailure : system.failure? name with
      | none => exact ih
      | some failure =>
          obtain ⟨text, hcomplaint, htext⟩ := exists_complaint_eq hfailure
          have hline : (Report.complaint failure.message).count newline =
              name.toList.count '\n' + 1 := by
            rw [hcomplaint, List.count_append, htext]
            rfl
          rw [List.flatMap_cons, List.count_append, hline, ih, Option.isSome_some, if_pos rfl,
            if_pos rfl, List.flatMap_cons, List.count_append]
          omega

end FileSystem

/-! ## The log -/

namespace Logger

variable (logger : Logger) {options : Options}

/-- Without the option for it there is a log only if the surroundings ask for one. -/
theorem log_of_unasked (hdebug : options.debug = false) (h : ∀ event, logger.asked event = false) :
    logger.log options.debug options.events = [] := by
  have hnone : (options.events.filter fun event =>
      if false then event.level = .debug else logger.asked event) = [] :=
    List.filter_eq_nil_iff.mpr fun event _ => Bool.eq_false_iff.mp (h event)
  rw [hdebug, log, hnone, List.flatMap_nil]

/-- With the option for it the log tells of the compiled pattern and of the number of sources. -/
theorem log_of_debug {p : Pattern} (hp : Pattern.compile options.pattern.toList = .ok p)
    (hdebug : options.debug = true) :
    logger.log options.debug options.events =
      logger.line (.compiled p) ++ logger.line (.searching options.sources.length) := by
  rw [hdebug, Options.events, hp]
  show logger.line (.compiled p) ++ (logger.line (.searching options.sources.length) ++ []) = _
  rw [List.append_nil]

/-- It tells of nothing that comes before, such as that the alternatives are undone. -/
theorem log_of_debug_error {e : PatternError}
    (h : Pattern.compile options.pattern.toList = .error e) (hdebug : options.debug = true) :
    logger.log options.debug options.events = [] := by
  rw [hdebug, Options.events, h]
  rfl

end Logger

/-! ## One search -/

section

variable (logger : Logger) {options : Options} (system : FileSystem) (stdin : List UInt8)

/-- The complaints of a search that read these sources. -/
theorem complaints_ofSources (p : Pattern) (mode : Selection.Mode) (labelled : Bool)
    (names : List String) :
    (Report.ofSources p mode labelled (system.sources stdin names)).complaints =
      (names.filterMap system.failure?).flatMap fun failure =>
        Report.complaint failure.message := by
  rw [← system.filterMap_failure?_sources stdin]
  rfl

/-- A pattern that does not compile is all that is complained of. -/
theorem run_of_error {e : PatternError} (h : Pattern.compile options.pattern.toList = .error e) :
    run logger options system stdin =
      ⟨2, [], logger.log options.debug options.events ++
        Report.complaint (e.describe options.pattern)⟩ := by
  rw [run, search_of_error system stdin h]
  rfl

variable {p : Pattern} (hp : Pattern.compile options.pattern.toList = .ok p)
include hp

/-- What a run shows is the report on the sources that it gets to, behind the log. -/
theorem run_of_compile :
    let r := Report.ofSources p options.toMode (1 < options.sources.length)
      (visited p options.toMode (system.sources stdin options.sources))
    run logger options system stdin =
      ⟨r.exitStatus options.quiet, r.output,
        logger.log options.debug options.events ++ r.complaints⟩ := by
  rw [run, search_of_compile system stdin hp]
  rfl

end

/-- **A search is composed of its sources.**

    With a pattern that does not compile nothing is read and nothing written but a complaint of the
    pattern. Otherwise a search that is not quiet reads every source, once and in order: the files
    that are named or, without any, the standard input. It writes what is selected in each, labelled
    if there are several, and complains of each that fails, in as many lines as its name has; it has
    selected a line if one is selected in some source. A quiet search writes nothing, and it reads
    the sources up to the first in which it selects a line. One more source that fails, among two or
    more, changes nothing but that its failure comes in at its place, if the search gets there. In
    front of the complaints is the log, which is empty unless somebody asks for it. -/
theorem search_is_composed (logger : Logger) (options : Options) (system : FileSystem)
    (stdin : List UInt8) :
    let sources := system.sources stdin options.sources
    let outcome := run logger options system stdin
    let log := logger.log options.debug options.events
    let complaints := fun names => (names.filterMap system.failure?).flatMap
      fun failure => Report.complaint failure.message
    (options.sources = if options.files = [] then ["-"] else options.files) ∧
    (options.debug = false → (∀ event, logger.asked event = false) → log = []) ∧
    (∀ name failure, system.failure? name = some failure →
      ∃ text, Report.complaint failure.message = text ++ [newline] ∧
        text.count newline = name.toList.count '\n') ∧
    (∀ e, Pattern.compile options.pattern.toList = .error e →
      searchNoting options system stdin = (.error e, [], stdin) ∧
      search options system stdin = .error e ∧ outcome.stdout = [] ∧
      outcome.stderr = log ++ Report.complaint (e.describe options.pattern) ∧
      (options.debug = true → log = [])) ∧
    ∀ p, Pattern.compile options.pattern.toList = .ok p →
      (options.debug = true → log =
        logger.line (.compiled p) ++ logger.line (.searching options.sources.length)) ∧
      (options.quiet = false →
        outcome.stdout = (sources.filterMap
          (·.selection? p options.toMode (1 < options.sources.length))).flatMap (·.output) ∧
        outcome.stderr = log ++ complaints options.sources ∧
        (complaints options.sources).count newline =
          options.sources.countP (fun name => (system.failure? name).isSome) +
            ((options.sources.filter fun name => (system.failure? name).isSome).flatMap
              String.toList).count '\n' ∧
        ∃ r, search options system stdin = .ok r ∧
          r.failures = options.sources.filterMap system.failure? ∧
          r.failures.length = options.sources.countP (fun name => (system.failure? name).isSome) ∧
          (r.selected = true ↔ ∃ s ∈ sources, s.selects p options.toMode = true) ∧
          searchNoting options system stdin =
            (.ok r, options.sources, leftOver stdin options.sources)) ∧
      (options.quiet = true →
        let visited := options.sources.take (sources.findIdx (·.selects p options.toMode) + 1)
        outcome.stdout = [] ∧ outcome.stderr = log ++ complaints visited ∧
        ∃ r, search options system stdin = .ok r ∧
          r.failures = visited.filterMap system.failure? ∧
          (r.selected = true ↔ ∃ s ∈ sources, s.selects p options.toMode = true) ∧
          searchNoting options system stdin = (.ok r, visited, leftOver stdin visited)) ∧
      ∀ front behind name failure, options.files = front ++ behind → 2 ≤ options.files.length →
        system.failure? name = some failure →
        let more := { options with files := front ++ name :: behind }
        let stops := options.quiet &&
          (system.sources stdin front).any (·.selects p options.toMode)
        (stops = true → search more system stdin = search options system stdin) ∧
        (stops = false → ∃ (r : Report) (after : List Failure),
          search options system stdin =
            .ok { r with failures := front.filterMap system.failure? ++ after } ∧
          search more system stdin =
            .ok { r with failures := front.filterMap system.failure? ++ failure :: after } ∧
          (options.quiet = false → after = behind.filterMap system.failure?)) := by
  intro sources outcome log complaints
  refine ⟨options.sources_eq, logger.log_of_unasked,
    fun name failure => FileSystem.exists_complaint_eq, fun e he => ?_,
    fun p hp => ⟨logger.log_of_debug hp, fun hloud => ?_, fun hquiet => ?_, ?_⟩⟩
  · have hrun : outcome = _ := run_of_error logger system stdin he
    exact ⟨searchNoting_of_error system stdin he, search_of_error system stdin he,
      congrArg Outcome.stdout hrun, congrArg Outcome.stderr hrun, logger.log_of_debug_error he⟩
  · have hrun : outcome = _ := run_of_compile logger system stdin hp
    have hsearch := search_of_compile system stdin hp
    rw [visited_of_loud hloud] at hrun hsearch
    have hfailures := system.filterMap_failure?_sources stdin options.sources
    refine ⟨congrArg Outcome.stdout hrun, ?_, FileSystem.count_newline_complaints _, _, hsearch,
      hfailures, ?_, List.any_eq_true, searchNoting_of_loud system stdin hp hloud⟩
    · rw [hrun, complaints_ofSources]
    · exact (congrArg List.length hfailures).trans List.length_filterMap_eq_countP
  · have hrun : outcome = _ := run_of_compile logger system stdin hp
    have hsearch := search_of_compile system stdin hp
    rw [visited_of_quiet hquiet, ← FileSystem.sources_take] at hrun hsearch
    refine ⟨?_, ?_, _, hsearch, system.filterMap_failure?_sources stdin _, ?_,
      searchNoting_of_quiet system stdin hp hquiet⟩
    · rw [hrun]
      exact Report.output_ofSources_of_quiet hquiet _ _
    · rw [hrun, complaints_ofSources]
    · rw [← List.any_eq_true, ← any_visited, visited_of_quiet hquiet, ← FileSystem.sources_take]
      rfl
  · intro front behind name failure hfiles hmany hfailure
    exact search_insert hp hfiles hmany hfailure

/-- Looks for `a` in a file, which is named in two ways, and then on the standard input. -/
def fileAndStdin : Options := { pattern := "a", files := ["x", "../home/x", "-"] }

/-- The working directory has this file, of two lines, in it. -/
def twoLines : FileSystem where
  root := [("home", .directory [("x", .file (Text.Utf8.encode "ab\ncd\n".toList))])]
  workingDirectory := ["home"]

/-- A name that leads to nothing comes in before the standard input. -/
def withMissing : Options := { fileAndStdin with files := ["x", "../home/x", "/y", "-"] }

/-- Looks for `a` on the standard input, and describes what is being done. -/
def described : Options := { pattern := "a", debug := true }

/-- With `ba` on the standard input a line of each is written. The name that leads to nothing adds
    a failure and a complaint of one line. A quiet search leaves the standard input alone, and the
    missing name, too; one for `[` leaves the file alone as well. Without any file the line comes
    from the standard input, with no label, and the log is there for the asking. -/
theorem search_fileAndStdin :
    Pattern.compile "a".toList = .ok ⟨"a".toList, [[.one (.literal 'a')]]⟩ ∧
    Pattern.compile "[".toList = .error (.malformed (.unclosedGroup 0)) ∧
    twoLines.failure? "/y" = some (.opening "/y" .notFound) ∧
    (run .plain fileAndStdin twoLines [98, 97]).stdout =
      Text.Utf8.encode "x:ab\n../home/x:ab\n-:ba\n".toList ∧
    (∃ r, search fileAndStdin twoLines [98, 97] = .ok r ∧
      search withMissing twoLines [98, 97] =
        .ok { r with failures := [.opening "/y" .notFound] }) ∧
    (run .plain withMissing twoLines [98, 97]).stderr = Text.Utf8.encode
      "error: failed to open /y: No such file or directory (os error 2)\n".toList ∧
    (searchNoting { fileAndStdin with quiet := true } twoLines [98, 97]).2 = (["x"], [98, 97]) ∧
    search { withMissing with quiet := true } twoLines [98, 97] =
      search { fileAndStdin with quiet := true } twoLines [98, 97] ∧
    searchNoting { fileAndStdin with pattern := "[" } twoLines [98, 97] =
      (.error (.malformed (.unclosedGroup 0)), [], [98, 97]) ∧
    (run .plain described twoLines [98, 97]).stdout = [98, 97, newline] ∧
    (run .plain described twoLines [98, 97]).stderr = Text.Utf8.encode
      "DEBUG compiled pattern pattern=\"a\" candidates=a\nDEBUG searching inputs=1\n".toList := by
  have hp : Pattern.compile "a".toList = .ok ⟨"a".toList, [[.one (.literal 'a')]]⟩ := by cbv
  have he : Pattern.compile "[".toList = .error (.malformed (.unclosedGroup 0)) := by cbv
  have hfailure : twoLines.failure? "/y" = some (.opening "/y" .notFound) := by decide +kernel
  obtain ⟨-, hloud, -, hinsert⟩ :=
    (search_is_composed .plain fileAndStdin twoLines [98, 97]).2.2.2.2 _ hp
  obtain ⟨-, hsilent, -, -, hcompiled⟩ := search_is_composed .plain withMissing twoLines [98, 97]
  obtain ⟨-, hmissing, -, -⟩ := hcompiled _ hp
  obtain ⟨-, -, hquiet, hspared⟩ := (search_is_composed .plain { fileAndStdin with quiet := true }
    twoLines [98, 97]).2.2.2.2 _ hp
  obtain ⟨-, -, -, hmalformed, -⟩ :=
    search_is_composed .plain { fileAndStdin with pattern := "[" } twoLines [98, 97]
  obtain ⟨hdebug, hstdin, -, -⟩ :=
    (search_is_composed .plain described twoLines [98, 97]).2.2.2.2 _ hp
  obtain ⟨r, after, hsearch, hmore, hafter⟩ :=
    (hinsert ["x", "../home/x"] ["-"] "/y" _ rfl (by decide) hfailure).2 rfl
  refine ⟨hp, he, hfailure, (hloud rfl).1.trans ?_, ⟨_, hsearch, ?_⟩,
    (hmissing rfl).2.1.trans ?_, ?_, (hspared ["x", "../home/x"] ["-"] "/y" _ rfl (by decide)
      hfailure).1 ?_, (hmalformed _ he).1, (hstdin rfl).1.trans ?_, (hstdin rfl).2.1.trans ?_⟩
  · decide +kernel
  · rw [hafter rfl] at hmore
    exact hmore
  · rw [hsilent rfl fun _ => rfl]
    decide +kernel
  · obtain ⟨-, -, r, -, -, -, hnoting⟩ := hquiet rfl
    refine (congrArg Prod.snd hnoting).trans ?_
    dsimp only
    decide +kernel
  · decide +kernel
  · decide +kernel
  · rw [hdebug rfl]
    decide +kernel

/-- Looks for `a` in a file with a name of two lines. -/
def nameOfTwoLines : Options := { pattern := "a", files := ["x\ny"] }

/-- **A complaint is not always a line, and a line not always a complaint.** If the name of a source
    that fails has two lines, so has the one complaint; and with the option to describe what is
    being done there are two lines for a search in which nothing fails. -/
theorem stderr_nameOfTwoLines :
    nameOfTwoLines.quiet = false ∧
    (∃ r, search nameOfTwoLines twoLines [] = .ok r ∧
      r.failures = [.opening "x\ny" .notFound]) ∧
    (run .plain nameOfTwoLines twoLines []).stderr.count newline = 2 ∧
    (∃ r, search described twoLines [] = .ok r ∧ r.failures = []) ∧
    (run .plain described twoLines []).stderr.count newline = 2 := by
  have hp : Pattern.compile "a".toList = .ok ⟨"a".toList, [[.one (.literal 'a')]]⟩ := by cbv
  have hsilent : Logger.plain.log nameOfTwoLines.debug nameOfTwoLines.events = [] :=
    Logger.plain.log_of_unasked rfl fun _ => rfl
  have hlog : Logger.plain.log described.debug described.events = _ :=
    Logger.plain.log_of_debug hp rfl
  have hrun : run .plain nameOfTwoLines twoLines [] = _ := run_of_compile .plain twoLines [] hp
  have hdescribed : run .plain described twoLines [] = _ := run_of_compile .plain twoLines [] hp
  refine ⟨rfl, ⟨_, search_of_compile twoLines [] hp, ?_⟩, ?_,
    ⟨_, search_of_compile twoLines [] hp, ?_⟩, ?_⟩
  · decide +kernel
  · rw [hrun, hsilent]
    decide +kernel
  · decide +kernel
  · rw [hdescribed, hlog]
    decide +kernel

end LineSieve
