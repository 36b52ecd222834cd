import LineSieve.Proofs.Searching.Sources
import LineSieve.Proofs.Selecting.Filtering

/-!
# The exit status of a search

The status of a search is that of its sources, each searched alone with the whole standard input.
A failure is worst, unless the search is quiet: then a selected line settles it. This needs two
observations. A quiet search may stop before a source that fails, but only when the status is
settled; and a second hyphen has nothing to read, but the first has decided for it.

* **`any_selects_sources`**: a line is selected in some source, as the search finds them, exactly
  if one is selected in some source alone.
* **`exitStatus_ofSources_visited`**: the sources that a quiet search does not get to are of no
  account.
* **`status_composes`**: the status of several sources, told from the status of each.
-/

namespace LineSieve

/-- The exit status of the program. -/
def status (logger : Logger) (options : Options) (system : FileSystem) (stdin : List UInt8) : Nat :=
  (run logger options system stdin).status

/-! ## Whether a line is selected -/

namespace Source

variable {p : Pattern} {mode : Selection.Mode}

theorem selects_congr {mode' : Selection.Mode} (hinvert : mode.invert = mode'.invert)
    (hquiet : mode.quiet = mode'.quiet) (s : Source) : s.selects p mode = s.selects p mode' := by
  obtain ⟨name, failure | input⟩ := s
  · rfl
  · show decide (0 < (Selection.gather p mode input []).length) = _
    rw [Selection.gather_congr hinvert hquiet]
    rfl

/-- There is no line to select in an empty input. -/
theorem selects_empty (name : String) : selects p mode ⟨name, .ok []⟩ = false := by
  show decide (0 < (Selection.gather p mode [] []).length) = false
  rw [Selection.gather_of_none rfl]
  rfl

/-- A source that fails has no line to select. -/
theorem selects_of_failure? {s : Source} {failure : Failure} (h : s.failure? = some failure) :
    s.selects p mode = false := by
  obtain ⟨name, cause | input⟩ := s
  · rfl
  · exact nomatch h

end Source

/-! ## One source and all of them -/

section

variable (p : Pattern) (mode : Selection.Mode) (system : FileSystem) (stdin : List UInt8)

/-- Where the hyphen has no line to select, it does not matter that it can be read only once. -/
theorem selects_source_leftOver {name : String}
    (h : (system.source stdin name).selects p mode = false) (other : String) :
    (system.source (leftOver stdin [name]) other).selects p mode =
      (system.source stdin other).selects p mode := by
  by_cases hname : name = "-"
  · subst hname
    by_cases hother : other = "-"
    · subst hother
      rw [h]
      exact Source.selects_empty "-"
    · rw [FileSystem.source, FileSystem.source, if_neg hother, if_neg hother]
  · rw [leftOver_of_ne hname]

/-- **A line is selected in some source exactly if one is selected in some source alone.** -/
theorem any_selects_sources (names : List String) :
    (system.sources stdin names).any (·.selects p mode) =
      names.any fun name => (system.source stdin name).selects p mode := by
  induction names generalizing stdin with
  | nil => rfl
  | cons name names ih =>
      rw [FileSystem.sources_cons, List.any_cons, List.any_cons, ih]
      cases hname : (system.source stdin name).selects p mode with
      | true => rw [Bool.true_or, Bool.true_or]
      | false =>
          rw [funext fun other => selects_source_leftOver p mode system stdin hname other]

/-- **The sources that a quiet search does not get to are of no account** for the exit status,
    and neither are labels. -/
theorem exitStatus_ofSources_visited (labelled : Bool) (names : List String) :
    (Report.ofSources p mode labelled (visited p mode (system.sources stdin names))).exitStatus
        mode.quiet =
      exitStatus (names.any fun name => (system.source stdin name).selects p mode)
        (names.filterMap system.failure?).length mode.quiet := by
  have hselected : (Report.ofSources p mode labelled
      (visited p mode (system.sources stdin names))).selected =
        names.any fun name => (system.source stdin name).selects p mode :=
    (any_visited _).trans (any_selects_sources p mode system stdin names)
  rw [Report.exitStatus, hselected]
  by_cases hstop : (mode.quiet && names.any fun name =>
      (system.source stdin name).selects p mode) = true
  · -- the selected line settles the status, whatever fails
    obtain ⟨hquiet, hany⟩ := Bool.and_eq_true_iff.mp hstop
    rw [hany, hquiet]
    rfl
  · rw [← any_selects_sources] at hstop
    rw [visited_eq_self (Bool.eq_false_iff.mpr hstop), ← system.filterMap_failure?_sources stdin]
    rfl

end

/-! ## The status of one source and of several -/

section

variable (logger : Logger) {options : Options} {p : Pattern} (system : FileSystem)
  (stdin : List UInt8)

theorem status_of_compile (hp : Pattern.compile options.pattern.toList = .ok p) :
    status logger options system stdin =
      exitStatus
        (options.sources.any fun name => (system.source stdin name).selects p options.toMode)
        (options.sources.filterMap system.failure?).length options.quiet := by
  rw [status, run, search_of_compile system stdin hp]
  exact exitStatus_ofSources_visited p options.toMode system stdin _ options.sources

variable (hp : Pattern.compile options.pattern.toList = .ok p)
include hp

/-- The status of one source alone. -/
theorem status_alone (name : String) :
    status logger { options with files := [name] } system stdin =
      if (system.failure? name).isSome then 2
      else if (system.source stdin name).selects p options.toMode then 0 else 1 := by
  have halone : status logger { options with files := [name] } system stdin =
      exitStatus ((system.source stdin name).selects p options.toMode || false)
        ([name].filterMap system.failure?).length options.quiet :=
    status_of_compile logger system stdin hp
  rw [halone, Bool.or_false, List.filterMap_cons]
  cases hfailure : system.failure? name with
  | none =>
      cases (system.source stdin name).selects p options.toMode with
      | true => exact ite_self 0
      | false => rfl
  | some failure =>
      rw [Source.selects_of_failure? ((system.failure?_source stdin name).trans hfailure)]
      rfl

theorem status_alone_eq_two (name : String) :
    status logger { options with files := [name] } system stdin = 2 ↔
      (system.failure? name).isSome = true := by
  rw [status_alone logger system stdin hp]
  split_ifs with hfailure hselects
  · exact iff_of_true rfl hfailure
  · exact iff_of_false (by decide) hfailure
  · exact iff_of_false (by decide) hfailure

theorem status_alone_eq_zero (name : String) :
    status logger { options with files := [name] } system stdin = 0 ↔
      (system.source stdin name).selects p options.toMode = true := by
  rw [status_alone logger system stdin hp]
  split_ifs with hfailure hselects
  · obtain ⟨failure, hfailure⟩ := Option.isSome_iff_exists.mp hfailure
    rw [Source.selects_of_failure? ((system.failure?_source stdin name).trans hfailure)]
    decide
  · exact iff_of_true rfl hselects
  · exact iff_of_false (by decide) hselects

/-- The worst decides: a failure, then a selected line; for a quiet search a selected line comes
    first. -/
theorem status_of_alone (hne : options.files ≠ []) :
    let alone name := status logger { options with files := [name] } system stdin
    status logger options system stdin =
      if options.quiet then
        if ∃ name ∈ options.files, alone name = 0 then 0
        else if ∃ name ∈ options.files, alone name = 2 then 2 else 1
      else
        if ∃ name ∈ options.files, alone name = 2 then 2
        else if ∃ name ∈ options.files, alone name = 0 then 0 else 1 := by
  intro alone
  have hselects : (∃ name ∈ options.files, alone name = 0) ↔
      (options.files.any fun name =>
        (system.source stdin name).selects p options.toMode) = true := by
    rw [List.any_eq_true]
    exact exists_congr fun name => and_congr_right fun _ =>
      status_alone_eq_zero logger system stdin hp name
  have hfails : (∃ name ∈ options.files, alone name = 2) ↔
      0 < (options.files.filterMap system.failure?).length := by
    rw [List.length_filterMap_eq_countP, List.countP_pos_iff]
    exact exists_congr fun name => and_congr_right fun _ =>
      status_alone_eq_two logger system stdin hp name
  simp only [hselects, hfails]
  rw [status_of_compile logger system stdin hp, Options.sources_of_files hne, exitStatus]
  -- with both answers known the two sides look at the same conditions in the same order
  cases options.quiet with
  | true =>
      cases options.files.any fun name =>
        (system.source stdin name).selects p options.toMode <;> rfl
  | false =>
      rw [Bool.and_false]
      rfl

end

/-- **The status of several sources is composed of the status of each alone**, with the whole
    standard input: this is 2 for one that fails, and else tells whether a line is selected in it.
    So the order of the sources does not matter, nor whether one is named several times, nor what is
    written of the lines and whether it is labelled. -/
theorem status_composes (logger : Logger) {options : Options} {p : Pattern} (system : FileSystem)
    (stdin : List UInt8) (hp : Pattern.compile options.pattern.toList = .ok p)
    (hne : options.files ≠ []) :
    let alone name := status logger { options with files := [name] } system stdin
    (∀ name, alone name =
      if (system.failure? name).isSome then 2
      else if (system.source stdin name).selects p options.toMode then 0 else 1) ∧
    (status logger options system stdin =
      if options.quiet then
        if ∃ name ∈ options.files, alone name = 0 then 0
        else if ∃ name ∈ options.files, alone name = 2 then 2 else 1
      else
        if ∃ name ∈ options.files, alone name = 2 then 2
        else if ∃ name ∈ options.files, alone name = 0 then 0 else 1) ∧
    (∀ files, (∀ name, name ∈ files ↔ name ∈ options.files) →
      status logger { options with files } system stdin = status logger options system stdin) ∧
    (∀ count, status logger { options with count } system stdin =
      status logger options system stdin) ∧
    ∀ labelled,
      ((searchSources (readSource system) p options.toMode labelled options.files {}).run
        stdin).1.exitStatus options.quiet = status logger options system stdin := by
  intro alone
  have hstatus := status_of_alone logger system stdin hp hne
  refine ⟨status_alone logger system stdin hp, hstatus, fun files hfiles => ?_, fun count => ?_,
    fun labelled => ?_⟩
  · obtain ⟨name, hname⟩ := List.exists_mem_of_ne_nil _ hne
    have hother : status logger { options with files } system stdin = _ :=
      status_of_alone logger system stdin hp (List.ne_nil_of_mem ((hfiles name).mpr hname))
    rw [hother, hstatus]
    simp only [hfiles]
  · have hselects (s : Source) :
        s.selects p { options.toMode with count } = s.selects p options.toMode := by
      apply Source.selects_congr
      · rfl
      · rfl
    have hcount : status logger { options with count } system stdin = _ :=
      status_of_compile logger system stdin hp
    rw [hcount, status_of_compile logger system stdin hp]
    simp only [hselects]
    rfl
  · have hrun := run_searchSources p options.toMode labelled (reads_readSource system stdin) []
      options.files {} (Bool.and_false _)
    rw [status_of_compile logger system stdin hp, Options.sources_of_files hne,
      ← exitStatus_ofSources_visited p options.toMode system stdin labelled]
    exact congrArg (fun found => found.1.exitStatus options.quiet) hrun

/-- Looks for `a` in two files. -/
def twoFiles : Options := { pattern := "a", files := ["/home/x", "y"] }

/-- A system with one of them, which has a line to select. The program works beside it. -/
def oneThere : FileSystem where
  root := [("home", .directory [("x", .file (Text.Utf8.encode "ab\n".toList))]),
    ("tmp", .directory [])]
  workingDirectory := ["tmp"]

/-- The file that is not there makes the status 2, in whatever order and number the two are named,
    and the other one alone has 0; a quiet search has its line. -/
theorem status_twoFiles :
    Pattern.compile "a".toList = .ok ⟨"a".toList, [[.one (.literal 'a')]]⟩ ∧
    twoFiles.files ≠ [] ∧
    status .plain twoFiles oneThere [] = 2 ∧
    status .plain { twoFiles with files := ["/home/x"] } oneThere [] = 0 ∧
    status .plain { twoFiles with files := ["y", "/home/x", "y"] } oneThere [] = 2 ∧
    status .plain { twoFiles with quiet := true } oneThere [] = 0 := by
  have hp : Pattern.compile "a".toList = .ok ⟨"a".toList, [[.one (.literal 'a')]]⟩ := by cbv
  obtain ⟨halone, hloud, hfiles, -⟩ :=
    @status_composes .plain twoFiles _ oneThere [] hp (List.cons_ne_nil _ _)
  obtain ⟨-, hquiet, -⟩ :=
    @status_composes .plain { twoFiles with quiet := true } _ oneThere [] hp (List.cons_ne_nil _ _)
  have htwo : status .plain twoFiles oneThere [] = 2 := hloud.trans (by decide +kernel)
  refine ⟨hp, List.cons_ne_nil _ _, htwo, (halone "/home/x").trans (by decide +kernel),
    (hfiles _ fun name => ?_).trans htwo, hquiet.trans (by decide +kernel)⟩
  show name ∈ ["y", "/home/x", "y"] ↔ name ∈ ["/home/x", "y"]
  simp only [List.mem_cons, List.not_mem_nil, or_false]
  tauto

end LineSieve
