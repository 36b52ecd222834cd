import LineSieve.Report
import Mathlib.Tactic.Common

/-!
# Searching source by source

A search threads the standard input, the report and the decision to stop through a list of sources.
What comes of it can be said without any of these, from what each source holds:

* **`FileSystem.sources`**: what a search finds in the sources if it reads them all. Only the first
  hyphen has anything to read.
* **`visited`**: the sources that it gets to. A quiet search ends with the first in which it selects
  a line.
* **`Report.ofSources`**: the report on sources, put together from their selections and failures.

**`run_searchSources`** says that a search is just this, by induction on the sources with one step
of the search for each (`run_searchSources_cons`). It holds for any reader that reads what the files
and the standard input hold (`Reads`), so also for one that notes down which sources it is asked for
(`readNoting`): these are the sources that the report is about.
-/

namespace LineSieve

/-! ## What there is to search -/

/-- A source and what a search finds when it reads it. -/
structure Source where
  name : String
  content : Except Failure (List UInt8)

namespace Source

/-- Why the source could not be searched. -/
def failure? (s : Source) : Option Failure :=
  match s.content with
  | .ok _ => none
  | .error failure => some failure

/-- What is selected in the source, if it could be searched. -/
def selection? (p : Pattern) (mode : Selection.Mode) (labelled : Bool) (s : Source) :
    Option Selection :=
  match s.content with
  | .ok input => some (.ofInput p mode (if labelled then some s.name else none) input)
  | .error _ => none

/-- Whether a line of the source is selected. -/
def selects (p : Pattern) (mode : Selection.Mode) (s : Source) : Bool :=
  match s.content with
  | .ok input => 0 < (Selection.ofInput p mode none input).selected
  | .error _ => false

end Source

/-- What is left of the standard input behind some sources: the first hyphen uses it up. -/
def leftOver (stdin : List UInt8) (names : List String) : List UInt8 :=
  if "-" ∈ names then [] else stdin

namespace FileSystem

/-- What there is to read under a name, or why there is nothing. -/
def contentOf (system : FileSystem) (name : String) : Except Failure (List UInt8) :=
  match system.find name with
  | .error cause => .error (.opening name cause)
  | .ok (.directory _) => .error (.reading name .isADirectory)
  | .ok (.file content) => .ok content

/-- What a search finds in one source, with this to read from the standard input. -/
def source (system : FileSystem) (stdin : List UInt8) (name : String) : Source :=
  ⟨name, if name = "-" then .ok stdin else system.contentOf name⟩

/-- What a search finds in the sources if it reads all of them in order. -/
def sources (system : FileSystem) (stdin : List UInt8) (names : List String) : List Source :=
  names.mapIdx fun i name => system.source (leftOver stdin (names.take i)) name

/-- Why a source cannot be searched, if it cannot. The standard input always can. -/
def failure? (system : FileSystem) (name : String) : Option Failure :=
  (system.source [] name).failure?

end FileSystem

/-- The sources that a search gets to: a quiet one goes no further than the first in which it
    selects a line. -/
def visited (p : Pattern) (mode : Selection.Mode) (sources : List Source) : List Source :=
  if mode.quiet then sources.take (sources.findIdx (·.selects p mode) + 1) else sources

/-- The report on sources that are searched one by one. -/
def Report.ofSources (p : Pattern) (mode : Selection.Mode) (labelled : Bool)
    (sources : List Source) : Report where
  output := (sources.filterMap (·.selection? p mode labelled)).flatMap (·.output)
  selected := sources.any (·.selects p mode)
  failures := sources.filterMap (·.failure?)

/-- One report after the other. -/
instance : Append Report where
  append r s := ⟨r.output ++ s.output, r.selected || s.selected, r.failures ++ s.failures⟩

/-- Reads a source from a file system and notes down its name. -/
def readNoting (system : FileSystem) (name : String) :
    StateM (List String × List UInt8) (Except Failure (List UInt8)) := do
  let (names, stdin) ← get
  let (content, stdin) := (readSource system name).run stdin
  set (names ++ [name], stdin)
  return content

/-! ## Reading the sources -/

theorem leftOver_append (stdin : List UInt8) (front behind : List String) :
    leftOver stdin (front ++ behind) = leftOver (leftOver stdin front) behind := by
  simp only [leftOver, List.mem_append]
  grind

/-- Only the hyphen reads the standard input. -/
theorem leftOver_of_ne {name : String} (h : name ≠ "-") (stdin : List UInt8) :
    leftOver stdin [name] = stdin :=
  if_neg fun hmem => h (List.mem_singleton.mp hmem).symm

namespace FileSystem

variable (system : FileSystem) (stdin : List UInt8)

/-- Behind other sources there is only what they leave of the standard input. -/
theorem sources_append (front behind : List String) :
    system.sources stdin (front ++ behind) =
      system.sources stdin front ++ system.sources (leftOver stdin front) behind := by
  rw [sources, List.mapIdx_append]
  congr 1
  · refine List.mapIdx_eq_mapIdx_iff.mpr fun i hi => ?_
    rw [List.take_append_of_le_length (Nat.le_of_lt hi)]
  · refine List.mapIdx_eq_mapIdx_iff.mpr fun i hi => ?_
    rw [Nat.add_comm i, List.take_length_add_append, leftOver_append]

theorem sources_cons (name : String) (names : List String) :
    system.sources stdin (name :: names) =
      system.source stdin name :: system.sources (leftOver stdin [name]) names :=
  system.sources_append stdin [name] names

theorem map_name_sources (names : List String) :
    (system.sources stdin names).map Source.name = names := by
  induction names generalizing stdin with
  | nil => rfl
  | cons name names ih =>
      rw [sources_cons, List.map_cons, ih]
      rfl

theorem sources_take (names : List String) (k : Nat) :
    system.sources stdin (names.take k) = (system.sources stdin names).take k := by
  induction names generalizing stdin k with
  | nil => rw [List.take_nil, sources, List.mapIdx_nil, List.take_nil]
  | cons name names ih =>
      cases k with
      | zero => rfl
      | succ k => rw [List.take_succ_cons, sources_cons, sources_cons, List.take_succ_cons, ih]

/-- Whether a source can be searched does not depend on the standard input. -/
theorem failure?_source (name : String) :
    (system.source stdin name).failure? = system.failure? name := by
  by_cases hname : name = "-"
  · simp only [failure?, source, Source.failure?, if_pos hname]
  · simp only [failure?, source, Source.failure?, if_neg hname]

theorem filterMap_failure?_sources (names : List String) :
    (system.sources stdin names).filterMap Source.failure? = names.filterMap system.failure? := by
  induction names generalizing stdin with
  | nil => rfl
  | cons name names ih =>
      rw [sources_cons, List.filterMap_cons, List.filterMap_cons, failure?_source, ih]

end FileSystem

/-- The reader finds what the file system and the standard input have for each source; `after` is
    its state when some sources have been read. -/
def Reads {σ : Type} (system : FileSystem) (stdin : List UInt8)
    (read : String → StateM σ (Except Failure (List UInt8))) (after : List String → σ) : Prop :=
  ∀ front name, (read name).run (after front) =
    ((system.source (leftOver stdin front) name).content, after (front ++ [name]))

theorem reads_readSource (system : FileSystem) (stdin : List UInt8) :
    Reads system stdin (readSource system) (leftOver stdin) := by
  intro front name
  rw [leftOver_append, FileSystem.source]
  by_cases hname : name = "-"
  · subst hname
    rfl
  · rw [readSource, if_neg hname, if_neg hname, leftOver_of_ne hname, FileSystem.contentOf]
    rcases system.find name with cause | (content | entries) <;> rfl

theorem reads_readNoting (system : FileSystem) (stdin : List UInt8) :
    Reads system stdin (readNoting system) fun front => (front, leftOver stdin front) := by
  intro front name
  have hread := reads_readSource system stdin front name
  show (((readSource system name).run (leftOver stdin front)).1, (front ++ [name],
    ((readSource system name).run (leftOver stdin front)).2)) = _
  rw [hread]

/-! ## The sources that a search gets to -/

section

variable {p : Pattern} {mode : Selection.Mode}

theorem visited_nil : visited p mode [] = [] :=
  ite_self []

theorem visited_of_loud (h : mode.quiet = false) (sources : List Source) :
    visited p mode sources = sources :=
  if_neg (Bool.eq_false_iff.mp h)

theorem visited_of_quiet (h : mode.quiet = true) (sources : List Source) :
    visited p mode sources = sources.take (sources.findIdx (·.selects p mode) + 1) :=
  if_pos h

/-- A quiet search stops behind a source in which it selects a line. -/
theorem visited_cons (s : Source) (sources : List Source) :
    visited p mode (s :: sources) =
      s :: if mode.quiet && s.selects p mode then [] else visited p mode sources := by
  unfold visited
  cases mode.quiet with
  | false => rfl
  | true =>
      rw [if_pos rfl, if_pos rfl, List.findIdx_cons, List.take_succ_cons, Bool.true_and]
      cases s.selects p mode <;> rfl

/-- A search that selects nothing in the first sources, or is not quiet, gets to the rest. -/
theorem visited_append (front behind : List Source) :
    visited p mode (front ++ behind) =
      if mode.quiet && front.any (·.selects p mode) then visited p mode front
      else front ++ visited p mode behind := by
  induction front with
  | nil =>
      rw [List.any_nil, Bool.and_false]
      rfl
  | cons s front ih =>
      rw [List.cons_append, visited_cons, visited_cons, ih, List.any_cons, Bool.and_or_distrib_left]
      cases mode.quiet && s.selects p mode with
      | true => rfl
      | false =>
          rw [Bool.false_or]
          cases mode.quiet && front.any (·.selects p mode) <;> rfl

theorem visited_eq_self {sources : List Source}
    (h : (mode.quiet && sources.any (·.selects p mode)) = false) :
    visited p mode sources = sources := by
  have happend : visited p mode (sources ++ []) = _ := visited_append sources []
  rw [h, if_neg Bool.false_ne_true, visited_nil, List.append_nil] at happend
  exact happend

/-- A search gets to a source in which it selects a line if there is one. -/
theorem any_visited (sources : List Source) :
    (visited p mode sources).any (·.selects p mode) = sources.any (·.selects p mode) := by
  induction sources with
  | nil => rw [visited_nil]
  | cons s sources ih =>
      rw [visited_cons, List.any_cons, List.any_cons]
      cases s.selects p mode with
      | true => rw [Bool.true_or, Bool.true_or]
      | false => rw [Bool.and_false, if_neg Bool.false_ne_true, ih]

end

/-! ## Reports -/

section

variable (p : Pattern) (mode : Selection.Mode) (labelled : Bool)

namespace Report

theorem append_def (r s : Report) :
    r ++ s = ⟨r.output ++ s.output, r.selected || s.selected, r.failures ++ s.failures⟩ := rfl

theorem append_empty (r : Report) : r ++ {} = r := by
  rw [append_def, List.append_nil, List.append_nil, Bool.or_false]

theorem append_assoc (r s t : Report) : r ++ s ++ t = r ++ (s ++ t) := by
  simp only [append_def, List.append_assoc, Bool.or_assoc]

theorem ofSources_nil : ofSources p mode labelled [] = {} := rfl

theorem ofSources_append (front behind : List Source) :
    ofSources p mode labelled (front ++ behind) =
      ofSources p mode labelled front ++ ofSources p mode labelled behind := by
  simp only [ofSources, append_def, List.filterMap_append, List.flatMap_append, List.any_append]

theorem ofSources_cons (s : Source) (sources : List Source) :
    ofSources p mode labelled (s :: sources) =
      ofSources p mode labelled [s] ++ ofSources p mode labelled sources :=
  ofSources_append p mode labelled [s] sources

/-- A source that could not be searched adds its failure. -/
theorem ofSources_failed (name : String) (failure : Failure) :
    ofSources p mode labelled [⟨name, .error failure⟩] = ⟨[], false, [failure]⟩ := rfl

/-- A source that could be searched adds its selection. -/
theorem ofSources_searched (name : String) (input : List UInt8) :
    ofSources p mode labelled [⟨name, .ok input⟩] =
      let selection := Selection.ofInput p mode (if labelled then some name else none) input
      ⟨selection.output, 0 < selection.selected, []⟩ := by
  simp only [ofSources, Source.selection?, Source.selects, Source.failure?, List.filterMap_cons,
    List.filterMap_nil, List.flatMap_singleton, List.any_cons, List.any_nil, Bool.or_false]
  rfl

/-- Adding what became of a source is adding the report on it. -/
theorem add_eq_append (r : Report) (s : Source) :
    r.add p mode (if labelled then some s.name else none) s.content =
      r ++ ofSources p mode labelled [s] := by
  obtain ⟨name, failure | input⟩ := s
  · rw [ofSources_failed, append_def, List.append_nil, Bool.or_false]
    rfl
  · rw [ofSources_searched, append_def, List.append_nil]
    rfl

end Report

/-! ## The search -/

/-- One step of a search. -/
theorem run_searchSources_cons {σ : Type} {read : String → StateM σ (Except Failure (List UInt8))}
    {s : Source} {state next : σ} (h : (read s.name).run state = (s.content, next))
    (names : List String) (r : Report) :
    (searchSources read p mode labelled (s.name :: names) r).run state =
      if mode.quiet && (r ++ .ofSources p mode labelled [s]).selected then
        (r ++ .ofSources p mode labelled [s], next)
      else
        (searchSources read p mode labelled names
          (r ++ .ofSources p mode labelled [s])).run next := by
  rw [searchSources, StateT.run_bind, h]
  show StateT.run (if mode.quiet && Report.selected (Report.add r p mode _ s.content) then
    pure (Report.add r p mode _ s.content) else _) next = _
  rw [Report.add_eq_append]
  by_cases hstop : (mode.quiet && (r ++ .ofSources p mode labelled [s]).selected) = true
  · rw [if_pos hstop, if_pos hstop]
    rfl
  · rw [if_neg hstop, if_neg hstop]

/-- **A search adds the report on the sources that it gets to**, which are those that it reads. -/
theorem run_searchSources {σ : Type} {system : FileSystem} {stdin : List UInt8}
    {read : String → StateM σ (Except Failure (List UInt8))} {after : List String → σ}
    (hread : Reads system stdin read after) (front names : List String) (r : Report)
    (hr : (mode.quiet && r.selected) = false) :
    let found := visited p mode (system.sources (leftOver stdin front) names)
    (searchSources read p mode labelled names r).run (after front) =
      (r ++ .ofSources p mode labelled found, after (front ++ found.map Source.name)) := by
  induction names generalizing r front with
  | nil =>
      have hnone : system.sources (leftOver stdin front) [] = [] := rfl
      dsimp only
      rw [hnone, visited_nil, Report.ofSources_nil, Report.append_empty, List.map_nil,
        List.append_nil]
      rfl
  | cons name names ih =>
      obtain ⟨s, rfl, hfirst, hsources⟩ : ∃ s : Source, s.name = name ∧
          (read s.name).run (after front) = (s.content, after (front ++ [s.name])) ∧
          system.sources (leftOver stdin front) (name :: names) =
            s :: system.sources (leftOver stdin (front ++ [s.name])) names := by
        refine ⟨system.source (leftOver stdin front) name, rfl, hread front name, ?_⟩
        rw [FileSystem.sources_cons, ← leftOver_append]
        rfl
      -- a quiet search that is still going has selected nothing so far
      have hselected : (mode.quiet && (r ++ .ofSources p mode labelled [s]).selected) =
          (mode.quiet && s.selects p mode) := by
        show (mode.quiet && (r.selected || (s.selects p mode || false))) = _
        rw [Bool.or_false, Bool.and_or_distrib_left, hr, Bool.false_or]
      dsimp only
      rw [run_searchSources_cons p mode labelled hfirst, hselected, hsources, visited_cons]
      by_cases hstop : (mode.quiet && s.selects p mode) = true
      · rw [if_pos hstop, if_pos hstop, List.map_singleton]
      · have hgo : (mode.quiet && (r ++ .ofSources p mode labelled [s]).selected) = false := by
          rw [hselected]
          exact Bool.eq_false_iff.mpr hstop
        rw [if_neg hstop, if_neg hstop, ih _ _ hgo,
          Report.ofSources_cons p mode labelled s (visited ..), Report.append_assoc,
          List.map_cons, List.append_assoc, List.singleton_append]

end

/-- A hyphen stands in for the files if there are none. -/
theorem Options.sources_eq (options : Options) :
    options.sources = if options.files = [] then ["-"] else options.files := by
  rw [sources]
  cases options.files <;> rfl

theorem Options.sources_of_files {options : Options} (h : options.files ≠ []) :
    options.sources = options.files := by
  rw [sources_eq, if_neg h]

/-- **A search with a pattern that compiles**, by any reader of the file system. -/
theorem run_searchWith {σ : Type} {system : FileSystem} {stdin : List UInt8}
    {read : String → StateM σ (Except Failure (List UInt8))} {after : List String → σ}
    (hread : Reads system stdin read after) {options : Options} {p : Pattern}
    (hp : Pattern.compile options.pattern.toList = .ok p) :
    let found := visited p options.toMode (system.sources stdin options.sources)
    (searchWith read options).run (after []) =
      (.ok (.ofSources p options.toMode (1 < options.sources.length) found),
        after (found.map Source.name)) := by
  have hsearch := run_searchSources p options.toMode (1 < options.sources.length) hread []
    options.sources {} (Bool.and_false _)
  rw [searchWith, hp]
  show Prod.map Except.ok id ((searchSources read p options.toMode (1 < options.sources.length)
    options.sources {}).run (after [])) = _
  rw [hsearch]
  rfl

theorem search_of_error {options : Options} (system : FileSystem) (stdin : List UInt8)
    {e : PatternError} (h : Pattern.compile options.pattern.toList = .error e) :
    search options system stdin = .error e := by
  rw [search, searchWith, h]
  rfl

/-- **The report of a search is the one on the sources that it gets to.** -/
theorem search_of_compile {options : Options} (system : FileSystem) (stdin : List UInt8)
    {p : Pattern} (hp : Pattern.compile options.pattern.toList = .ok p) :
    search options system stdin =
      .ok (.ofSources p options.toMode (1 < options.sources.length)
        (visited p options.toMode (system.sources stdin options.sources))) :=
  congrArg Prod.fst (run_searchWith (reads_readSource system stdin) hp)

end LineSieve
