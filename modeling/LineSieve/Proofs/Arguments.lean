import LineSieve.Options
import Mathlib.Data.List.Forall2

/-!
# What a command line says

A command line is made of parts: flags, the pattern and files, each written in one argument or
two. Whatever the order of the parts and their spelling, reading the arguments finds again what
was written. The value of the pattern option may be anything at all, also what would be an option
or `--` in another place, because the option takes the next argument without looking at it. Files
are taken for options if they begin with a hyphen, unless `--` has come before them.

What has been read shows in the reader only once a held pattern counts. So the invariant of a run
is what the reader *says*, which is what it is when it settles.

* **`step_of_mem_spellings`**, **`Says.pattern`**, **`Says.file`**: what one part adds.
* **`Says.run`**: what any number of parts add, by induction on the parts.
* **`ofArguments_of_written`**: so a command line says its parts, with more files behind a `--`.
* **`ofArguments_finds_written`**: the two forms of a command line.
-/

namespace LineSieve

/-- The ways to write a flag. -/
def Flag.spellings : Flag → List String
  | .quiet => ["-q", "--quiet"]
  | .invertMatch => ["-v", "--invert-match"]
  | .count => ["-c", "--count"]
  | .debug => ["--debug"]

/-- What a command line with this pattern, these flags and these files asks for. -/
def Options.asking (pattern : String) (flags : List Flag) (files : List String) : Options where
  pattern := pattern
  files := files
  quiet := .quiet ∈ flags
  invert := .invertMatch ∈ flags
  count := .count ∈ flags
  debug := .debug ∈ flags

namespace CommandLine

/-- One thing that a command line says. -/
inductive Part
  | flag (f : Flag)
  | pattern (pattern : String)
  | file (name : String)

/-- The ways to write the pattern. -/
inductive WritesPattern (pattern : String) : List String → Prop where
  | letter : WritesPattern pattern ["-E", pattern]
  | name : WritesPattern pattern ["--extended-regexp", pattern]
  | attached : WritesPattern pattern ["--extended-regexp=" ++ pattern]

/-- The ways to write a part. A file can stand by itself if it is `-` or does not begin with a
    hyphen. -/
inductive Part.Writes : Part → List String → Prop where
  | flag {f : Flag} {argument : String} (h : argument ∈ f.spellings) : Writes (.flag f) [argument]
  | pattern {pattern : String} {arguments : List String} (h : WritesPattern pattern arguments) :
      Writes (.pattern pattern) arguments
  | file {name : String} (h : name = "-" ∨ name.toList.head? ≠ some '-') :
      Writes (.file name) [name]

/-- The ways to write parts one after the other. -/
inductive Written : List Part → List String → Prop where
  | nil : Written [] []
  | cons {part : Part} {parts : List Part} {front behind : List String}
      (hpart : part.Writes front) (hparts : Written parts behind) :
      Written (part :: parts) (front ++ behind)

/-! ## What the parts say -/

def flagsOf (parts : List Part) : List Flag :=
  parts.filterMap fun part => match part with
    | .flag f => some f
    | _ => none

def patternsOf (parts : List Part) : List String :=
  parts.filterMap fun part => match part with
    | .pattern pattern => some pattern
    | _ => none

def filesOf (parts : List Part) : List String :=
  parts.filterMap fun part => match part with
    | .file name => some name
    | _ => none

/-- What a reader says: the pattern that counts or is held, and the flags and the files, the latest
    first. -/
inductive Says : CommandLine → Option String → List Flag → List String → Mode → Prop where
  | settled {given : Option String} {flags : List Flag} {files : List String} {mode : Mode} :
      Says ⟨given, none, flags, files, mode⟩ given flags files mode
  | held {pattern : String} {flags : List Flag} {files : List String} {mode : Mode} :
      Says ⟨none, some pattern, flags, files, mode⟩ (some pattern) flags files mode

variable {l : CommandLine} {given : Option String} {flags : List Flag} {files : List String}
  {mode : Mode}

/-- A reader that settles goes on saying the same. -/
theorem Says.settle_eq (h : l.Says given flags files mode) :
    l.settle = .ok ⟨given, none, flags, files, mode⟩ := by
  cases h with
  | settled => rfl
  | held => rfl

theorem Says.mode_eq (h : l.Says given flags files mode) : l.mode = mode := by
  cases h with
  | settled => rfl
  | held => rfl

theorem Says.withMode (h : l.Says given flags files mode) (mode' : Mode) :
    Says { l with mode := mode' } given flags files mode' := by
  cases h with
  | settled => exact .settled
  | held => exact .held

/-! ## One part -/

/-- Every spelling of a flag sets it. -/
theorem step_of_mem_spellings {f : Flag} {argument : String} (hmode : l.mode = .options)
    (h : argument ∈ f.spellings) :
    ∃ name, l.step argument = l.settle >>= fun l => l.setFlag f name := by
  rw [step, hmode]
  cases f with
  | quiet =>
      rcases List.mem_pair.mp h with rfl | rfl
      · exact ⟨"q", bind_pure _⟩
      · exact ⟨"quiet", rfl⟩
  | invertMatch =>
      rcases List.mem_pair.mp h with rfl | rfl
      · exact ⟨"v", bind_pure _⟩
      · exact ⟨"invert-match", rfl⟩
  | count =>
      rcases List.mem_pair.mp h with rfl | rfl
      · exact ⟨"c", bind_pure _⟩
      · exact ⟨"count", rfl⟩
  | debug =>
      obtain rfl := List.mem_singleton.mp h
      exact ⟨"debug", rfl⟩

/-- A flag that has not been set is set. -/
theorem Says.flag {f : Flag} {argument : String} (hl : l.Says given flags files .options)
    (h : argument ∈ f.spellings) (hnew : f ∉ flags) :
    ∃ l', l.step argument = .ok l' ∧ l'.Says given (f :: flags) files .options := by
  obtain ⟨name, hstep⟩ := step_of_mem_spellings hl.mode_eq h
  refine ⟨⟨given, none, f :: flags, files, .options⟩, ?_, .settled⟩
  rw [hstep, hl.settle_eq]
  show setFlag _ f name = _
  rw [setFlag, if_neg hnew]

/-- An option in full, with its value behind an equals sign, has all that follows for its value. -/
theorem step_attached (hmode : l.mode = .options) (pattern : String) :
    l.step ("--extended-regexp=" ++ pattern) = l.settle >>= fun l => l.setPattern pattern := by
  have hchars : ("--extended-regexp=" ++ pattern).toList =
      "--extended-regexp=".toList ++ pattern.toList := String.toList_append
  have hvalue : String.ofList pattern.toList = pattern := String.ofList_toList
  rw [step, hmode, hchars]
  show _ = l.settle >>= fun l => l.setPattern pattern
  conv => rhs; rw [← hvalue]
  rfl

/-- **The pattern is taken as it is**, whatever it looks like. -/
theorem Says.pattern {pattern : String} {arguments : List String}
    (hl : l.Says none flags files .options) (h : WritesPattern pattern arguments) :
    ∃ l', arguments.foldlM step l = .ok l' ∧ l'.Says (some pattern) flags files .options := by
  have separate {option : String}
      (hoption : l.step option = l.settle >>= fun l => .ok { l with mode := .value }) :
      ∃ l', [option, pattern].foldlM step l = .ok l' ∧
        l'.Says (some pattern) flags files .options := by
    refine ⟨⟨none, some pattern, flags, files, .options⟩, ?_, .held⟩
    rw [List.foldlM_cons, hoption, hl.settle_eq]
    rfl
  cases h with
  | letter =>
      refine separate ?_
      rw [step, hl.mode_eq]
      rfl
  | name =>
      refine separate ?_
      rw [step, hl.mode_eq]
      rfl
  | attached =>
      refine ⟨⟨some pattern, none, flags, files, .options⟩, ?_, .settled⟩
      rw [List.foldlM_cons, step_attached hl.mode_eq, hl.settle_eq]
      rfl

/-- A file is added to the others. -/
theorem Says.useFile (hl : l.Says given flags files mode) (name : String) :
    l.useFile name = .ok ⟨given, none, flags, name :: files, mode⟩ := by
  rw [CommandLine.useFile, hl.settle_eq]
  rfl

/-- An argument that is a hyphen or begins with something else is a file. -/
theorem step_of_plain {name : String} (hmode : l.mode = .options)
    (h : name = "-" ∨ name.toList.head? ≠ some '-') : l.step name = l.useFile name := by
  rw [step, hmode]
  rcases h with rfl | h
  · rfl
  · cases hname : name.toList with
    | nil => rfl
    | cons c rest =>
        have hc : c ≠ '-' := by
          rintro rfl
          rw [hname] at h
          exact h rfl
        dsimp only
        split
        next heq => exact absurd (List.cons.inj heq).1 hc
        next heq => exact absurd (List.cons.inj heq).1 hc
        next heq => exact absurd (List.cons.inj heq).1 hc
        next => rfl

/-! ## All parts -/

/-- One value at most, and one that comes: then there was none before, and none follows. -/
theorem toList_append_cons {α : Type} {before after : Option α} {x : α} {xs : List α}
    (h : before.toList ++ x :: xs = after.toList) : before = none ∧ after = some x ∧ xs = [] := by
  cases after with
  | none => exact absurd h (List.append_ne_nil_of_right_ne_nil _ (List.cons_ne_nil x xs))
  | some y =>
      cases before with
      | none =>
          obtain ⟨rfl, hxs⟩ := List.cons.inj h
          exact ⟨rfl, rfl, hxs⟩
      | some z => exact absurd (List.cons.inj h).2 (List.cons_ne_nil x xs)

/-- **Reading parts adds what they say** to what the reader says already, if there is one pattern at
    most and no flag comes twice. -/
theorem Says.run {parts : List Part} {arguments : List String} (h : Written parts arguments)
    {given' : Option String} (hl : l.Says given flags files .options)
    (hpattern : given.toList ++ patternsOf parts = given'.toList)
    (hflags : ((flagsOf parts).reverse ++ flags).Nodup) :
    ∃ l', arguments.foldlM step l = .ok l' ∧
      l'.Says given' ((flagsOf parts).reverse ++ flags) ((filesOf parts).reverse ++ files)
        .options := by
  induction h generalizing l given flags files with
  | nil =>
      have hsame : given.toList = given'.toList := (List.append_nil _).symm.trans hpattern
      have hhead := congrArg List.head? hsame
      rw [Option.head?_toList, Option.head?_toList] at hhead
      rw [← hhead]
      exact ⟨l, rfl, hl⟩
  | @cons part parts front behind hpart hparts ih =>
      -- one part first, then the others from the reader that it leads to
      have andThen {l₁ : CommandLine} {given₁ : Option String} {flags₁ : List Flag}
          {files₁ : List String} (hfront : front.foldlM step l = .ok l₁)
          (hl₁ : l₁.Says given₁ flags₁ files₁ .options)
          (hpattern₁ : given₁.toList ++ patternsOf parts = given'.toList)
          (hflags₁ : ((flagsOf parts).reverse ++ flags₁).Nodup) :
          ∃ l', (front ++ behind).foldlM step l = .ok l' ∧
            l'.Says given' ((flagsOf parts).reverse ++ flags₁) ((filesOf parts).reverse ++ files₁)
              .options := by
        obtain ⟨l', hbehind, hl'⟩ := ih hl₁ hpattern₁ hflags₁
        refine ⟨l', ?_, hl'⟩
        rw [List.foldlM_append, hfront]
        exact hbehind
      cases hpart with
      | @flag f argument hspelling =>
          have hmore : (flagsOf (.flag f :: parts)).reverse ++ flags =
              (flagsOf parts).reverse ++ f :: flags := by
            show (f :: flagsOf parts).reverse ++ flags = _
            rw [List.reverse_cons, List.append_assoc]
            rfl
          rw [hmore] at hflags ⊢
          have hnew : f ∉ flags :=
            (List.nodup_cons.mp (List.nodup_append.mp hflags).2.1).1
          obtain ⟨l₁, hstep, hl₁⟩ := hl.flag hspelling hnew
          refine andThen ?_ hl₁ hpattern hflags
          rw [List.foldlM_cons, hstep]
          rfl
      | @pattern pattern arguments hwrites =>
          obtain ⟨rfl, rfl, hrest⟩ := toList_append_cons hpattern
          have hnone : patternsOf parts = [] := hrest
          obtain ⟨l₁, hrun, hl₁⟩ := hl.pattern hwrites
          refine andThen hrun hl₁ ?_ hflags
          rw [hnone]
          rfl
      | @file name hplain =>
          have hmore : (filesOf (.file name :: parts)).reverse ++ files =
              (filesOf parts).reverse ++ name :: files := by
            show (name :: filesOf parts).reverse ++ files = _
            rw [List.reverse_cons, List.append_assoc]
            rfl
          rw [hmore]
          refine andThen ?_ .settled hpattern hflags
          rw [List.foldlM_cons, step_of_plain hl.mode_eq hplain, hl.useFile]
          rfl

/-- Behind `--` every argument is a file. -/
theorem Says.run_files (more : List String) (hl : l.Says given flags files .files) :
    ∃ l', more.foldlM step l = .ok l' ∧ l'.Says given flags (more.reverse ++ files) .files := by
  induction more generalizing l files with
  | nil => exact ⟨l, rfl, hl⟩
  | cons name more ih =>
      obtain ⟨l', hrun, hl'⟩ := ih (l := ⟨given, none, flags, name :: files, .files⟩) .settled
      refine ⟨l', ?_, ?_⟩
      · rw [List.foldlM_cons, step, hl.mode_eq]
        show l.useFile name >>= _ = _
        rw [hl.useFile]
        exact hrun
      · rw [List.reverse_cons, List.append_assoc]
        exact hl'

theorem step_doubleHyphen (hmode : l.mode = .options) :
    l.step "--" = .ok { l with mode := .files } := by
  rw [step, hmode]
  rfl

/-- **A command line that says a pattern asks for it**, with the flags and the files it says. -/
theorem Says.finish_eq {pattern : String} (hl : l.Says (some pattern) flags files mode)
    (hmode : mode ≠ .value) : l.finish = .ok (.asking pattern flags files.reverse) := by
  rw [finish, hl.mode_eq, if_neg hmode]
  show (l.settle >>= _) = _
  rw [hl.settle_eq]
  rfl

end CommandLine

namespace Options

open CommandLine

/-- Only which flags there are counts, not their order. -/
theorem asking_of_perm {flags flags' : List Flag} (h : flags.Perm flags') (pattern : String)
    (files : List String) : asking pattern flags files = asking pattern flags' files := by
  simp only [asking, h.mem_iff]

/-- **A command line asks for what its parts say**, and behind a `--` for more files. -/
theorem ofArguments_of_written {parts : List Part} {arguments : List String} {pattern : String}
    (h : Written parts arguments) (hpattern : patternsOf parts = [pattern])
    (hflags : (flagsOf parts).Nodup) :
    ofArguments arguments = .ok (asking pattern (flagsOf parts) (filesOf parts)) ∧
      ∀ more, ofArguments (arguments ++ "--" :: more) =
        .ok (asking pattern (flagsOf parts) (filesOf parts ++ more)) := by
  have hstart : Says {} none [] [] .options := .settled
  have hone : (none : Option String).toList ++ patternsOf parts = (some pattern).toList := hpattern
  have hnodup : ((flagsOf parts).reverse ++ []).Nodup := by
    rw [List.append_nil]
    exact (List.reverse_perm _).nodup_iff.mpr hflags
  obtain ⟨l, hrun, hl⟩ := hstart.run h hone hnodup
  rw [List.append_nil, List.append_nil] at hl
  have hperm := asking_of_perm (List.reverse_perm (flagsOf parts)) pattern
  constructor
  · rw [ofArguments, hrun]
    show l.finish = _
    rw [hl.finish_eq nofun, hperm, List.reverse_reverse]
  · intro more
    obtain ⟨l', hmore, hl'⟩ := (hl.withMode .files).run_files more
    rw [ofArguments, List.foldlM_append, hrun]
    show (("--" :: more).foldlM step l >>= finish) = _
    rw [List.foldlM_cons, step_doubleHyphen hl.mode_eq]
    show (more.foldlM step { l with mode := .files } >>= finish) = _
    rw [hmore]
    show l'.finish = _
    rw [hl'.finish_eq nofun, hperm, List.reverse_append, List.reverse_reverse,
      List.reverse_reverse]

/-- Flags and a pattern behind them are parts. -/
theorem written_flags_pattern {flags : List Flag} {words given : List String} {pattern : String}
    (hwords : List.Forall₂ (fun f word => word ∈ f.spellings) flags words)
    (hgiven : WritesPattern pattern given) :
    Written (flags.map .flag ++ [.pattern pattern]) (words ++ given) := by
  induction hwords with
  | nil =>
      have hlast : Written [.pattern pattern] (given ++ []) := .cons (.pattern hgiven) .nil
      rw [List.append_nil] at hlast
      exact hlast
  | @cons f word flags words hword _ ih =>
      have hfirst : Part.Writes (.flag f) [word] := .flag hword
      have hall : Written (.flag f :: (flags.map .flag ++ [.pattern pattern]))
          ([word] ++ (words ++ given)) := .cons hfirst ih
      exact hall

/-- They say these flags, this pattern and no file. -/
theorem said_flags_pattern (flags : List Flag) (pattern : String) :
    flagsOf (flags.map .flag ++ [.pattern pattern]) = flags ∧
      patternsOf (flags.map .flag ++ [.pattern pattern]) = [pattern] ∧
      filesOf (flags.map .flag ++ [.pattern pattern]) = [] := by
  induction flags with
  | nil => exact ⟨rfl, rfl, rfl⟩
  | cons f flags ih =>
      obtain ⟨hflags, hpatterns, hfiles⟩ := ih
      exact ⟨congrArg (f :: ·) hflags, hpatterns, hfiles⟩

/-- **Reading finds again what was written.** Flags in any order and spelling, then the pattern in
    one of its three spellings, `--`, and any files ask for that pattern, those flags and those
    files. They do so, too, if `--` is left out and flags, pattern and files stand in any order,
    where the files keep theirs and none of them would be taken for options. -/
theorem ofArguments_finds_written (pattern : String) (files : List String) {flags : List Flag}
    (hflags : flags.Nodup) :
    (∀ words given, List.Forall₂ (fun f word => word ∈ f.spellings) flags words →
      WritesPattern pattern given →
      ofArguments (words ++ given ++ "--" :: files) = .ok (asking pattern flags files)) ∧
    ∀ parts arguments, Written parts arguments → (flagsOf parts).Perm flags →
      patternsOf parts = [pattern] → filesOf parts = files →
      ofArguments arguments = .ok (asking pattern flags files) := by
  constructor
  · intro words given hwords hgiven
    obtain ⟨hflagsOf, hpatternsOf, hfilesOf⟩ := said_flags_pattern flags pattern
    have hnodup : (flagsOf (flags.map .flag ++ [.pattern pattern])).Nodup := by
      rw [hflagsOf]
      exact hflags
    have hwritten := written_flags_pattern hwords hgiven
    have hread := (ofArguments_of_written hwritten hpatternsOf hnodup).2 files
    rw [hflagsOf, hfilesOf] at hread
    exact hread
  · rintro parts arguments hwritten hperm hpattern rfl
    rw [← asking_of_perm hperm]
    exact (ofArguments_of_written hwritten hpattern (hperm.nodup_iff.mpr hflags)).1

/-- The pattern `--` is found in front of the `--` that ends the options, and also between files
    and flags, where it is no end of anything. -/
theorem ofArguments_doubleHyphen :
    [Flag.quiet, .debug].Nodup ∧
      ofArguments ["-q", "--debug", "-E", "--", "--", "-", "a.txt"] =
        .ok { pattern := "--", files := ["-", "a.txt"], quiet := true, debug := true } ∧
      ofArguments ["-", "--debug", "--extended-regexp", "--", "a.txt", "--quiet"] =
        .ok { pattern := "--", files := ["-", "a.txt"], quiet := true, debug := true } := by
  have hflags : [Flag.quiet, .debug].Nodup := by decide
  obtain ⟨hbehind, hamong⟩ := ofArguments_finds_written "--" ["-", "a.txt"] hflags
  refine ⟨hflags, ?_, ?_⟩
  · refine hbehind ["-q", "--debug"] ["-E", "--"] ?_ .letter
    exact .cons List.mem_cons_self (.cons List.mem_cons_self .nil)
  · refine hamong [.file "-", .flag .debug, .pattern "--", .file "a.txt", .flag .quiet] _ ?_
      (List.Perm.swap _ _ _) rfl rfl
    refine .cons (.file (Or.inl rfl)) (.cons (.flag List.mem_cons_self) (.cons (.pattern .name) ?_))
    refine .cons (.file (Or.inr ?_))
      (.cons (.flag (List.mem_cons_of_mem _ List.mem_cons_self)) .nil)
    exact fun heq => nomatch heq

end Options

end LineSieve
