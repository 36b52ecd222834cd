import LineSieve.Proofs.Matching.Backtracking
import LineSieve.Proofs.Reading.Gluing
import Mathlib.Data.List.Induction

/-!
# What is read and what is written

A sequence of atoms is written atom by atom, and a text may write it in more than one way: a class
that is repeated has any quantifiers behind it, of which only the last counts. Not every sequence
can be written. A literal `+` would be taken for a quantifier, a group with `]` among its members
ends early, and an anchor stands at its end of the pattern only.

* **`HasRead.of_takes`**: what a reader holds is well formed and written by what it has read, and
  each step keeps this. So a text is read as something that it writes.
* **`foldlM_step_spelledBy`**: conversely, a reader takes any spelling of a well-formed sequence
  and finds just these atoms in it.
* **`parse_eq_ok_iff_spelledBy`**: reading accepts exactly the spellings of well-formed sequences.
-/

namespace LineSieve

/-- A class that can be told from what it is written as. -/
def CharClass.WellFormed : CharClass → Prop
  | .literal c => c ∉ Parser.special
  | .digit => True
  | .word => True
  | .any => True
  | .group members _ => members ≠ [] ∧ ']' ∉ members ∧ '^' ∉ members

/-- The quantifiers behind a class: none where it is taken once, else any number of them, and the
    last is the one that counts. -/
def Repetition.SpelledBy (times : Repetition) (marks : List Char) : Prop :=
  (∀ c ∈ marks, c = '+' ∨ c = '?') ∧ marks.getLast?.toList = times.render

/-- The text writes the atom. -/
def Atom.SpelledBy : Atom → List Char → Prop
  | .lineStart, s => s = ['^']
  | .lineEnd, s => s = ['$']
  | .chars cls times, s => ∃ marks, times.SpelledBy marks ∧ s = cls.render ++ marks

namespace Sequence

/-- The text writes the atoms, one after the other. -/
def SpelledBy : Sequence → List Char → Prop
  | [], s => s = []
  | atom :: atoms, s => ∃ word rest, atom.SpelledBy word ∧ SpelledBy atoms rest ∧ s = word ++ rest

/-- `^` comes first only, `$` last only, and every class can be told from what it is written as. -/
structure WellFormed (atoms : Sequence) : Prop where
  anchors : atoms.AnchorsAtEnds
  classes : ∀ cls times, .chars cls times ∈ atoms → cls.WellFormed

end Sequence

/-! ## Spellings -/

/-- The text of a repetition is one of its spellings. -/
theorem Repetition.spelledBy_render (times : Repetition) : times.SpelledBy times.render := by
  cases times with
  | once => exact ⟨fun c hc => absurd hc List.not_mem_nil, rfl⟩
  | oneOrMore => exact ⟨fun c hc => Or.inl (List.mem_singleton.mp hc), rfl⟩
  | optional => exact ⟨fun c hc => Or.inr (List.mem_singleton.mp hc), rfl⟩

/-- A quantifier takes the place of those before it. -/
theorem Repetition.SpelledBy.concat {old new : Repetition} {marks : List Char} {c : Char}
    (h : old.SpelledBy marks) (hc : new.render = [c]) : new.SpelledBy (marks ++ [c]) := by
  have hmark : c = '+' ∨ c = '?' := by
    cases new with
    | once => exact nomatch hc
    | oneOrMore => exact Or.inl (List.cons.inj hc).1.symm
    | optional => exact Or.inr (List.cons.inj hc).1.symm
  refine ⟨?_, ?_⟩
  · intro d hd
    rcases List.mem_append.mp hd with hd | hd
    · exact h.1 d hd
    · obtain rfl := List.mem_singleton.mp hd
      exact hmark
  · rw [List.getLast?_concat, hc]
    rfl

/-- Any quantifiers behind a class make it some repetition. -/
theorem Repetition.exists_spelledBy {marks : List Char} (h : ∀ c ∈ marks, c = '+' ∨ c = '?') :
    ∃ times : Repetition, times.SpelledBy marks := by
  cases hlast : marks.getLast? with
  | none => exact ⟨.once, h, congrArg _ hlast⟩
  | some c =>
      rcases h c (List.mem_of_getLast? hlast) with rfl | rfl
      · exact ⟨.oneOrMore, h, congrArg _ hlast⟩
      · exact ⟨.optional, h, congrArg _ hlast⟩

/-- The text of an atom is one of its spellings. -/
theorem Atom.spelledBy_render (atom : Atom) : atom.SpelledBy atom.render := by
  cases atom with
  | lineStart => exact rfl
  | lineEnd => exact rfl
  | chars cls times => exact ⟨times.render, times.spelledBy_render, rfl⟩

namespace Sequence

theorem spelledBy_render (atoms : Sequence) : atoms.SpelledBy atoms.render := by
  induction atoms with
  | nil => exact rfl
  | cons atom atoms ih => exact ⟨atom.render, _, atom.spelledBy_render, ih, List.flatMap_cons⟩

/-- One more atom writes one more word. -/
theorem spelledBy_concat {atoms : Sequence} {atom : Atom} {s : List Char} :
    SpelledBy (atoms ++ [atom]) s ↔
      ∃ front word, atoms.SpelledBy front ∧ atom.SpelledBy word ∧ s = front ++ word := by
  induction atoms generalizing s with
  | nil =>
      constructor
      · rintro ⟨word, rest, hword, rfl, rfl⟩
        exact ⟨[], word, rfl, hword, List.append_nil word⟩
      · rintro ⟨front, word, rfl, hword, rfl⟩
        exact ⟨s, [], hword, rfl, (List.append_nil s).symm⟩
  | cons first atoms ih =>
      constructor
      · rintro ⟨head, rest, hhead, hrest, rfl⟩
        obtain ⟨front, word, hfront, hword, rfl⟩ := ih.mp hrest
        exact ⟨head ++ front, word, ⟨head, front, hhead, hfront, rfl⟩, hword,
          (List.append_assoc _ _ _).symm⟩
      · rintro ⟨front, word, ⟨head, rest, hhead, hrest, rfl⟩, hword, rfl⟩
        exact ⟨head, rest ++ word, hhead, ih.mpr ⟨rest, word, hrest, hword, rfl⟩,
          List.append_assoc _ _ _⟩

/-! ## Well-formed sequences -/

theorem wellFormed_nil : WellFormed [] :=
  ⟨⟨List.not_mem_nil, List.not_mem_nil⟩, fun _ _ h => absurd h List.not_mem_nil⟩

/-- An atom may be added at the end unless a `$` is in front of it; a `^` only to nothing. -/
theorem wellFormed_concat {atoms : Sequence} {atom : Atom} :
    WellFormed (atoms ++ [atom]) ↔
      atoms.WellFormed ∧ .lineEnd ∉ atoms ∧ (atom = .lineStart → atoms = []) ∧
        ∀ cls times, atom = .chars cls times → cls.WellFormed := by
  have htail : .lineStart ∉ (atoms ++ [atom]).tail ↔
      .lineStart ∉ atoms.tail ∧ (atom = .lineStart → atoms = []) := by
    cases atoms with
    | nil => simp
    | cons first atoms =>
        rw [List.cons_append, List.tail_cons, List.tail_cons, List.mem_append, not_or,
          List.mem_singleton]
        refine and_congr_right fun _ => ⟨fun hne heq => absurd heq.symm hne, fun h heq => ?_⟩
        exact absurd (h heq.symm) (List.cons_ne_nil _ _)
  constructor
  · rintro ⟨⟨hstart, hend⟩, hclasses⟩
    rw [List.dropLast_concat] at hend
    obtain ⟨hstart, hfirst⟩ := htail.mp hstart
    refine ⟨⟨⟨hstart, fun h => hend (List.dropLast_subset _ h)⟩, fun cls times h => ?_⟩, hend,
      hfirst, fun cls times h => ?_⟩
    · exact hclasses cls times (List.mem_append_left _ h)
    · exact hclasses cls times (List.mem_append_right _ (List.mem_singleton.mpr h.symm))
  · rintro ⟨⟨⟨hstart, -⟩, hclasses⟩, hend, hfirst, hclass⟩
    refine ⟨⟨htail.mpr ⟨hstart, hfirst⟩, ?_⟩, fun cls times h => ?_⟩
    · rw [List.dropLast_concat]
      exact hend
    · rcases List.mem_append.mp h with h | h
      · exact hclasses cls times h
      · exact hclass cls times (List.mem_singleton.mp h).symm

/-- What comes first of a well-formed sequence is well formed. -/
theorem WellFormed.of_append {atoms behind : Sequence} (h : WellFormed (atoms ++ behind)) :
    atoms.WellFormed := by
  induction behind using List.reverseRecOn with
  | nil => rwa [List.append_nil] at h
  | append_singleton behind atom ih =>
      rw [← List.append_assoc] at h
      exact ih (wellFormed_concat.mp h).1

end Sequence

namespace Parser

open Sequence (wellFormed_concat spelledBy_concat)

/-! ## What has been read -/

/-- Between two atoms: the atoms so far, the latest first, are well formed with no `$` among them,
    and the text so far writes them. -/
structure Front (atoms : List Atom) (s : List Char) : Prop where
  wellFormed : Sequence.WellFormed atoms.reverse
  open_ended : .lineEnd ∉ atoms
  spelled : Sequence.SpelledBy atoms.reverse s

/-- What a reader holds, told from the text that it has read. -/
inductive HasRead : Parser → List Char → Prop where
  | between {atoms : List Atom} {s : List Char} (h : Front atoms s) :
      HasRead ⟨atoms, .between⟩ s
  | escape {atoms : List Atom} {s : List Char} {start : Nat} (h : Front atoms s) :
      HasRead ⟨atoms, .escape start⟩ (s ++ ['\\'])
  | opening {atoms : List Atom} {s : List Char} {opened : Nat} (h : Front atoms s) :
      HasRead ⟨atoms, .opening opened⟩ (s ++ ['['])
  | inside {atoms : List Atom} {s : List Char} {opened : Nat} {negated : Bool}
      {members : List Char} (h : Front atoms s) (hclose : ']' ∉ members)
      (hcaret : '^' ∉ members) :
      HasRead ⟨atoms, .inside opened negated members⟩
        (s ++ ('[' :: ((if negated then ['^'] else []) ++ members.reverse)))
  | ended {atoms : List Atom} {s : List Char} {dollar : Nat} (h : Front atoms s) :
      HasRead ⟨.lineEnd :: atoms, .ended dollar⟩ (s ++ ['$'])

theorem front_nil : Front [] [] :=
  ⟨Sequence.wellFormed_nil, List.not_mem_nil, rfl⟩

/-- A class is read. -/
theorem Front.push {atoms : List Atom} {s : List Char} (h : Front atoms s) {cls : CharClass}
    (hcls : cls.WellFormed) {times : Repetition} {word : List Char}
    (hword : (Atom.chars cls times).SpelledBy word) :
    Front (.chars cls times :: atoms) (s ++ word) := by
  refine ⟨?_, ?_, ?_⟩
  · rw [List.reverse_cons, wellFormed_concat]
    refine ⟨h.wellFormed, fun hmem => h.open_ended (List.mem_reverse.mp hmem), nofun, ?_⟩
    rintro _ _ ⟨⟩
    exact hcls
  · intro hmem
    rcases List.mem_cons.mp hmem with heq | hmem
    · exact nomatch heq
    · exact h.open_ended hmem
  · rw [List.reverse_cons, spelledBy_concat]
    exact ⟨s, word, h.spelled, hword, rfl⟩

/-- A class that is taken once is read. -/
theorem Front.push_one {atoms : List Atom} {s : List Char} (h : Front atoms s) (cls : CharClass)
    (hcls : cls.WellFormed) : Front (.one cls :: atoms) (s ++ cls.render) :=
  h.push hcls ⟨[], Repetition.spelledBy_render .once, (List.append_nil _).symm⟩

/-- The class read last gets one more quantifier. -/
theorem Front.quantify {atoms : List Atom} {s : List Char} {cls : CharClass}
    {old new : Repetition} (h : Front (.chars cls old :: atoms) s) {c : Char}
    (hc : new.render = [c]) : Front (.chars cls new :: atoms) (s ++ [c]) := by
  obtain ⟨hwf, hend, hspelled⟩ := h
  rw [List.reverse_cons] at hwf hspelled
  obtain ⟨hwf, -, -, hcls⟩ := wellFormed_concat.mp hwf
  obtain ⟨front, word, hfront, ⟨marks, hmarks, rfl⟩, rfl⟩ := spelledBy_concat.mp hspelled
  have hbefore : Front atoms front := ⟨hwf, fun hmem => hend (List.mem_cons_of_mem _ hmem), hfront⟩
  rw [List.append_assoc]
  exact hbefore.push (hcls cls old rfl) ⟨marks ++ [c], hmarks.concat hc, List.append_assoc _ _ _⟩

/-- **Each step keeps what has been read.** -/
theorem HasRead.of_takes {p q : Parser} {s : List Char} {c : Placed} (h : p.HasRead s)
    (htakes : p.Takes c q) : q.HasRead (s ++ [c.char]) := by
  cases htakes with
  | backslash hc =>
      cases h with
      | between h => exact hc ▸ .escape h
  | bracket hc =>
      cases h with
      | between h => exact hc ▸ .opening h
  | caret hc =>
      cases h with
      | between h =>
          obtain rfl : s = [] := h.spelled
          rw [hc]
          refine .between ⟨⟨by decide, ?_⟩, by decide, ['^'], [], rfl, rfl, rfl⟩
          intro cls times hmem
          exact nomatch List.mem_singleton.mp hmem
  | dollar hc =>
      cases h with
      | between h => exact hc ▸ .ended h
  | quantifier hc =>
      cases h with
      | between h => exact .between (h.quantify hc)
  | dot hc =>
      cases h with
      | between h => exact hc ▸ .between (h.push_one .any trivial)
  | literal hc =>
      cases h with
      | between h => exact .between (h.push_one (.literal _) hc)
  | digit hc =>
      cases h with
      | escape h =>
          rw [hc, List.append_assoc]
          exact .between (h.push_one .digit trivial)
  | word hc =>
      cases h with
      | escape h =>
          rw [hc, List.append_assoc]
          exact .between (h.push_one .word trivial)
  | negation hc =>
      cases h with
      | opening h =>
          rw [hc, List.append_assoc]
          exact .inside h List.not_mem_nil List.not_mem_nil
  | first hclose hcaret =>
      cases h with
      | opening h =>
          rw [List.append_assoc]
          refine .inside h ?_ ?_
          · exact fun hmem => hclose (List.mem_singleton.mp hmem).symm
          · exact fun hmem => hcaret (List.mem_singleton.mp hmem).symm
  | member hclose hcaret =>
      cases h with
      | inside h hnoClose hnoCaret =>
          rw [List.append_assoc, List.cons_append, List.append_assoc, ← List.reverse_cons]
          refine .inside h ?_ ?_
          · exact List.not_mem_cons_of_ne_of_not_mem hclose.symm hnoClose
          · exact List.not_mem_cons_of_ne_of_not_mem hcaret.symm hnoCaret
  | close hc hmembers =>
      cases h with
      | inside h hnoClose hnoCaret =>
          rw [hc, List.append_assoc, List.cons_append]
          refine .between (h.push_one (.group _ _) ⟨?_, ?_, ?_⟩)
          · exact fun hnil => hmembers (List.reverse_eq_nil_iff.mp hnil)
          · exact fun hmem => hnoClose (List.mem_reverse.mp hmem)
          · exact fun hmem => hnoCaret (List.mem_reverse.mp hmem)

theorem HasRead.of_steps {chars : List Placed} {p q : Parser} {s : List Char} (h : p.HasRead s)
    (hsteps : chars.foldlM step p = .ok q) : q.HasRead (s ++ Placed.text chars) := by
  induction chars generalizing p s with
  | nil =>
      obtain rfl := Except.ok.inj hsteps
      rw [Placed.text_nil, List.append_nil]
      exact h
  | cons c chars ih =>
      obtain ⟨p', htakes, hrest⟩ := foldlM_step_cons.mp hsteps
      have hread := ih (h.of_takes htakes) hrest
      rw [List.append_assoc] at hread
      exact hread

/-- What is held when the text ends is well formed, and the text writes it. -/
theorem HasRead.of_finish {p : Parser} {s : List Char} {atoms : Sequence} (h : p.HasRead s)
    (hfinish : p.finish = .ok atoms) : atoms.WellFormed ∧ atoms.SpelledBy s := by
  cases h with
  | between h =>
      obtain rfl := Except.ok.inj hfinish
      exact ⟨h.wellFormed, h.spelled⟩
  | ended h =>
      obtain rfl := Except.ok.inj hfinish
      rw [List.reverse_cons]
      refine ⟨wellFormed_concat.mpr ⟨h.wellFormed, ?_, nofun, nofun⟩, ?_⟩
      · exact fun hmem => h.open_ended (List.mem_reverse.mp hmem)
      · exact spelledBy_concat.mpr ⟨_, _, h.spelled, rfl, rfl⟩
  | escape _ | opening _ | inside _ _ _ => exact nomatch hfinish

/-! ## Reading a spelling -/

open Placed (unplaced)
open Candidate (unplaced_cons unplaced_append)

/-- The members of a group are taken one by one until the bracket closes it. -/
theorem foldlM_step_members {members : List Char} (hclose : ']' ∉ members)
    (hcaret : '^' ∉ members) (atoms : List Atom) (opened : Nat) (negated : Bool)
    {found : List Char} (hne : found.reverse ++ members ≠ []) :
    (unplaced (members ++ [']'])).foldlM step ⟨atoms, .inside opened negated found⟩ =
      .ok ⟨.one (.group (found.reverse ++ members) negated) :: atoms, .between⟩ := by
  induction members generalizing found with
  | nil =>
      rw [List.append_nil] at hne ⊢
      refine foldlM_step_cons.mpr ⟨_, .close rfl ?_, rfl⟩
      exact fun hnil => hne (List.reverse_eq_nil_iff.mpr hnil)
  | cons c members ih =>
      obtain ⟨hc, hclose⟩ := List.ne_and_not_mem_of_not_mem_cons hclose
      obtain ⟨hc', hcaret⟩ := List.ne_and_not_mem_of_not_mem_cons hcaret
      have hmove : found.reverse ++ c :: members = (c :: found).reverse ++ members := by
        rw [List.reverse_cons, List.append_assoc, List.singleton_append]
      rw [hmove] at hne ⊢
      exact foldlM_step_cons.mpr ⟨_, .member hc.symm hc'.symm, ih hclose hcaret hne⟩

/-- What a class is written as is read as the class. -/
theorem foldlM_step_render {cls : CharClass} (h : cls.WellFormed) (atoms : List Atom) :
    (unplaced cls.render).foldlM step ⟨atoms, .between⟩ = .ok ⟨.one cls :: atoms, .between⟩ := by
  cases cls with
  | literal c => exact foldlM_step_cons.mpr ⟨_, .literal h, rfl⟩
  | digit => rfl
  | word => rfl
  | any => rfl
  | group members negated =>
      obtain ⟨hne, hclose, hcaret⟩ := h
      refine foldlM_step_cons.mpr ⟨⟨atoms, .opening 0⟩, .bracket rfl, ?_⟩
      cases negated with
      | true =>
          refine foldlM_step_cons.mpr ⟨⟨atoms, .inside 0 true []⟩, .negation rfl, ?_⟩
          exact foldlM_step_members hclose hcaret atoms 0 true hne
      | false =>
          -- without a `^` the first member decides that the group is not negated
          obtain ⟨c, members, rfl⟩ := List.exists_cons_of_ne_nil hne
          obtain ⟨hc, hclose⟩ := List.ne_and_not_mem_of_not_mem_cons hclose
          obtain ⟨hc', hcaret⟩ := List.ne_and_not_mem_of_not_mem_cons hcaret
          refine foldlM_step_cons.mpr ⟨⟨atoms, .inside 0 false [c]⟩, .first hc.symm hc'.symm, ?_⟩
          exact foldlM_step_members hclose hcaret atoms 0 false hne

/-- The last of the quantifiers behind a class counts. -/
theorem foldlM_step_marks {times : Repetition} {marks : List Char} (h : times.SpelledBy marks)
    (cls : CharClass) (atoms : List Atom) :
    (unplaced marks).foldlM step ⟨.one cls :: atoms, .between⟩ =
      .ok ⟨.chars cls times :: atoms, .between⟩ := by
  induction marks using List.reverseRecOn generalizing times with
  | nil =>
      cases times with
      | once => rfl
      | oneOrMore => exact nomatch h.2
      | optional => exact nomatch h.2
  | append_singleton marks c ih =>
      obtain ⟨hmarks, hlast⟩ := h
      rw [List.getLast?_concat] at hlast
      -- whatever is in front makes the class some repetition, and `c` replaces it
      obtain ⟨old, hold⟩ := Repetition.exists_spelledBy fun d hd =>
        hmarks d (List.mem_append_left _ hd)
      rw [unplaced_append]
      refine foldlM_step_append.mpr ⟨_, ih hold, ?_⟩
      exact foldlM_step_cons.mpr ⟨_, .quantifier hlast.symm, rfl⟩

/-- **A reader finds in a spelling the atoms that it writes**, on top of those in front, if all of
    them together are well formed. -/
theorem foldlM_step_spelledBy {atoms : Sequence} {s : List Char} (h : atoms.SpelledBy s)
    (base : List Atom) (hwf : Sequence.WellFormed (base.reverse ++ atoms)) :
    ∃ p, (unplaced s).foldlM step ⟨base, .between⟩ = .ok p ∧
      p.finish = .ok (base.reverse ++ atoms) := by
  induction atoms generalizing base s with
  | nil =>
      obtain rfl : s = [] := h
      exact ⟨⟨base, .between⟩, rfl, congrArg _ (List.append_nil _).symm⟩
  | cons atom atoms ih =>
      obtain ⟨word, rest, hword, hrest, rfl⟩ := h
      have hmove : base.reverse ++ atom :: atoms = (atom :: base).reverse ++ atoms := by
        rw [List.reverse_cons, List.append_assoc, List.singleton_append]
      rw [hmove] at hwf ⊢
      have hfront := hwf.of_append
      rw [List.reverse_cons, wellFormed_concat] at hfront
      obtain ⟨-, -, hstart, hclass⟩ := hfront
      rw [unplaced_append]
      cases atom with
      | lineStart =>
          obtain rfl : word = ['^'] := hword
          obtain rfl := List.reverse_eq_nil_iff.mp (hstart rfl)
          obtain ⟨p, hrun, hfinish⟩ := ih hrest _ hwf
          exact ⟨p, foldlM_step_cons.mpr ⟨_, .caret rfl, hrun⟩, hfinish⟩
      | lineEnd =>
          obtain rfl : word = ['$'] := hword
          -- behind a `$` there is nothing in a well-formed sequence
          obtain rfl : atoms = [] := by
            cases atoms with
            | nil => rfl
            | cons next atoms =>
                rw [List.append_cons] at hwf
                have hend := (wellFormed_concat.mp hwf.of_append).2.1
                exact absurd (List.mem_reverse.mpr List.mem_cons_self) hend
          obtain rfl : rest = [] := hrest
          exact ⟨⟨.lineEnd :: base, .ended 0⟩, rfl, congrArg _ (List.append_nil _).symm⟩
      | chars cls times =>
          obtain ⟨marks, hmarks, rfl⟩ := hword
          obtain ⟨p, hrun, hfinish⟩ := ih hrest _ hwf
          refine ⟨p, ?_, hfinish⟩
          rw [unplaced_append]
          have hcls := foldlM_step_render (hclass cls times rfl) base
          have hmarks := foldlM_step_marks hmarks cls base
          exact foldlM_step_append.mpr ⟨_, foldlM_step_append.mpr ⟨_, hcls, hmarks⟩, hrun⟩

end Parser

namespace Sequence

/-- A text is read as the atoms that it writes. -/
theorem spelledBy_of_parse {s : List Char} {atoms : Sequence} (h : parse s = .ok atoms) :
    atoms.WellFormed ∧ atoms.SpelledBy s := by
  obtain ⟨p, hrun, hfinish⟩ := parse_eq_ok.mp h
  have hread := Parser.HasRead.of_steps (.between Parser.front_nil) hrun
  rw [Candidate.text_unplaced] at hread
  exact hread.of_finish hfinish

/-- A spelling of a well-formed sequence is read as just this sequence. -/
theorem parse_of_spelledBy {s : List Char} {atoms : Sequence} (hwf : atoms.WellFormed)
    (h : atoms.SpelledBy s) : parse s = .ok atoms :=
  parse_eq_ok.mpr (Parser.foldlM_step_spelledBy h [] hwf)

/-- **Reading accepts exactly the spellings of well-formed sequences**, each of them as what it
    spells. So writing a sequence and reading it again gives back just the well-formed ones, and
    nothing but the empty text is read as no atoms. -/
theorem parse_eq_ok_iff_spelledBy (s : List Char) (atoms : Sequence) :
    (parse s = .ok atoms ↔ atoms.WellFormed ∧ atoms.SpelledBy s) ∧
      (parse atoms.render = .ok atoms ↔ atoms.WellFormed) ∧
      (parse s = .ok [] ↔ s = []) := by
  refine ⟨⟨spelledBy_of_parse, fun h => parse_of_spelledBy h.1 h.2⟩, ⟨?_, ?_⟩, ⟨?_, ?_⟩⟩
  · exact fun h => (spelledBy_of_parse h).1
  · exact fun h => parse_of_spelledBy h atoms.spelledBy_render
  · exact fun h => (spelledBy_of_parse h).2
  · rintro rfl
    rfl

end Sequence

end LineSieve
