import LineSieve.Proofs.Complaints

/-!
# Escapes in front of group syntax

A backslash escapes the next character of a candidate, and that need not be the next one of the
pattern. Alternatives are undone first, whatever stands in front of their parentheses and bars:
in `\(a)` the backslash gets the `a` and in `(\|x)` it gets nothing, although the first pattern
goes on with a `(` and the second with a `|`.

* **`Candidate.Structural`**: the characters that only say where the branches are.
* **`Candidate.keeps_next`**: all others are kept along with the character in front of them.
* **`compile_escape_asTyped`**: so a complaint about an escape describes the pattern as typed,
  unless the backslash stands directly in front of group syntax; `compile_escapedGroup` is what
  happens there.
-/

namespace LineSieve

open Placed (text ofText)

namespace Candidate

/-- A character that belongs to the syntax of the groups: a parenthesis of a pair, or a bar
    directly in one. -/
def Structural (c : Candidate) (x : Placed) : Prop :=
  ∃ q ∈ pairing c, x.pos = q.opening ∨ x.pos = q.closing ∨ BarOf c q x

instance (c : Candidate) (x : Placed) : Decidable (Structural c x) :=
  inferInstanceAs (Decidable (∃ q ∈ pairing c, _))

variable {s : List Char} {choice : Choice} {x y : Placed}

theorem mem_kept {c : Candidate} : x ∈ kept c choice ↔ x ∈ c ∧ Keeps c choice x := by
  rw [kept, List.mem_filter, decide_eq_true_iff]

/-- A place of a text as typed holds one character only. -/
theorem eq_of_mem_ofText (hx : x ∈ ofText s) (hy : y ∈ ofText s) (h : x.pos = y.pos) : x = y := by
  have hchar := mem_ofText hx
  rw [h, mem_ofText hy] at hchar
  obtain ⟨pos, char⟩ := x
  obtain rfl : pos = y.pos := h
  obtain rfl : y.char = char := Option.some.inj hchar
  rfl

/-- **What follows a character that is kept is kept, too, if it is no group syntax.** The two stand
    in the same pairs, and in the same piece of each, since no parenthesis and no bar comes
    between. -/
theorem keeps_next (hx : x ∈ ofText s) (hnext : y.pos = x.pos + 1)
    (hy : ¬ Structural (ofText s) y) (h : Keeps (ofText s) choice x) :
    Keeps (ofText s) choice y := by
  intro q hq
  obtain ⟨⟨hopening, hclosing⟩, hbar, hpiece⟩ := h q hq
  refine ⟨⟨fun heq => hy ⟨q, hq, Or.inl heq⟩, fun heq => hy ⟨q, hq, Or.inr (Or.inl heq)⟩⟩,
    fun hbarOf => hy ⟨q, hq, Or.inr (Or.inr hbarOf)⟩, ?_⟩
  rintro ⟨hafter, hbefore⟩
  have hencl : q.Encloses x.pos := ⟨by omega, by omega⟩
  rw [← hpiece hencl, piece, piece]
  refine List.countP_congr fun bar hmem => ?_
  obtain ⟨hbarMem, hbarOf⟩ := List.mem_filter.mp hmem
  have hne : bar.pos ≠ x.pos := by
    intro heq
    obtain rfl := eq_of_mem_ofText hbarMem hx heq
    exact hbar (of_decide_eq_true hbarOf)
  rw [decide_eq_true_iff, decide_eq_true_iff]
  omega

/-- In ascending order nothing comes between two neighbours. -/
theorem exists_cons_of_next {front rest : Candidate} (h : Ascending (front ++ x :: rest))
    (hy : y ∈ front ++ x :: rest) (hnext : y.pos = x.pos + 1) : ∃ behind, rest = y :: behind := by
  obtain ⟨-, hrest, hfront⟩ := List.pairwise_append.mp h
  obtain ⟨hx, hrest⟩ := List.pairwise_cons.mp hrest
  rcases List.mem_append.mp hy with hy | hy
  · have := hfront y hy x List.mem_cons_self
    omega
  · rcases List.mem_cons.mp hy with rfl | hy
    · omega
    · cases rest with
      | nil => exact absurd hy List.not_mem_nil
      | cons z behind =>
          rcases List.mem_cons.mp hy with rfl | hy
          · exact ⟨behind, rfl⟩
          · have := hx z List.mem_cons_self
            have := (List.pairwise_cons.mp hrest).1 y hy
            omega

theorem ascending_kept (s : List Char) (choice : Choice) : Ascending (kept (ofText s) choice) :=
  (ascending_ofText s).sublist List.filter_sublist

theorem not_structural_of_keeps {c : Candidate} (h : Keeps c choice x) : ¬ Structural c x := by
  rintro ⟨q, hq, hopening | hclosing | hbar⟩
  · exact (h q hq).1.1 hopening
  · exact (h q hq).1.2 hclosing
  · exact (h q hq).2.1 hbar

/-- **Behind a character that is kept comes the next one of the text, unless that is group
    syntax.** -/
theorem next_of_kept {front rest : Candidate} {c : Char}
    (hkept : kept (ofText s) choice = front ++ x :: rest) (hc : s[x.pos + 1]? = some c) :
    (∃ behind, rest = ⟨x.pos + 1, c⟩ :: behind) ↔ ¬ Structural (ofText s) ⟨x.pos + 1, c⟩ := by
  have hall (y : Placed) : y ∈ front ++ x :: rest ↔ y ∈ ofText s ∧ Keeps (ofText s) choice y := by
    rw [← hkept]
    exact mem_kept
  constructor
  · rintro ⟨behind, rfl⟩
    have hnext : (⟨x.pos + 1, c⟩ : Placed) ∈ x :: ⟨x.pos + 1, c⟩ :: behind :=
      List.mem_cons_of_mem x List.mem_cons_self
    exact not_structural_of_keeps ((hall _).mp (List.mem_append_right front hnext)).2
  · intro hplain
    obtain ⟨hxText, hxKeeps⟩ := (hall x).mp (List.mem_append_right front List.mem_cons_self)
    have hyText : ⟨x.pos + 1, c⟩ ∈ ofText s := by
      refine List.mem_of_getElem? (i := x.pos + 1) ?_
      rw [Placed.getElem?_ofText, hc]
      rfl
    have hy := (hall _).mpr ⟨hyText, keeps_next hxText rfl hplain hxKeeps⟩
    have hasc := ascending_kept s choice
    rw [hkept] at hasc
    exact exists_cons_of_next hasc hy rfl

end Candidate

namespace Pattern

open Candidate (Choice kept Structural)

variable {source : List Char} {e : ParseError}

/-- The place holds group syntax: a parenthesis of a pair, or a bar directly in one. -/
def SyntaxAt (source : List Char) (i : Nat) : Prop :=
  ∃ c, source[i]? = some c ∧ Structural (ofText source) ⟨i, c⟩

theorem syntaxAt_iff {i : Nat} {c : Char} (h : source[i]? = some c) :
    SyntaxAt source i ↔ Structural (ofText source) ⟨i, c⟩ := by
  constructor
  · rintro ⟨d, hd, hstructural⟩
    obtain rfl : d = c := Option.some.inj (hd.symm.trans h)
    exact hstructural
  · intro hstructural
    exact ⟨c, h, hstructural⟩

/-- A malformed pattern has a choice that cannot be read, with the complaint about the pattern. -/
theorem exists_kept_of_malformed (h : compile source = .error (.malformed e)) :
    ∃ choice : Choice, choice.Valid (ofText source) ∧
      Sequence.ofPlaced (kept (ofText source) choice) = .error e := by
  obtain ⟨choice, hvalid, hfault⟩ := exists_choice_of_firstFault (compile_eq_malformed_iff.mp h)
  exact ⟨choice, hvalid, Sequence.ofPlaced_eq_error.mpr hfault⟩

/-- What is kept stands in the pattern where it says. -/
theorem getElem?_of_kept {choice : Choice} {front rest : Candidate} {x : Placed}
    (h : kept (ofText source) choice = front ++ x :: rest) : source[x.pos]? = some x.char := by
  have hx : (kept (ofText source) choice)[front.length]? = some x := by
    rw [h, List.getElem?_append_right (Nat.le_refl _), Nat.sub_self]
    rfl
  exact getElem?_of_mem_kept hx

/-- **A complaint about an escape describes the pattern as typed, unless group syntax stands right
    behind the backslash.** The character told is the one that some choice keeps behind the
    backslash, and it is the next one of the pattern exactly if that is no group syntax. An
    unfinished escape is a backslash that some choice keeps last, and it is the last character of
    the pattern exactly if no group syntax comes next. -/
theorem compile_escape_asTyped (source : List Char) :
    (∀ escaped pos, compile source = .error (.malformed (.unknownEscape escaped pos)) →
      source[pos]? = some '\\' ∧
        ∃ choice : Choice, choice.Valid (ofText source) ∧ ∃ front next behind,
          kept (ofText source) choice = front ++ ⟨pos, '\\'⟩ :: ⟨next, escaped⟩ :: behind ∧
            source[next]? = some escaped ∧ (next = pos + 1 ↔ ¬ SyntaxAt source (pos + 1))) ∧
    (compile source = .error (.malformed .trailingEscape) →
      ∃ pos, source[pos]? = some '\\' ∧
        (pos + 1 = source.length ↔ ¬ SyntaxAt source (pos + 1)) ∧
        ∃ choice : Choice, choice.Valid (ofText source) ∧ ∃ front,
          kept (ofText source) choice = front ++ [⟨pos, '\\'⟩]) := by
  constructor
  · intro escaped pos h
    obtain ⟨choice, hvalid, hfault⟩ := exists_kept_of_malformed h
    obtain ⟨front, ⟨next, _⟩, behind, hkept, rfl⟩ := Sequence.escape_of_ofPlaced hfault
    have hnext := getElem?_of_kept (hkept.trans (List.append_cons front _ _))
    refine ⟨getElem?_of_kept hkept, choice, hvalid, front, next, behind, hkept, hnext, ?_⟩
    have hlt : pos < next := by
      have hasc := Candidate.ascending_kept source choice
      rw [hkept] at hasc
      exact (List.pairwise_cons.mp (List.pairwise_append.mp hasc).2.1).1 _ List.mem_cons_self
    -- the pattern goes on behind the backslash, at least up to what is kept next
    have hle : pos + 1 < source.length :=
      Nat.lt_of_le_of_lt hlt (List.getElem?_eq_some_iff.mp hnext).1
    have hc := List.getElem?_eq_getElem hle
    rw [syntaxAt_iff hc, ← Candidate.next_of_kept hkept hc]
    constructor
    · rintro rfl
      rw [Option.some.inj (hc.symm.trans hnext)]
      exact ⟨behind, rfl⟩
    · rintro ⟨rest, hcons⟩
      exact congrArg Placed.pos (List.cons.inj hcons).1
  · intro h
    obtain ⟨choice, hvalid, hfault⟩ := exists_kept_of_malformed h
    obtain ⟨front, pos, hkept⟩ := Sequence.concat_of_ofPlaced hfault
    have hbackslash := getElem?_of_kept hkept
    refine ⟨pos, hbackslash, ?_, choice, hvalid, front, hkept⟩
    constructor
    · rintro hlast ⟨c, hc, -⟩
      have hlt := (List.getElem?_eq_some_iff.mp hc).1
      exact absurd hlast (Nat.ne_of_lt hlt)
    · intro hplain
      rcases Nat.eq_or_lt_of_le (List.getElem?_eq_some_iff.mp hbackslash).1 with hlast | hle
      · exact hlast
      · have hc := List.getElem?_eq_getElem hle
        rw [syntaxAt_iff hc, ← Candidate.next_of_kept hkept hc] at hplain
        obtain ⟨rest, hcons⟩ := hplain
        exact nomatch hcons

/-- In `(\x|a)b` the backslash that is reported is in front of an `x`, and `(a|b)\` ends with the
    one that is. -/
theorem compile_escapesInSight :
    compile "(\\x|a)b".toList = .error (.malformed (.unknownEscape 'x' 1)) ∧
      (∃ next, "(\\x|a)b".toList[next]? = some 'x' ∧
        (next = 2 ↔ ¬ SyntaxAt "(\\x|a)b".toList 2)) ∧
      compile "(a|b)\\".toList = .error (.malformed .trailingEscape) ∧
      ∃ pos, "(a|b)\\".toList[pos]? = some '\\' ∧
        (pos + 1 = "(a|b)\\".toList.length ↔ ¬ SyntaxAt "(a|b)\\".toList (pos + 1)) := by
  have hunknown : compile "(\\x|a)b".toList = .error (.malformed (.unknownEscape 'x' 1)) := by
    rw [compile, Candidate.ofPattern_of_oneGroup rfl (by decide) rfl]
    rfl
  have htrailing : compile "(a|b)\\".toList = .error (.malformed .trailingEscape) := by
    rw [compile, Candidate.ofPattern_of_oneGroup rfl (by decide) rfl]
    rfl
  obtain ⟨-, choice, -, front, next, behind, -, hnext, hiff⟩ :=
    (compile_escape_asTyped "(\\x|a)b".toList).1 'x' 1 hunknown
  obtain ⟨pos, hpos, hend, -⟩ := (compile_escape_asTyped "(a|b)\\".toList).2 htrailing
  exact ⟨hunknown, ⟨next, hnext, hiff⟩, htrailing, pos, hpos, hend⟩

/-- In `\(a)` the `a` is reported as what the backslash escapes, but the next character of the
    pattern is the `(`; and `(\|x)` is reported to end with a backslash, but ends with a `)`. -/
theorem compile_escapedGroup :
    compile "\\(a)".toList = .error (.malformed (.unknownEscape 'a' 0)) ∧
      "\\(a)".toList[0 + 1]? = some '(' ∧
      compile "(\\|x)".toList = .error (.malformed .trailingEscape) ∧
      "(\\|x)".toList.getLast? = some ')' := by
  refine ⟨?_, rfl, ?_, rfl⟩
  · rw [compile, Candidate.ofPattern_of_oneGroup rfl (by decide) rfl]
    rfl
  · rw [compile, Candidate.ofPattern_of_oneGroup rfl (by decide) rfl]
    rfl

end Pattern

end LineSieve
