import LineSieve.Proofs.Compiling
import LineSieve.Proofs.Matching.Backtracking

/-!
# Matches in a longer text

Only anchors ask what stands around a match. Without `^` the matcher does the same behind any other
text, at every offset, also beyond the end. Without `$` a match stays one when text is added behind
it. The walk may well change there: an optional class that had no character left may find one and
keep it. But the atoms that hold where the text ends are all optional then, and such atoms hold
everywhere.

* **`matchesAt_append_left`**: text in front moves the offset.
* **`HoldsAt.append_right`**: text behind loses nothing.
* **`matches_in_longer_text`**: both for the walk and for compiled patterns, whose anchors are at
  the ends of their candidates.
-/

namespace LineSieve

/-! ## Text in front -/

theorem Atom.holdsAtEnd_add {atom : Atom} (h : atom ≠ .lineStart) (k pos : Nat) :
    atom.holdsAtEnd (k + pos) = atom.holdsAtEnd pos := by
  cases atom with
  | lineStart => exact absurd rfl h
  | lineEnd => rfl
  | chars cls times => rfl

theorem CharClass.runs_add (cls : CharClass) (k pos : Nat) (rest : List Char)
    (found : List (Nat × List Char)) :
    cls.runs (k + pos) rest (found.map (Prod.map (k + ·) id)) =
      (cls.runs pos rest found).map (Prod.map (k + ·) id) := by
  induction rest generalizing pos found with
  | nil => rfl
  | cons c rest ih =>
      rw [runs, runs]
      split
      · exact ih (pos + 1) ((pos + 1, rest) :: found)
      · rfl

namespace Sequence

/-- Without `^` only the distance to the end of the text counts. -/
theorem matchesFrom_add (k length : Nat) {atoms : Sequence} (h : .lineStart ∉ atoms) (pos : Nat)
    (rest : List Char) :
    matchesFrom (k + length) atoms (k + pos) rest = matchesFrom length atoms pos rest := by
  fun_induction matchesFrom length atoms pos rest with
  | case1 => rw [matchesFrom]
  | case2 pos =>
      rw [matchesFrom, Bool.eq_iff_iff, beq_iff_eq, beq_iff_eq]
      exact Nat.add_left_cancel_iff
  | case3 atom atoms pos hlast =>
      have hall : ∀ other ∈ atom :: atoms, other.holdsAtEnd (k + pos) = other.holdsAtEnd pos := by
        intro other hmem
        exact Atom.holdsAtEnd_add (fun heq => h (heq ▸ hmem)) k pos
      rw [matchesFrom]
      · rw [Bool.eq_iff_iff, List.all_eq_true, List.all_eq_true]
        exact forall₂_congr fun other hmem => by rw [hall other hmem]
      · exact hlast
  | case4 => exact absurd List.mem_cons_self h
  | case5 => rw [matchesFrom]
  | case6 cls atoms pos c rest ih =>
      rw [matchesFrom, Nat.add_assoc, ih (List.not_mem_of_not_mem_cons h)]
  | case7 cls atoms pos c rest hc ih =>
      rw [matchesFrom, if_pos hc, Nat.add_assoc, ih (List.not_mem_of_not_mem_cons h)]
  | case8 cls atoms pos c rest hc ih =>
      rw [matchesFrom, if_neg hc, ih (List.not_mem_of_not_mem_cons h)]
  | case9 cls atoms pos c rest ih =>
      rw [matchesFrom, show cls.runs (k + pos) (c :: rest) [] = _ from
        cls.runs_add k pos (c :: rest) [], List.any_map]
      exact List.any_congr rfl fun split => ih split.1 split.2 (List.not_mem_of_not_mem_cons h)

/-- **Text in front moves the offset** and changes nothing else, if no atom is a `^`. -/
theorem matchesAt_append_left (front text : List Char) (offset : Nat) {atoms : Sequence}
    (h : .lineStart ∉ atoms) :
    matchesAt (front ++ text) (front.length + offset) atoms = matchesAt text offset atoms := by
  rw [matchesAt, List.length_append, List.drop_length_add_append]
  exact matchesFrom_add front.length text.length h offset (text.drop offset)

theorem occursIn_append_left (front : List Char) {text : List Char} {atoms : Sequence}
    (hstart : .lineStart ∉ atoms) (h : occursIn text atoms = true) :
    occursIn (front ++ text) atoms = true := by
  obtain ⟨offset, hle, hholds⟩ := (occursIn_iff_holdsAt text atoms).mp h
  have hle' : front.length + offset ≤ (front ++ text).length :=
    List.length_append ▸ Nat.add_le_add_left hle front.length
  refine (occursIn_iff_holdsAt _ atoms).mpr ⟨front.length + offset, hle', ?_⟩
  rw [← matchesAt_iff_holdsAt _ _ _ hle', matchesAt_append_left front text offset hstart]
  exact (matchesAt_iff_holdsAt text offset atoms hle).mpr hholds

end Sequence

/-! ## Text behind -/

namespace CharClass

theorem AcceptsAt.append_right {cls : CharClass} {text : List Char} {i : Nat}
    (h : cls.AcceptsAt text i) (behind : List Char) : cls.AcceptsAt (text ++ behind) i := by
  obtain ⟨hlt, haccepts⟩ := h
  refine ⟨Nat.lt_of_lt_of_le hlt (List.prefix_append text behind).length_le, ?_⟩
  rwa [List.getElem_append_left hlt]

/-- Before its end a text has the same characters whatever comes behind. -/
theorem acceptsAt_append_right {cls : CharClass} {text : List Char} {i : Nat}
    (hlt : i < text.length) (behind : List Char) :
    cls.AcceptsAt (text ++ behind) i ↔ cls.AcceptsAt text i := by
  refine ⟨?_, fun h => h.append_right behind⟩
  rintro ⟨_, haccepts⟩
  rw [List.getElem_append_left hlt] at haccepts
  exact ⟨hlt, haccepts⟩

theorem Run.append_right {cls : CharClass} {text : List Char} {i j : Nat} (h : cls.Run text i j)
    (behind : List Char) : cls.Run (text ++ behind) i j :=
  ⟨h.1, fun k hk hik => (h.2 k hk hik).append_right behind⟩

end CharClass

namespace Sequence

/-- Where the text ends, atoms that hold there are optional, if no anchors are among them. -/
theorem all_optional_of_holdsAt_length {text : List Char} {atoms : Sequence}
    (hstart : .lineStart ∉ atoms) (hend : .lineEnd ∉ atoms)
    (h : HoldsAt text text.length atoms) : ∀ atom ∈ atoms, ∃ cls, atom = .chars cls .optional := by
  intro atom hmem
  have hatom := List.all_eq_true.mp ((holdsAt_length text atoms).mp h) atom hmem
  cases atom with
  | lineStart => exact absurd hmem hstart
  | lineEnd => exact absurd hmem hend
  | chars cls times =>
      obtain rfl : times = .optional := beq_iff_eq.mp hatom
      exact ⟨cls, rfl⟩

/-- **Text behind loses nothing** that has no anchors. The induction is on the atoms; only an
    optional class for which there was no character is of interest. -/
theorem HoldsAt.append_right {text : List Char} {atoms : Sequence} {i : Nat}
    (h : HoldsAt text i atoms) (hi : i ≤ text.length) (hstart : .lineStart ∉ atoms)
    (hend : .lineEnd ∉ atoms) (behind : List Char) : HoldsAt (text ++ behind) i atoms := by
  induction atoms generalizing i with
  | nil => trivial
  | cons atom rest ih =>
      have ih {i : Nat} (h : HoldsAt text i rest) (hi : i ≤ text.length) :
          HoldsAt (text ++ behind) i rest :=
        ih h hi (List.not_mem_of_not_mem_cons hstart) (List.not_mem_of_not_mem_cons hend)
      cases atom with
      | lineStart => exact absurd List.mem_cons_self hstart
      | lineEnd => exact absurd List.mem_cons_self hend
      | chars cls times =>
          cases times with
          | once => exact ⟨h.1.append_right behind, ih h.2 h.1.1⟩
          | oneOrMore =>
              obtain ⟨j, hj, hrun, hrest⟩ := h
              exact ⟨j, Nat.le_trans hj (List.prefix_append text behind).length_le,
                hrun.append_right behind, ih hrest hj⟩
          | optional =>
              rcases Nat.eq_or_lt_of_le hi with rfl | hlt
              · -- nobody behind needs a character, so it does not matter who takes the new ones
                exact holdsAt_of_all_optional (all_optional_of_holdsAt_length hstart hend h) _
              · rw [HoldsAt] at h ⊢
                simp only [CharClass.acceptsAt_append_right hlt behind]
                by_cases hc : cls.AcceptsAt text i
                · rw [if_pos hc] at h ⊢
                  exact ih h hlt
                · rw [if_neg hc] at h ⊢
                  exact ih h hi

/-- A `^` in front of all other atoms does no harm, since it holds at the beginning of the longer
    text, too. -/
theorem occursIn_append_right {text : List Char} {atoms : Sequence}
    (hstart : .lineStart ∉ atoms.tail) (hend : .lineEnd ∉ atoms) (h : occursIn text atoms = true)
    (behind : List Char) : occursIn (text ++ behind) atoms = true := by
  obtain ⟨offset, hle, hholds⟩ := (occursIn_iff_holdsAt text atoms).mp h
  refine (occursIn_iff_holdsAt _ atoms).mpr
    ⟨offset, Nat.le_trans hle (List.prefix_append text behind).length_le, ?_⟩
  cases atoms with
  | nil => trivial
  | cons first rest =>
      by_cases hfirst : .lineStart = first
      · subst hfirst
        have hend' : .lineEnd ∉ rest := List.not_mem_of_not_mem_cons hend
        exact ⟨hholds.1, hholds.2.append_right hle hstart hend' behind⟩
      · exact hholds.append_right hle (List.not_mem_cons_of_ne_of_not_mem hfirst hstart) hend behind

end Sequence

namespace Pattern

theorem wellFormed_of_mem_candidates {source : List Char} {p : Pattern}
    (h : compile source = .ok p) {atoms : Sequence} (hmem : atoms ∈ p.candidates) :
    atoms.WellFormed := by
  obtain ⟨-, hreads, -⟩ := compile_eq_ok_iff.mp h
  obtain ⟨s, -, hread⟩ := (mem_of_reads hreads).mp hmem
  exact (Sequence.spelledBy_of_parse hread).1

theorem isMatch_iff_occursIn {p : Pattern} {text : List Char} :
    p.isMatch text = true ↔ ∃ atoms ∈ p.candidates, Sequence.occursIn text atoms = true :=
  List.any_eq_true

end Pattern

/-- **Matches stay matches in a longer text.** Without a `^` the walk does the same behind any
    text in front, from every offset. A compiled pattern without `$` still matches when text comes
    behind, and one without `^` when text comes in front. -/
theorem matches_in_longer_text :
    (∀ (front text : List Char) (offset : Nat) (atoms : Sequence), .lineStart ∉ atoms →
      Sequence.matchesAt (front ++ text) (front.length + offset) atoms =
        Sequence.matchesAt text offset atoms) ∧
    ∀ (source : List Char) (p : Pattern), Pattern.compile source = .ok p →
      ∀ front text behind : List Char, p.isMatch text = true →
        ((∀ atoms ∈ p.candidates, .lineEnd ∉ atoms) → p.isMatch (text ++ behind) = true) ∧
        ((∀ atoms ∈ p.candidates, .lineStart ∉ atoms) → p.isMatch (front ++ text) = true) := by
  constructor
  · intro front text offset atoms hstart
    exact Sequence.matchesAt_append_left front text offset hstart
  · intro source p hp front text behind hmatch
    obtain ⟨atoms, hmem, hoccurs⟩ := Pattern.isMatch_iff_occursIn.mp hmatch
    have hanchors := (Pattern.wellFormed_of_mem_candidates hp hmem).anchors
    constructor
    · intro hend
      exact Pattern.isMatch_iff_occursIn.mpr ⟨atoms, hmem,
        Sequence.occursIn_append_right hanchors.1 (hend atoms hmem) hoccurs behind⟩
    · intro hstart
      exact Pattern.isMatch_iff_occursIn.mpr ⟨atoms, hmem,
        Sequence.occursIn_append_left front (hstart atoms hmem) hoccurs⟩

/-- The atoms of `ab?`. -/
def optionalBehind : Sequence :=
  [.one (.literal 'a'), .chars (.literal 'b') .optional]

/-- `ab?` matches `a`, where the optional class has no character. So it matches `xa`, and also `ab`,
    where the class takes the new one. And beyond the end `b?` finds the same behind `xy`. -/
theorem matches_optionalBehind :
    (Pattern.compile "ab?".toList = .ok ⟨"ab?".toList, [optionalBehind]⟩ ∧
      (∀ atoms ∈ [optionalBehind], .lineEnd ∉ atoms) ∧
      (∀ atoms ∈ [optionalBehind], .lineStart ∉ atoms) ∧ .lineStart ∉ optionalBehind.tail) ∧
    (Pattern.mk "ab?".toList [optionalBehind]).isMatch "a".toList = true ∧
    (Pattern.mk "ab?".toList [optionalBehind]).isMatch "ab".toList = true ∧
    (Pattern.mk "ab?".toList [optionalBehind]).isMatch "xa".toList = true ∧
    Sequence.matchesAt "xya".toList (2 + 5) optionalBehind.tail = true := by
  have hp : Pattern.compile "ab?".toList = .ok ⟨"ab?".toList, [optionalBehind]⟩ := by cbv
  have hend : ∀ atoms ∈ [optionalBehind], .lineEnd ∉ atoms := by decide
  have hstart : ∀ atoms ∈ [optionalBehind], .lineStart ∉ atoms := by decide
  have hmatch : (Pattern.mk "ab?".toList [optionalBehind]).isMatch "a".toList = true := by decide
  obtain ⟨hwalk, hpattern⟩ := matches_in_longer_text
  obtain ⟨hbehind, hfront⟩ := hpattern _ _ hp "x".toList "a".toList "b".toList hmatch
  refine ⟨⟨hp, hend, hstart, by decide⟩, hmatch, hbehind hend, hfront hstart, ?_⟩
  exact (hwalk "xy".toList "a".toList 5 optionalBehind.tail (by decide)).trans (by decide)

end LineSieve
