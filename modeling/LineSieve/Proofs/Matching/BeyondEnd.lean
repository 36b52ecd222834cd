import LineSieve.Proofs.Matching.Meaning

/-!
# The end of the text and beyond

Where no character is left an optional atom has nothing to take, so it should make no difference
whether it stands in front of other atoms. At the end of the text it makes none. Beyond the end
there is one sequence for which it does. A `$` alone is compared with the length of the text and
fails; with anything in front of it, it is asked like any other atom whether it can do without a
character, and holds.

* **`matchesAt_of_length_le`**: what the walk decides from there on, a `$` alone left out.
* **`matchesAt_optional_append_iff`**: so optional atoms in front make a difference exactly to a `$`
  alone, beyond the end; `matchesAt_optionalBeyondEnd` is the smallest such case.
-/

namespace LineSieve

namespace Sequence

variable {text : List Char} {offset : Nat} {atoms optionals : Sequence}

/-- A `$` alone asks for the position, wherever it is tried. -/
theorem matchesAt_lineEnd (text : List Char) (offset : Nat) :
    matchesAt text offset [.lineEnd] = (offset == text.length) := by
  rw [matchesAt, matchesFrom]

/-- **Where no character is left every atom has to do without one.** -/
theorem matchesAt_of_length_le (h : text.length ≤ offset) (hne : atoms ≠ [.lineEnd]) :
    matchesAt text offset atoms = atoms.all (·.holdsAtEnd offset) := by
  rw [matchesAt, List.drop_of_length_le h]
  exact matchesFrom_nil_of_ne hne text.length offset

/-- Optional atoms can do without a character. -/
theorem all_holdsAtEnd_of_optional
    (h : ∀ atom ∈ optionals, atom.repetition? = some .optional) (pos : Nat) :
    optionals.all (·.holdsAtEnd pos) = true := by
  rw [List.all_eq_true]
  intro atom hmem
  have hopt := h atom hmem
  cases atom with
  | lineStart => exact nomatch hopt
  | lineEnd => exact nomatch hopt
  | chars cls times =>
      obtain rfl : times = .optional := Option.some.inj hopt
      rfl

/-- Optional atoms in front do not change what the atoms behind them can do without. -/
theorem all_holdsAtEnd_append (h : ∀ atom ∈ optionals, atom.repetition? = some .optional)
    (pos : Nat) :
    (optionals ++ atoms).all (·.holdsAtEnd pos) = atoms.all (·.holdsAtEnd pos) := by
  rw [List.all_append, all_holdsAtEnd_of_optional h, Bool.true_and]

/-- Optional atoms and more are no `$` alone, unless the rest is and nothing stands in front. -/
theorem append_eq_lineEnd_iff (h : ∀ atom ∈ optionals, atom.repetition? = some .optional) :
    optionals ++ atoms = [.lineEnd] ↔ optionals = [] ∧ atoms = [.lineEnd] := by
  rw [List.append_eq_singleton_iff]
  constructor
  · rintro (hnil | ⟨hend, -⟩)
    · exact hnil
    · -- the end of the line is not optional
      have hopt := h .lineEnd (hend ▸ List.mem_singleton_self _)
      exact nomatch hopt
  · exact Or.inl

/-- **Where no character is left optional atoms in front make no difference**, except that beyond
    the end they let a `$` hold that does not hold alone. -/
theorem matchesAt_optional_append_iff (h : text.length ≤ offset)
    (hopt : ∀ atom ∈ optionals, atom.repetition? = some .optional) :
    matchesAt text offset (optionals ++ atoms) = matchesAt text offset atoms ↔
      offset = text.length ∨ optionals = [] ∨ atoms ≠ [.lineEnd] := by
  constructor
  · intro heq
    rw [or_iff_not_imp_left, or_iff_not_imp_left]
    rintro hbeyond hfront rfl
    have hne : optionals ++ [.lineEnd] ≠ [.lineEnd] :=
      fun hend => hfront ((append_eq_lineEnd_iff hopt).mp hend).1
    rw [matchesAt_of_length_le h hne, all_holdsAtEnd_append hopt, matchesAt_lineEnd] at heq
    exact hbeyond (beq_iff_eq.mp heq.symm)
  · rintro (rfl | rfl | hne)
    · rw [matchesAt, matchesAt, List.drop_length, matchesFrom_nil, matchesFrom_nil,
        all_holdsAtEnd_append hopt]
    · rfl
    · have hne' : optionals ++ atoms ≠ [.lineEnd] :=
        fun hend => hne ((append_eq_lineEnd_iff hopt).mp hend).2
      rw [matchesAt_of_length_le h hne', matchesAt_of_length_le h hne, all_holdsAtEnd_append hopt]

/-- Two optional atoms in front of `$$`, beyond the end of a text, make no difference. -/
theorem matchesAt_optionalDollars :
    "ab".toList.length ≤ 3 ∧
      (∀ atom ∈ [Atom.chars .digit .optional, .chars .any .optional],
        atom.repetition? = some .optional) ∧
      matchesAt "ab".toList 3
          ([.chars .digit .optional, .chars .any .optional] ++ [.lineEnd, .lineEnd]) =
        matchesAt "ab".toList 3 [.lineEnd, .lineEnd] := by
  have hlength : "ab".toList.length ≤ 3 := Nat.le_succ 2
  have hopt : ∀ atom ∈ [Atom.chars .digit .optional, .chars .any .optional],
      atom.repetition? = some .optional :=
    List.forall_mem_cons.mpr ⟨rfl, List.forall_mem_singleton.mpr rfl⟩
  refine ⟨hlength, hopt, (matchesAt_optional_append_iff hlength hopt).mpr ?_⟩
  exact Or.inr (Or.inr fun heq => nomatch heq)

/-- At position 1 of the empty text `$` does not hold, and `a?$` does. -/
theorem matchesAt_optionalBeyondEnd :
    ([] : List Char).length ≤ 1 ∧
      (∀ atom ∈ [Atom.chars (.literal 'a') .optional], atom.repetition? = some .optional) ∧
      matchesAt [] 1 [.lineEnd] = false ∧
      matchesAt [] 1 ([.chars (.literal 'a') .optional] ++ [.lineEnd]) = true := by
  refine ⟨Nat.zero_le 1, ?_, rfl, rfl⟩
  exact List.forall_mem_singleton.mpr rfl

end Sequence

end LineSieve
