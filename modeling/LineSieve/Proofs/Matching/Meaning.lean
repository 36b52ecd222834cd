import LineSieve.Sequence.Matching
import Mathlib.Tactic.Common

/-!
# What a sequence of atoms means

The matcher walks along the text with two early exits, one for a last `$` and one for the end of
the text, and gives characters of a `+` back in the middle of its walk. What it decides is a
meaning given atom by atom, at one position of the text:

* **`HoldsAt`**: an anchor asks for a position, a class takes characters and hands the position
  behind them to the atoms that follow. An optional class is possessive: it takes its character
  whenever there is one.
* **`matchesAt_iff_holdsAt`**: the walk from any offset of the text decides `HoldsAt` there.
* **`occursIn_iff_holdsAt`**: looking for a sequence decides whether `HoldsAt` is true at some
  offset, also for sequences that begin with `^` and are tried at the first position only.
-/

namespace LineSieve

namespace CharClass

/-- The text has a character of the class at position `i`. -/
def AcceptsAt (cls : CharClass) (text : List Char) (i : Nat) : Prop :=
  ∃ h : i < text.length, cls.accepts text[i] = true

instance (cls : CharClass) (text : List Char) (i : Nat) : Decidable (cls.AcceptsAt text i) :=
  inferInstanceAs (Decidable (∃ _ : i < text.length, _))

theorem not_acceptsAt_length (cls : CharClass) (text : List Char) :
    ¬ cls.AcceptsAt text text.length :=
  fun ⟨h, _⟩ => Nat.lt_irrefl _ h

/-- Every character from position `i` up to but not including `j` is of the class, and there is
    at least one. -/
def Run (cls : CharClass) (text : List Char) (i j : Nat) : Prop :=
  i < j ∧ ∀ k < j, i ≤ k → cls.AcceptsAt text k

instance (cls : CharClass) (text : List Char) (i j : Nat) : Decidable (cls.Run text i j) :=
  inferInstanceAs (Decidable (_ ∧ _))

/-- A run of one character more in front. -/
theorem run_iff (cls : CharClass) (text : List Char) (i j : Nat) :
    cls.Run text i j ↔ cls.AcceptsAt text i ∧ (j = i + 1 ∨ cls.Run text (i + 1) j) := by
  constructor
  · rintro ⟨hlt, hall⟩
    refine ⟨hall i hlt (Nat.le_refl i), ?_⟩
    rcases Nat.eq_or_lt_of_le (Nat.succ_le_of_lt hlt) with h | h
    · exact Or.inl h.symm
    · exact Or.inr ⟨h, fun k hk hik => hall k hk (Nat.le_of_succ_le hik)⟩
  · rintro ⟨hi, rfl | ⟨hlt, hall⟩⟩
    · refine ⟨Nat.lt_succ_self i, fun k hk hik => ?_⟩
      obtain rfl : k = i := by omega
      exact hi
    · refine ⟨Nat.lt_of_succ_lt hlt, fun k hk hik => ?_⟩
      rcases Nat.eq_or_lt_of_le hik with rfl | h
      · exact hi
      · exact hall k hk h

/-- `runs` finds the ends of the runs from a position on, each with the text behind it. -/
theorem mem_runs (cls : CharClass) (text : List Char) (i : Nat) (hi : i ≤ text.length)
    (found : List (Nat × List Char)) (split : Nat × List Char) :
    split ∈ cls.runs i (text.drop i) found ↔
      (split.1 ≤ text.length ∧ cls.Run text i split.1 ∧ split.2 = text.drop split.1) ∨
        split ∈ found := by
  rcases Nat.eq_or_lt_of_le hi with rfl | hlt
  · rw [List.drop_length, runs]
    constructor
    · exact Or.inr
    · rintro (⟨hle, ⟨hlt, -⟩, -⟩ | h)
      · exact absurd hle (Nat.not_le.mpr hlt)
      · exact h
  · rw [List.drop_eq_getElem_cons hlt, runs]
    by_cases hc : cls.accepts text[i] = true
    · rw [if_pos hc, mem_runs cls text (i + 1) hlt, List.mem_cons]
      have hi : cls.AcceptsAt text i := ⟨hlt, hc⟩
      constructor
      · rintro (⟨hle, hrun, htext⟩ | rfl | h)
        · exact Or.inl ⟨hle, (run_iff cls text i _).mpr ⟨hi, Or.inr hrun⟩, htext⟩
        · exact Or.inl ⟨hlt, (run_iff cls text i _).mpr ⟨hi, Or.inl rfl⟩, rfl⟩
        · exact Or.inr h
      · rintro (⟨hle, hrun, htext⟩ | h)
        · rcases ((run_iff cls text i _).mp hrun).2 with hend | hrun
          · exact Or.inr (Or.inl (Prod.ext hend (hend ▸ htext)))
          · exact Or.inl ⟨hle, hrun, htext⟩
        · exact Or.inr (Or.inr h)
    · rw [if_neg hc]
      constructor
      · exact Or.inr
      · rintro (⟨-, hrun, -⟩ | h)
        · obtain ⟨⟨_, h⟩, -⟩ := (run_iff cls text i _).mp hrun
          exact absurd h hc
        · exact h
termination_by text.length - i

end CharClass

namespace Sequence

/-- The meaning of a sequence at position `i`: a possessive `?`, and any run for a `+`. -/
def HoldsAt (text : List Char) : Nat → Sequence → Prop
  | _, [] => True
  | i, .lineStart :: rest => i = 0 ∧ HoldsAt text i rest
  | i, .lineEnd :: rest => i = text.length ∧ HoldsAt text i rest
  | i, .chars cls .once :: rest => cls.AcceptsAt text i ∧ HoldsAt text (i + 1) rest
  | i, .chars cls .optional :: rest =>
      if cls.AcceptsAt text i then HoldsAt text (i + 1) rest else HoldsAt text i rest
  | i, .chars cls .oneOrMore :: rest =>
      ∃ j ≤ text.length, cls.Run text i j ∧ HoldsAt text j rest

/-- The meaning can be computed: only positions of the text come into question. -/
instance decidableHoldsAt (text : List Char) :
    (i : Nat) → (atoms : Sequence) → Decidable (HoldsAt text i atoms)
  | _, [] => .isTrue trivial
  | i, .lineStart :: rest =>
      have := decidableHoldsAt text i rest
      inferInstanceAs (Decidable (_ ∧ _))
  | i, .lineEnd :: rest =>
      have := decidableHoldsAt text i rest
      inferInstanceAs (Decidable (_ ∧ _))
  | i, .chars _ .once :: rest =>
      have := decidableHoldsAt text (i + 1) rest
      inferInstanceAs (Decidable (_ ∧ _))
  | i, .chars cls .optional :: rest =>
      have := decidableHoldsAt text i rest
      have := decidableHoldsAt text (i + 1) rest
      inferInstanceAs (Decidable
        (if cls.AcceptsAt text i then HoldsAt text (i + 1) rest else HoldsAt text i rest))
  | _, .chars _ .oneOrMore :: rest =>
      have := fun j => decidableHoldsAt text j rest
      inferInstanceAs (Decidable (∃ j ≤ text.length, _))

/-! ## The end of the text -/

/-- At the end of the text an atom holds exactly if it can do without a character. -/
theorem holdsAt_length (text : List Char) (atoms : Sequence) :
    HoldsAt text text.length atoms ↔ atoms.all (·.holdsAtEnd text.length) = true := by
  induction atoms with
  | nil => exact ⟨fun _ => rfl, fun _ => trivial⟩
  | cons atom rest ih =>
      rw [List.all_cons, Bool.and_eq_true, ← ih]
      cases atom with
      | lineStart => simp only [HoldsAt, Atom.holdsAtEnd, beq_iff_eq]
      | lineEnd => simp only [HoldsAt, Atom.holdsAtEnd]
      | chars cls times =>
          cases times with
          | once =>
              constructor
              · rintro ⟨h, -⟩
                exact absurd h (cls.not_acceptsAt_length text)
              · rintro ⟨h, -⟩
                exact absurd h (by simp [Atom.holdsAtEnd])
          | optional =>
              simp only [HoldsAt, if_neg (cls.not_acceptsAt_length text)]
              exact ⟨fun h => ⟨rfl, h⟩, fun h => h.2⟩
          | oneOrMore =>
              constructor
              · rintro ⟨j, hj, ⟨hlt, -⟩, -⟩
                exact absurd hj (Nat.not_le.mpr hlt)
              · rintro ⟨h, -⟩
                exact absurd h (by simp [Atom.holdsAtEnd])

/-- Without a character left the walk asks each atom whether it can do without one, but a `$` alone
    it asks for the position. -/
theorem matchesFrom_nil_of_ne {atoms : Sequence} (h : atoms ≠ [.lineEnd]) (length pos : Nat) :
    matchesFrom length atoms pos [] = atoms.all (·.holdsAtEnd pos) := by
  cases atoms with
  | nil => rfl
  | cons atom rest =>
      rw [matchesFrom]
      rintro rfl rfl
      exact h rfl

/-- At the very end a `$` alone is no exception. -/
theorem matchesFrom_nil (length : Nat) (atoms : Sequence) :
    matchesFrom length atoms length [] = atoms.all (·.holdsAtEnd length) := by
  by_cases h : atoms = [.lineEnd]
  · rw [h, matchesFrom]
    exact beq_self_eq_true length
  · exact matchesFrom_nil_of_ne h length length

/-! ## The walk -/

/-- **The walk decides the meaning.** From any position of the text on, with the text that
    remains there; by induction on the atoms. -/
theorem matchesFrom_iff_holdsAt (text : List Char) (atoms : Sequence) (i : Nat)
    (hi : i ≤ text.length) :
    matchesFrom text.length atoms i (text.drop i) = true ↔ HoldsAt text i atoms := by
  induction atoms generalizing i with
  | nil => exact ⟨fun _ => trivial, fun _ => rfl⟩
  | cons atom rest ih =>
      rcases Nat.eq_or_lt_of_le hi with rfl | hlt
      · rw [List.drop_length, matchesFrom_nil, holdsAt_length]
      · have hdrop := List.drop_eq_getElem_cons hlt
        cases atom with
        | lineStart =>
            have hrest := ih i hi
            rw [hdrop] at hrest ⊢
            rw [matchesFrom, Bool.and_eq_true, hrest, beq_iff_eq]
            exact Iff.rfl
        | lineEnd =>
            have hne : i ≠ text.length := Nat.ne_of_lt hlt
            rw [hdrop]
            cases rest with
            | nil =>
                rw [matchesFrom, beq_iff_eq]
                exact ⟨fun h => absurd h hne, fun h => h.1⟩
            | cons next rest =>
                rw [matchesFrom]
                exact ⟨fun h => Bool.noConfusion h, fun h => absurd h.1 hne⟩
        | chars cls times =>
            have haccepts : cls.AcceptsAt text i ↔ cls.accepts text[i] = true :=
              ⟨fun ⟨_, h⟩ => h, fun h => ⟨hlt, h⟩⟩
            cases times with
            | once =>
                rw [hdrop, matchesFrom, Bool.and_eq_true, ih (i + 1) hlt, ← haccepts]
                exact Iff.rfl
            | optional =>
                have hrest := ih i hi
                rw [hdrop] at hrest ⊢
                rw [matchesFrom, HoldsAt]
                by_cases hc : cls.AcceptsAt text i
                · rw [if_pos hc, if_pos (haccepts.mp hc), ih (i + 1) hlt]
                · rw [if_neg hc, if_neg (mt haccepts.mpr hc), hrest]
            | oneOrMore =>
                -- `ih` serves at every end of a run, so the order in which they are tried is
                -- of no account
                rw [hdrop, matchesFrom, ← hdrop, List.any_eq_true]
                constructor
                · rintro ⟨⟨j, behind⟩, hmem, hmatch⟩
                  rcases (cls.mem_runs text i hi [] _).mp hmem with ⟨hj, hrun, hbehind⟩ | h
                  · obtain rfl : behind = text.drop j := hbehind
                    exact ⟨j, hj, hrun, (ih j hj).mp hmatch⟩
                  · exact absurd h List.not_mem_nil
                · rintro ⟨j, hj, hrun, hholds⟩
                  exact ⟨(j, text.drop j),
                    (cls.mem_runs text i hi [] _).mpr (Or.inl ⟨hj, hrun, rfl⟩),
                    (ih j hj).mpr hholds⟩

/-- **The walk from an offset of the text decides the meaning there.** -/
theorem matchesAt_iff_holdsAt (text : List Char) (offset : Nat) (atoms : Sequence)
    (h : offset ≤ text.length) :
    matchesAt text offset atoms = true ↔ HoldsAt text offset atoms :=
  matchesFrom_iff_holdsAt text atoms offset h

/-! ## The whole text -/

/-- Trying every position from `pos` on finds a match exactly if there is one. -/
theorem matchesBeyond_eq_true (length : Nat) (atoms : Sequence) (pos : Nat) (rest : List Char) :
    matchesBeyond length atoms pos rest = true ↔
      ∃ k ≤ rest.length, matchesFrom length atoms (pos + k) (rest.drop k) = true := by
  induction rest generalizing pos with
  | nil =>
      constructor
      · intro h
        exact ⟨0, Nat.le_refl 0, h⟩
      · rintro ⟨k, hk, h⟩
        obtain rfl := Nat.le_zero.mp hk
        exact h
  | cons c rest ih =>
      rw [matchesBeyond, Bool.or_eq_true, ih]
      constructor
      · rintro (h | ⟨k, hk, h⟩)
        · exact ⟨0, Nat.zero_le _, h⟩
        · refine ⟨k + 1, Nat.succ_le_succ hk, ?_⟩
          rw [List.drop_succ_cons, Nat.add_comm k 1, ← Nat.add_assoc]
          exact h
      · rintro ⟨k, hk, h⟩
        cases k with
        | zero => exact Or.inl h
        | succ k =>
            refine Or.inr ⟨k, Nat.le_of_succ_le_succ hk, ?_⟩
            rw [List.drop_succ_cons, Nat.add_comm k 1, ← Nat.add_assoc] at h
            exact h

/-- A sequence occurs in a text exactly if it holds at some offset, the end included. -/
theorem occursIn_iff_holdsAt (text : List Char) (atoms : Sequence) :
    occursIn text atoms = true ↔ ∃ offset ≤ text.length, HoldsAt text offset atoms := by
  have scan : matchesBeyond text.length atoms 0 text = true ↔
      ∃ offset ≤ text.length, HoldsAt text offset atoms := by
    rw [matchesBeyond_eq_true]
    refine exists_congr fun offset => and_congr_right fun h => ?_
    rw [Nat.zero_add]
    exact matchesFrom_iff_holdsAt text atoms offset h
  cases atoms with
  | nil => exact scan
  | cons atom rest =>
      cases atom with
      | lineEnd => exact scan
      | chars cls times => exact scan
      | lineStart =>
          -- the anchor is dropped, and with it every offset but the first
          rw [occursIn, matchesAt_iff_holdsAt text 0 rest (Nat.zero_le _)]
          constructor
          · intro h
            exact ⟨0, Nat.zero_le _, rfl, h⟩
          · rintro ⟨offset, -, rfl, h⟩
            exact h

/-- Looking for a sequence that has atoms always gives an answer. -/
theorem search_of_ne_nil (text : List Char) {atoms : Sequence} (hne : atoms ≠ []) :
    search text atoms = .ok (occursIn text atoms) := by
  rw [search, if_neg (by simpa using hne)]

/-- **Matching decides the meaning.** At every offset of the text the walk is true exactly if the
    sequence holds there, and looking for a sequence that has atoms is true exactly if it holds
    at some offset. Nothing is asked of the atoms: anchors may stand anywhere and any number of
    times. -/
theorem matchesAt_eq_and_search_eq (text : List Char) (atoms : Sequence) :
    (∀ offset ≤ text.length,
      matchesAt text offset atoms = decide (HoldsAt text offset atoms)) ∧
    (atoms ≠ [] →
      search text atoms = .ok (decide (∃ offset ≤ text.length, HoldsAt text offset atoms))) := by
  refine ⟨fun offset h => ?_, fun hne => ?_⟩
  · rw [Bool.eq_iff_iff, decide_eq_true_iff]
    exact matchesAt_iff_holdsAt text offset atoms h
  · have hocc : occursIn text atoms =
        decide (∃ offset ≤ text.length, HoldsAt text offset atoms) := by
      rw [Bool.eq_iff_iff, decide_eq_true_iff]
      exact occursIn_iff_holdsAt text atoms
    rw [search_of_ne_nil text hne, hocc]

/-- The atoms of `a+ab?$`. -/
def runAndOneMore : Sequence :=
  [.chars (.literal 'a') .oneOrMore, .one (.literal 'a'), .chars (.literal 'b') .optional,
    .lineEnd]

/-- In `aaa` the run of `a+ab?$` has to give one `a` back, and from the last `a` on it cannot. -/
theorem search_runAndOneMore :
    (0 ≤ 3 ∧ 2 ≤ 3 ∧ runAndOneMore ≠ []) ∧
    matchesAt ['a', 'a', 'a'] 0 runAndOneMore = true ∧
    matchesAt ['a', 'a', 'a'] 2 runAndOneMore = false ∧
    search ['a', 'a', 'a'] runAndOneMore = .ok true := by
  have meaning := matchesAt_eq_and_search_eq ['a', 'a', 'a'] runAndOneMore
  refine ⟨⟨by decide, by decide, by decide⟩, ?_, ?_, ?_⟩
  · rw [meaning.1 0 (by decide)]
    decide
  · rw [meaning.1 2 (by decide)]
    decide
  · rw [meaning.2 (by decide)]
    exact congrArg Except.ok (by decide)

end Sequence

end LineSieve
