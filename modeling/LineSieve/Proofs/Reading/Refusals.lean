import LineSieve.Proofs.Reading.Steps

/-!
# What a reader refuses

`Refuses p c e` says that the reader `p` does not take the character `c` and complains `e`, with
one constructor for each thing that can be wrong with a character. Where reading fails, it fails
at one character or at the end, and the reader complains about that character or about one that
it has kept in mind: the backslash, bracket or `$` that it is behind.

* **`step_eq_error_iff`**: what a reader refuses is where its step fails.
* **`foldlM_step_eq_error`**: a run fails at one character, which its reader refuses.
* **`culprit_mem_of_ofPlaced`**: a complaint is about one of the characters read.
* **`escape_of_ofPlaced`**, **`concat_of_ofPlaced`**: an unknown escape is told with the character
  behind its backslash, and an unfinished one where a backslash comes last.
-/

namespace LineSieve

/-- The character that a complaint is about, if it names a place. -/
def ParseError.culprit? : ParseError → Option Placed
  | .emptyGroup pos => some ⟨pos, '['⟩
  | .misplacedCaret pos => some ⟨pos, '^'⟩
  | .danglingQuantifier quantifier pos => some ⟨pos, quantifier⟩
  | .unknownEscape _ pos => some ⟨pos, '\\'⟩
  | .trailingEscape => none
  | .unclosedGroup pos => some ⟨pos, '['⟩
  | .misplacedAnchor anchor pos => some ⟨pos, anchor⟩

namespace Parser

/-- The character that a reader in the middle of something is behind. -/
def Mode.mark? : Mode → Option Placed
  | .between => none
  | .escape start => some ⟨start, '\\'⟩
  | .opening opened => some ⟨opened, '['⟩
  | .inside opened _ _ => some ⟨opened, '['⟩
  | .ended dollar => some ⟨dollar, '$'⟩

/-- The ways in which a reader refuses a character. -/
inductive Refuses : Parser → Placed → ParseError → Prop where
  | caret {atoms : List Atom} {c : Placed} (hc : c.char = '^') (hatoms : atoms ≠ []) :
      Refuses ⟨atoms, .between⟩ c (.misplacedAnchor c.char c.pos)
  | quantifier {atoms : List Atom} {c : Placed} (hc : c.char = '+' ∨ c.char = '?')
      (hnone : ∀ cls times rest, atoms ≠ .chars cls times :: rest) :
      Refuses ⟨atoms, .between⟩ c (.danglingQuantifier c.char c.pos)
  | unknown {atoms : List Atom} {start : Nat} {c : Placed} (hdigit : c.char ≠ 'd')
      (hword : c.char ≠ 'w') :
      Refuses ⟨atoms, .escape start⟩ c (.unknownEscape c.char start)
  | empty {atoms : List Atom} {opened : Nat} {c : Placed} (hc : c.char = ']') :
      Refuses ⟨atoms, .opening opened⟩ c (.emptyGroup opened)
  | memberless {atoms : List Atom} {opened : Nat} {negated : Bool} {c : Placed}
      (hc : c.char = ']') :
      Refuses ⟨atoms, .inside opened negated []⟩ c (.emptyGroup opened)
  | inner {atoms : List Atom} {opened : Nat} {negated : Bool} {members : List Char} {c : Placed}
      (hc : c.char = '^') :
      Refuses ⟨atoms, .inside opened negated members⟩ c (.misplacedCaret c.pos)
  | behind {atoms : List Atom} {dollar : Nat} {c : Placed} :
      Refuses ⟨atoms, .ended dollar⟩ c (.misplacedAnchor '$' dollar)

theorem refuses_of_quantify {p : Parser} {times : Repetition} {c : Placed} {e : ParseError}
    (hmode : p.mode = .between) (hc : c.char = '+' ∨ c.char = '?')
    (h : p.quantify times c = .error e) : p.Refuses c e := by
  obtain ⟨atoms, mode⟩ := p
  obtain rfl : mode = .between := hmode
  unfold quantify at h
  split at h
  next => exact nomatch h
  next hnone =>
    obtain rfl := Except.error.inj h
    exact .quantifier hc fun cls times rest => hnone cls times rest

theorem refuses_of_stepBetween {p : Parser} {c : Placed} {e : ParseError}
    (hmode : p.mode = .between) (h : p.stepBetween c = .error e) : p.Refuses c e := by
  obtain ⟨atoms, mode⟩ := p
  obtain rfl : mode = .between := hmode
  unfold stepBetween at h
  split at h
  next => exact nomatch h
  next => exact nomatch h
  next hc =>
    split at h
    next => exact nomatch h
    next hne =>
      obtain rfl := Except.error.inj h
      rw [← hc]
      exact .caret hc fun hnil => hne (List.isEmpty_iff.mpr hnil)
  next => exact nomatch h
  next hc => exact refuses_of_quantify rfl (Or.inl hc) h
  next hc => exact refuses_of_quantify rfl (Or.inr hc) h
  next => exact nomatch h
  next => exact nomatch h

theorem refuses_of_step {p : Parser} {c : Placed} {e : ParseError} (h : p.step c = .error e) :
    p.Refuses c e := by
  obtain ⟨atoms, mode⟩ := p
  unfold step at h
  cases mode with
  | between => exact refuses_of_stepBetween rfl h
  | escape start =>
      dsimp only at h
      split at h
      next => exact nomatch h
      next => exact nomatch h
      next hdigit hword => exact Except.error.inj h ▸ .unknown hdigit hword
  | opening opened =>
      dsimp only at h
      split at h
      next hc => exact Except.error.inj h ▸ .empty hc
      next => exact nomatch h
      next => exact nomatch h
  | inside opened negated members =>
      dsimp only at h
      split at h
      next hc =>
        split at h
        next hempty =>
          obtain rfl := List.isEmpty_iff.mp hempty
          exact Except.error.inj h ▸ .memberless hc
        next => exact nomatch h
      next hc => exact Except.error.inj h ▸ .inner hc
      next => exact nomatch h
  | ended dollar => exact Except.error.inj h ▸ .behind

theorem step_of_refuses {p : Parser} {c : Placed} {e : ParseError} (h : p.Refuses c e) :
    p.step c = .error e := by
  cases h with
  | caret hc hatoms =>
      simp only [step, stepBetween, hc]
      exact if_neg fun hempty => hatoms (List.isEmpty_iff.mp hempty)
  | quantifier hc hnone =>
      rcases hc with hc | hc
      · simp only [step, stepBetween, hc, quantify]
      · simp only [step, stepBetween, hc, quantify]
  | unknown hdigit hword => simp only [step]
  | empty hc => simp only [step, hc]
  | memberless hc => simp only [step, hc, List.isEmpty_nil, if_true]
  | inner hc => simp only [step, hc]
  | behind => rfl

/-- **What a reader refuses is where its step fails.** -/
theorem step_eq_error_iff {p : Parser} {c : Placed} {e : ParseError} :
    p.step c = .error e ↔ p.Refuses c e :=
  ⟨refuses_of_step, step_of_refuses⟩

/-! ## Where a run fails -/

/-- **A run fails at one character**, which the reader that has come so far refuses. -/
theorem foldlM_step_eq_error {chars : List Placed} {p : Parser} {e : ParseError} :
    chars.foldlM step p = .error e ↔
      ∃ front c behind q, chars = front ++ c :: behind ∧ front.foldlM step p = .ok q ∧
        q.Refuses c e := by
  constructor
  · intro h
    induction chars generalizing p with
    | nil => exact nomatch h
    | cons d chars ih =>
        rw [List.foldlM_cons] at h
        cases hstep : p.step d with
        | error e' =>
            rw [hstep] at h
            obtain rfl := Except.error.inj h
            exact ⟨[], d, chars, p, rfl, rfl, step_eq_error_iff.mp hstep⟩
        | ok p' =>
            rw [hstep] at h
            obtain ⟨front, c, behind, q, rfl, hrun, hrefuses⟩ := ih h
            exact ⟨d :: front, c, behind, q, rfl,
              foldlM_step_cons.mpr ⟨p', step_eq_ok_iff.mp hstep, hrun⟩, hrefuses⟩
  · rintro ⟨front, c, behind, q, rfl, hrun, hrefuses⟩
    rw [List.foldlM_append, hrun]
    show (c :: behind).foldlM step q = .error e
    rw [List.foldlM_cons, step_eq_error_iff.mpr hrefuses]
    rfl

/-! ## What a complaint is about -/

/-- A reader keeps in mind the character just taken, or what it had in mind before. -/
theorem Takes.mark? {p q : Parser} {c x : Placed} (h : p.Takes c q)
    (hx : q.mode.mark? = some x) : x = c ∨ p.mode.mark? = some x := by
  cases h with
  | backslash hc =>
      obtain rfl := Option.some.inj hx
      exact Or.inl (hc ▸ rfl)
  | bracket hc =>
      obtain rfl := Option.some.inj hx
      exact Or.inl (hc ▸ rfl)
  | dollar hc =>
      obtain rfl := Option.some.inj hx
      exact Or.inl (hc ▸ rfl)
  | negation _ | first _ _ | member _ _ => exact Or.inr hx
  | caret _ | quantifier _ | dot _ | literal _ | digit _ | word _ | close _ _ => exact nomatch hx

/-- A refusal is about the character refused, or about the one that the reader is behind. -/
theorem Refuses.culprit? {p : Parser} {c x : Placed} {e : ParseError} (h : p.Refuses c e)
    (hx : e.culprit? = some x) : x = c ∨ p.mode.mark? = some x := by
  cases h with
  | caret _ _ | quantifier _ _ => exact Or.inl (Option.some.inj hx).symm
  | inner hc =>
      obtain rfl := Option.some.inj hx
      exact Or.inl (hc ▸ rfl)
  | unknown _ _ | empty _ | memberless _ | behind => exact Or.inr hx

/-- A complaint at the end is about the character that the reader is behind. -/
theorem culprit?_of_finish {p : Parser} {x : Placed} {e : ParseError} (h : p.finish = .error e)
    (hx : e.culprit? = some x) : p.mode.mark? = some x := by
  obtain ⟨atoms, mode⟩ := p
  cases mode with
  | between => exact nomatch h
  | ended dollar => exact nomatch h
  | escape start =>
      obtain rfl := Except.error.inj h
      exact nomatch hx
  | opening opened =>
      obtain rfl := Except.error.inj h
      exact hx
  | inside opened negated members =>
      obtain rfl := Except.error.inj h
      exact hx

/-- What a reader keeps in mind is a character that it has taken, or was so from the start. -/
theorem mark?_of_steps {chars : List Placed} {p q : Parser} (h : chars.foldlM step p = .ok q)
    {x : Placed} (hx : q.mode.mark? = some x) : x ∈ chars ∨ p.mode.mark? = some x := by
  induction chars generalizing p with
  | nil =>
      obtain rfl := Except.ok.inj h
      exact Or.inr hx
  | cons c chars ih =>
      obtain ⟨p', htakes, hrest⟩ := foldlM_step_cons.mp h
      rcases ih hrest with hmem | hmark
      · exact Or.inl (List.mem_cons_of_mem c hmem)
      · rcases htakes.mark? hmark with rfl | hmark
        · exact Or.inl List.mem_cons_self
        · exact Or.inr hmark

/-- A reader in the middle of an escape has just taken the backslash. -/
theorem exists_concat_of_escape {chars : List Placed} {q : Parser} {start : Nat}
    (h : chars.foldlM step {} = .ok q) (hmode : q.mode = .escape start) :
    ∃ front, chars = front ++ [⟨start, '\\'⟩] := by
  rcases List.eq_nil_or_concat chars with rfl | ⟨front, c, rfl⟩
  · obtain rfl := Except.ok.inj h
    exact nomatch hmode
  · rw [List.concat_eq_append] at h ⊢
    obtain ⟨p, -, hlast⟩ := foldlM_step_append.mp h
    obtain ⟨p', htakes, hnil⟩ := foldlM_step_cons.mp hlast
    obtain rfl := Except.ok.inj hnil
    cases htakes with
    | backslash hc =>
        obtain rfl := Mode.escape.inj hmode
        exact ⟨front, hc ▸ rfl⟩
    | _ => exact nomatch hmode

end Parser

namespace Sequence

open LineSieve.Parser (foldlM_step_eq_error)

/-- Reading fails at a character, or at the end. -/
theorem refuses_or_finish_of_ofPlaced {chars : List Placed} {e : ParseError}
    (h : ofPlaced chars = .error e) :
    (∃ front c behind q, chars = front ++ c :: behind ∧
      front.foldlM Parser.step {} = .ok q ∧ q.Refuses c e) ∨
    ∃ q, chars.foldlM Parser.step {} = .ok q ∧ q.finish = .error e := by
  rw [ofPlaced] at h
  cases hrun : chars.foldlM Parser.step {} with
  | error e' =>
      rw [hrun] at h
      obtain rfl := Except.error.inj h
      exact Or.inl (foldlM_step_eq_error.mp hrun)
  | ok q =>
      rw [hrun] at h
      exact Or.inr ⟨q, rfl, h⟩

/-- **A complaint is about one of the characters read.** -/
theorem culprit_mem_of_ofPlaced {chars : List Placed} {e : ParseError}
    (h : ofPlaced chars = .error e) {x : Placed} (hx : e.culprit? = some x) : x ∈ chars := by
  -- whatever a reader keeps in mind it has taken, since it starts with nothing in mind
  have hmark {front : List Placed} {q : Parser} (hrun : front.foldlM Parser.step {} = .ok q)
      (hq : q.mode.mark? = some x) : x ∈ front := by
    rcases Parser.mark?_of_steps hrun hq with hmem | hstart
    · exact hmem
    · exact nomatch hstart
  rcases refuses_or_finish_of_ofPlaced h with ⟨front, c, behind, q, rfl, hrun, hrefuses⟩ |
    ⟨q, hrun, hfinish⟩
  · rcases hrefuses.culprit? hx with rfl | hq
    · exact List.mem_append_right front List.mem_cons_self
    · exact List.mem_append_left _ (hmark hrun hq)
  · exact hmark hrun (Parser.culprit?_of_finish hfinish hx)

/-- **An unknown escape is told with the character behind its backslash.** -/
theorem escape_of_ofPlaced {chars : List Placed} {escaped : Char} {pos : Nat}
    (h : ofPlaced chars = .error (.unknownEscape escaped pos)) :
    ∃ front c behind, chars = front ++ ⟨pos, '\\'⟩ :: c :: behind ∧ c.char = escaped := by
  rcases refuses_or_finish_of_ofPlaced h with ⟨front, c, behind, q, rfl, hrun, hrefuses⟩ |
    ⟨q, hrun, hfinish⟩
  · cases hrefuses with
    | unknown _ _ =>
        obtain ⟨front, rfl⟩ := Parser.exists_concat_of_escape hrun rfl
        exact ⟨front, c, behind, by rw [List.append_assoc]; rfl, rfl⟩
  · obtain ⟨atoms, mode⟩ := q
    cases mode <;> exact nomatch hfinish

/-- **An unfinished escape is told where a backslash comes last.** -/
theorem concat_of_ofPlaced {chars : List Placed} (h : ofPlaced chars = .error .trailingEscape) :
    ∃ front pos, chars = front ++ [⟨pos, '\\'⟩] := by
  rcases refuses_or_finish_of_ofPlaced h with ⟨_, _, _, _, _, _, hrefuses⟩ | ⟨q, hrun, hfinish⟩
  · exact nomatch hrefuses
  · obtain ⟨atoms, mode⟩ := q
    cases mode with
    | escape start =>
        obtain ⟨front, rfl⟩ := Parser.exists_concat_of_escape hrun rfl
        exact ⟨front, start, rfl⟩
    | between | opening _ | inside _ _ _ | ended _ => exact nomatch hfinish

end Sequence

end LineSieve
