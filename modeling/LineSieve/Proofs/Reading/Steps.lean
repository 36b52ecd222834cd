import LineSieve.Sequence.Parser

/-!
# The steps of a reader

`Takes p c q` says that the reader `p` takes the character `c` and becomes `q`, with one
constructor for each thing a character can be. **`step_eq_ok_iff`**: this is what `step` does, so
what holds of all steps is a case split on `Takes`, and what holds of all runs an induction along
`foldlM_step_cons`.

* **`lineStart_mem_of_steps`**: an anchor that has been read stays.
* **`lineEnd_mem_of_steps`**: a reader behind a `$` has the end of the line among its atoms.
-/

namespace LineSieve

/-- The characters that mean something else than themselves, or nothing, between two atoms. -/
def Parser.special : List Char := ['\\', '[', '^', '$', '+', '?', '.']

namespace Parser

/-- The ways in which a reader takes a character. -/
inductive Takes : Parser → Placed → Parser → Prop where
  | backslash {atoms : List Atom} {c : Placed} (hc : c.char = '\\') :
      Takes ⟨atoms, .between⟩ c ⟨atoms, .escape c.pos⟩
  | bracket {atoms : List Atom} {c : Placed} (hc : c.char = '[') :
      Takes ⟨atoms, .between⟩ c ⟨atoms, .opening c.pos⟩
  | caret {c : Placed} (hc : c.char = '^') :
      Takes ⟨[], .between⟩ c ⟨[.lineStart], .between⟩
  | dollar {atoms : List Atom} {c : Placed} (hc : c.char = '$') :
      Takes ⟨atoms, .between⟩ c ⟨.lineEnd :: atoms, .ended c.pos⟩
  | quantifier {atoms : List Atom} {cls : CharClass} {old new : Repetition} {c : Placed}
      (hc : new.render = [c.char]) :
      Takes ⟨.chars cls old :: atoms, .between⟩ c ⟨.chars cls new :: atoms, .between⟩
  | dot {atoms : List Atom} {c : Placed} (hc : c.char = '.') :
      Takes ⟨atoms, .between⟩ c ⟨.one .any :: atoms, .between⟩
  | literal {atoms : List Atom} {c : Placed} (hc : c.char ∉ special) :
      Takes ⟨atoms, .between⟩ c ⟨.one (.literal c.char) :: atoms, .between⟩
  | digit {atoms : List Atom} {start : Nat} {c : Placed} (hc : c.char = 'd') :
      Takes ⟨atoms, .escape start⟩ c ⟨.one .digit :: atoms, .between⟩
  | word {atoms : List Atom} {start : Nat} {c : Placed} (hc : c.char = 'w') :
      Takes ⟨atoms, .escape start⟩ c ⟨.one .word :: atoms, .between⟩
  | negation {atoms : List Atom} {opened : Nat} {c : Placed} (hc : c.char = '^') :
      Takes ⟨atoms, .opening opened⟩ c ⟨atoms, .inside opened true []⟩
  | first {atoms : List Atom} {opened : Nat} {c : Placed} (hclose : c.char ≠ ']')
      (hcaret : c.char ≠ '^') :
      Takes ⟨atoms, .opening opened⟩ c ⟨atoms, .inside opened false [c.char]⟩
  | member {atoms : List Atom} {opened : Nat} {negated : Bool} {members : List Char}
      {c : Placed} (hclose : c.char ≠ ']') (hcaret : c.char ≠ '^') :
      Takes ⟨atoms, .inside opened negated members⟩ c
        ⟨atoms, .inside opened negated (c.char :: members)⟩
  | close {atoms : List Atom} {opened : Nat} {negated : Bool} {members : List Char}
      {c : Placed} (hc : c.char = ']') (hmembers : members ≠ []) :
      Takes ⟨atoms, .inside opened negated members⟩ c
        ⟨.one (.group members.reverse negated) :: atoms, .between⟩

theorem takes_of_quantify {p q : Parser} {times : Repetition} {c : Placed}
    (hmode : p.mode = .between) (hc : times.render = [c.char])
    (h : p.quantify times c = .ok q) : p.Takes c q := by
  obtain ⟨atoms, mode⟩ := p
  obtain rfl : mode = .between := hmode
  unfold quantify at h
  split at h
  next heq =>
    obtain rfl : atoms = _ := heq
    obtain rfl := Except.ok.inj h
    exact .quantifier hc
  next => exact nomatch h

theorem takes_of_stepBetween {p q : Parser} {c : Placed} (hmode : p.mode = .between)
    (h : p.stepBetween c = .ok q) : p.Takes c q := by
  obtain ⟨atoms, mode⟩ := p
  obtain rfl : mode = .between := hmode
  unfold stepBetween at h
  split at h
  next hc => exact Except.ok.inj h ▸ .backslash hc
  next hc => exact Except.ok.inj h ▸ .bracket hc
  next hc =>
    split at h
    next hempty =>
      obtain rfl : atoms = [] := List.isEmpty_iff.mp hempty
      exact Except.ok.inj h ▸ .caret hc
    next => exact nomatch h
  next hc => exact Except.ok.inj h ▸ .dollar hc
  next hc => exact takes_of_quantify rfl (by rw [hc]; rfl) h
  next hc => exact takes_of_quantify rfl (by rw [hc]; rfl) h
  next hc => exact Except.ok.inj h ▸ .dot hc
  next x hbackslash hbracket hcaret hdollar hplus hquestion hdot =>
    refine Except.ok.inj h ▸ .literal ?_
    simp only [special, List.mem_cons, List.not_mem_nil, or_false, not_or]
    exact ⟨hbackslash, hbracket, hcaret, hdollar, hplus, hquestion, hdot⟩

theorem takes_of_step {p q : Parser} {c : Placed} (h : p.step c = .ok q) : p.Takes c q := by
  obtain ⟨atoms, mode⟩ := p
  unfold step at h
  cases mode with
  | between => exact takes_of_stepBetween rfl h
  | escape start =>
      dsimp only at h
      split at h
      next hc => exact Except.ok.inj h ▸ .digit hc
      next hc => exact Except.ok.inj h ▸ .word hc
      next => exact nomatch h
  | opening opened =>
      dsimp only at h
      split at h
      next => exact nomatch h
      next hc => exact Except.ok.inj h ▸ .negation hc
      next hclose hcaret => exact Except.ok.inj h ▸ .first hclose hcaret
  | inside opened negated members =>
      dsimp only at h
      split at h
      next hc =>
        split at h
        next => exact nomatch h
        next hempty =>
          refine Except.ok.inj h ▸ .close hc ?_
          rintro rfl
          exact hempty rfl
      next => exact nomatch h
      next hclose hcaret => exact Except.ok.inj h ▸ .member hclose hcaret
  | ended dollar => exact nomatch h

theorem step_of_takes {p q : Parser} {c : Placed} (h : p.Takes c q) : p.step c = .ok q := by
  cases h with
  | backslash hc => simp only [step, stepBetween, hc]
  | bracket hc => simp only [step, stepBetween, hc]
  | caret hc => simp only [step, stepBetween, hc, List.isEmpty_nil, if_true, push]
  | dollar hc => simp only [step, stepBetween, hc, push]
  | @quantifier _ _ _ new _ hc =>
      -- a class taken once has no mark, so the character is one of the other two
      cases new with
      | once => exact nomatch hc
      | oneOrMore =>
          have hplus := (List.cons.inj hc).1
          simp only [step, stepBetween, ← hplus, quantify]
      | optional =>
          have hquestion := (List.cons.inj hc).1
          simp only [step, stepBetween, ← hquestion, quantify]
  | dot hc => simp only [step, stepBetween, hc, push]
  | literal hc =>
      simp only [special, List.mem_cons, List.not_mem_nil, or_false, not_or] at hc
      obtain ⟨hbackslash, hbracket, hcaret, hdollar, hplus, hquestion, hdot⟩ := hc
      simp only [step, stepBetween]
      rfl
  | digit hc => simp only [step, hc, push]
  | word hc => simp only [step, hc, push]
  | negation hc => simp only [step, hc]
  | first hclose hcaret => simp only [step]
  | member hclose hcaret => simp only [step]
  | close hc hmembers =>
      simp only [step, hc]
      rw [if_neg fun hempty => hmembers (List.isEmpty_iff.mp hempty)]
      rfl

/-- **The ways in which a reader takes a character are its steps.** -/
theorem step_eq_ok_iff {p q : Parser} {c : Placed} : p.step c = .ok q ↔ p.Takes c q :=
  ⟨takes_of_step, step_of_takes⟩

/-! ## Runs -/

theorem foldlM_step_cons {p q : Parser} {c : Placed} {chars : List Placed} :
    (c :: chars).foldlM step p = .ok q ↔
      ∃ p', p.Takes c p' ∧ chars.foldlM step p' = .ok q := by
  rw [List.foldlM_cons]
  constructor
  · intro h
    cases hstep : p.step c with
    | error e =>
        rw [hstep] at h
        exact nomatch h
    | ok p' =>
        rw [hstep] at h
        exact ⟨p', takes_of_step hstep, h⟩
  · rintro ⟨p', htakes, h⟩
    rw [step_of_takes htakes]
    exact h

/-- A run over two texts is a run over the second behind a run over the first. -/
theorem foldlM_step_append {p q : Parser} {front behind : List Placed} :
    (front ++ behind).foldlM step p = .ok q ↔
      ∃ p', front.foldlM step p = .ok p' ∧ behind.foldlM step p' = .ok q := by
  rw [List.foldlM_append]
  cases front.foldlM step p with
  | error e =>
      constructor
      · intro h
        exact nomatch h
      · rintro ⟨p', hfront, -⟩
        exact nomatch hfront
  | ok p' =>
      constructor
      · intro h
        exact ⟨p', rfl, h⟩
      · rintro ⟨_, hfront, hbehind⟩
        obtain rfl := Except.ok.inj hfront
        exact hbehind

/-- What every step keeps, every run keeps. -/
theorem keeps_of_steps {P : Parser → Prop}
    (keeps : ∀ {p q : Parser} {c : Placed}, p.Takes c q → P p → P q)
    {chars : List Placed} {p q : Parser} (h : chars.foldlM step p = .ok q) (hp : P p) :
    P q := by
  induction chars generalizing p with
  | nil =>
      obtain rfl := Except.ok.inj h
      exact hp
  | cons c chars ih =>
      obtain ⟨p', htakes, hrest⟩ := foldlM_step_cons.mp h
      exact ih hrest (keeps htakes hp)

/-- An anchor at the start stays. -/
theorem lineStart_mem_of_steps {chars : List Placed} {p q : Parser}
    (h : chars.foldlM step p = .ok q) (hp : .lineStart ∈ p.atoms) : .lineStart ∈ q.atoms := by
  refine keeps_of_steps (P := fun p => .lineStart ∈ p.atoms) ?_ h hp
  intro p q c htakes hmem
  cases htakes with
  | quantifier _ =>
      -- the atom that changes is a class, so the anchor is further back
      rcases List.mem_cons.mp hmem with heq | hmem
      · exact nomatch heq
      · exact List.mem_cons_of_mem _ hmem
  | caret _ | dollar _ | dot _ | literal _ | digit _ | word _ | close _ _ =>
      exact List.mem_cons_of_mem _ hmem
  | backslash _ | bracket _ | negation _ | first _ _ | member _ _ => exact hmem

/-- Behind a `$` the end of the line has been read. -/
theorem lineEnd_mem_of_steps {chars : List Placed} {p q : Parser}
    (h : chars.foldlM step p = .ok q) (hp : ∀ dollar, p.mode ≠ .ended dollar) {dollar : Nat}
    (hmode : q.mode = .ended dollar) : .lineEnd ∈ q.atoms := by
  -- nothing leads on from behind a `$`, so the last step alone decides
  refine keeps_of_steps (P := fun p => ∀ dollar, p.mode = .ended dollar → .lineEnd ∈ p.atoms)
    ?_ h (fun dollar hended => absurd hended (hp dollar)) dollar hmode
  intro p q c htakes _ dollar hended
  cases htakes with
  | dollar _ => exact List.mem_cons_self
  | _ => exact nomatch hended

end Parser

end LineSieve
