import LineSieve.Proofs.Places
import LineSieve.Proofs.Reading.Steps

/-!
# Reading texts glued together

Two texts that read as sequences of atoms cannot always be glued: a `^` in front of the second is
an anchor there and a fault behind the first, and a `$` behind the first likewise. Without anchors
nothing of the kind happens, since a quantifier that finds its class in a text of its own finds
the same class behind another text.

* **`Takes.under`**: a reader that takes a character takes it the same way with more atoms in
  front, unless it makes an anchor of a `^`.
* **`foldlM_step_unplaced`**: so a text that reads on its own as anchor-free atoms adds just
  these atoms to whatever was read before.
-/

namespace LineSieve

/-- No anchor among the atoms. -/
def Sequence.Unanchored (atoms : Sequence) : Prop :=
  .lineStart ∉ atoms ∧ .lineEnd ∉ atoms

namespace Parser

open Placed (unplaced)

/-- The same reader with more atoms read in front. -/
def under (base : List Atom) (p : Parser) : Parser :=
  ⟨p.atoms ++ base, p.mode⟩

/-- **Atoms in front do not change a step**, unless it reads an anchor at the start. -/
theorem Takes.under {p q : Parser} {c : Placed} (h : p.Takes c q)
    (hstart : .lineStart ∉ q.atoms) (base : List Atom) :
    (p.under base).Takes c (q.under base) := by
  cases h with
  | caret _ => exact absurd (List.mem_singleton_self _) hstart
  | backslash hc => exact .backslash hc
  | bracket hc => exact .bracket hc
  | dollar hc => exact .dollar hc
  | quantifier hc => exact .quantifier hc
  | dot hc => exact .dot hc
  | literal hc => exact .literal hc
  | digit hc => exact .digit hc
  | word hc => exact .word hc
  | negation hc => exact .negation hc
  | first hclose hcaret => exact .first hclose hcaret
  | member hclose hcaret => exact .member hclose hcaret
  | close hc hmembers => exact .close hc hmembers

theorem foldlM_step_under {chars : List Placed} {p q : Parser}
    (h : chars.foldlM step p = .ok q) (hstart : .lineStart ∉ q.atoms) (base : List Atom) :
    chars.foldlM step (p.under base) = .ok (q.under base) := by
  induction chars generalizing p with
  | nil =>
      obtain rfl := Except.ok.inj h
      rfl
  | cons c chars ih =>
      obtain ⟨p', htakes, hrest⟩ := foldlM_step_cons.mp h
      -- an anchor read here would still be there at the end
      have hstart' : .lineStart ∉ p'.atoms := fun hmem =>
        hstart (lineStart_mem_of_steps hrest hmem)
      exact foldlM_step_cons.mpr ⟨p'.under base, htakes.under hstart' base, ih hrest⟩

/-- The end of a reading that went well. -/
theorem finish_eq_ok {p : Parser} {atoms : Sequence} :
    p.finish = .ok atoms ↔
      (p.mode = .between ∨ ∃ dollar, p.mode = .ended dollar) ∧ p.atoms.reverse = atoms := by
  obtain ⟨read, mode⟩ := p
  cases mode with
  | between => exact ⟨fun h => ⟨.inl rfl, Except.ok.inj h⟩, fun h => congrArg _ h.2⟩
  | ended dollar => exact ⟨fun h => ⟨.inr ⟨dollar, rfl⟩, Except.ok.inj h⟩, fun h => congrArg _ h.2⟩
  | escape _ | opening _ | inside _ _ _ =>
      constructor
      · intro h
        exact nomatch h
      · rintro ⟨hmode | ⟨_, hmode⟩, -⟩ <;> exact nomatch hmode

end Parser

namespace Sequence

open Placed (unplaced)

/-- A text reads well if the reader gets through it and can stop behind it. -/
theorem parse_eq_ok {s : List Char} {atoms : Sequence} :
    parse s = .ok atoms ↔
      ∃ p, (unplaced s).foldlM Parser.step {} = .ok p ∧ p.finish = .ok atoms := by
  have hplaces : parse s = .ok atoms ↔ ofPlaced (unplaced s) = .ok atoms := by
    rw [ofPlaced_eq_ok, Candidate.text_unplaced]
  rw [hplaces, ofPlaced]
  cases (unplaced s).foldlM Parser.step {} with
  | error e =>
      constructor
      · intro h
        exact nomatch h
      · rintro ⟨p, hp, -⟩
        exact nomatch hp
  | ok p =>
      constructor
      · intro h
        exact ⟨p, rfl, h⟩
      · rintro ⟨_, hp, h⟩
        obtain rfl := Except.ok.inj hp
        exact h

/-- **A text that reads well by itself, and without anchors, adds its atoms to those in front.** -/
theorem foldlM_step_unplaced {s : List Char} {atoms : Sequence} (h : parse s = .ok atoms)
    (hplain : atoms.Unanchored) (base : List Atom) :
    (unplaced s).foldlM Parser.step ⟨base, .between⟩ = .ok ⟨atoms.reverse ++ base, .between⟩ := by
  obtain ⟨p, hrun, hfinish⟩ := parse_eq_ok.mp h
  obtain ⟨hmode, rfl⟩ := Parser.finish_eq_ok.mp hfinish
  rw [Unanchored, List.mem_reverse, List.mem_reverse] at hplain
  -- a reader that has stopped behind a `$` has an anchor
  have hbetween : p.mode = .between := by
    rcases hmode with hbetween | ⟨dollar, hended⟩
    · exact hbetween
    · refine absurd (Parser.lineEnd_mem_of_steps hrun ?_ hended) hplain.2
      intro dollar heq
      exact nomatch heq
  have hunder := Parser.foldlM_step_under hrun hplain.1 base
  rw [Parser.under, Parser.under, hbetween] at hunder
  rw [List.reverse_reverse]
  exact hunder

end Sequence

end LineSieve
