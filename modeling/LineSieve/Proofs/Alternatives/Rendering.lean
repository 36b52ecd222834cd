import LineSieve.Proofs.Alternatives.Brackets
import LineSieve.Proofs.Reading.Spelling

/-!
# Candidates as patterns

A candidate of a compiled pattern is a sequence of atoms, and it can be written as a pattern again.
What comes out need not be the text that it was read from, since quantifiers that do not count are
left out, and it may hold parentheses and bars, as characters to be found and as members of groups.
None of these pair up. The text that was read has settled, so no `)` stands behind a `(` in it, and
writing what was read only leaves characters out.

* **`render_sublist`**: what a sequence is written as is left of each of its spellings when
  quantifiers are taken away.
* **`not_sublist_of_mem_expand`**: nothing pairs up in a text that a pattern expands to.
* **`compile_render_of_mem`**: a candidate, written as a pattern, is compiled to itself alone.
-/

namespace LineSieve

/-! ## Writing is the shortest spelling -/

/-- Of the quantifiers behind a class writing keeps the last. -/
theorem Repetition.SpelledBy.render_sublist {times : Repetition} {marks : List Char}
    (h : times.SpelledBy marks) : times.render.Sublist marks := by
  rw [← h.2]
  cases hlast : marks.getLast? with
  | none => exact List.nil_sublist marks
  | some c => exact List.singleton_sublist.mpr (List.mem_of_getLast? hlast)

theorem Atom.SpelledBy.render_sublist {atom : Atom} {word : List Char}
    (h : atom.SpelledBy word) : atom.render.Sublist word := by
  cases atom with
  | lineStart =>
      obtain rfl : word = ['^'] := h
      exact List.Sublist.refl _
  | lineEnd =>
      obtain rfl : word = ['$'] := h
      exact List.Sublist.refl _
  | chars cls times =>
      obtain ⟨marks, hmarks, rfl⟩ := h
      exact hmarks.render_sublist.append_left cls.render

/-- **What a sequence is written as is a part of each of its spellings.** -/
theorem Sequence.SpelledBy.render_sublist {atoms : Sequence} {s : List Char}
    (h : atoms.SpelledBy s) : atoms.render.Sublist s := by
  induction atoms generalizing s with
  | nil => exact List.nil_sublist s
  | cons atom atoms ih =>
      obtain ⟨word, rest, hword, hrest, rfl⟩ := h
      rw [Sequence.render, List.flatMap_cons]
      exact hword.render_sublist.append (ih hrest)

/-! ## Reading a candidate again -/

/-- **Nothing pairs up in a text that a pattern expands to.** -/
theorem Candidate.not_sublist_of_mem_expand {pattern s : List Char} (h : s ∈ expand pattern) :
    ¬ ['(', ')'].Sublist s := by
  obtain ⟨d, hd, rfl⟩ := mem_expand_iff.mp h
  exact not_sublist_iff.mpr hd.firstGroup?_eq_none

namespace Pattern

/-- **A candidate is a pattern by itself.** Written as one, each candidate of a compiled pattern is
    compiled to this one candidate, and so it matches where the candidate is found. -/
theorem compile_render_of_mem {source : List Char} {p : Pattern} (h : compile source = .ok p)
    {atoms : Sequence} (hmem : atoms ∈ p.candidates) :
    ∃ q, compile atoms.render = .ok q ∧ q.candidates = [atoms] ∧
      ∀ line, Sequence.search line atoms = .ok (q.isMatch line) := by
  obtain ⟨-, hreads, hnil⟩ := compile_eq_ok_iff.mp h
  obtain ⟨s, hs, hread⟩ := (mem_of_reads hreads).mp hmem
  obtain ⟨hwf, hspelled⟩ := Sequence.spelledBy_of_parse hread
  have hne : atoms ≠ [] := by
    rintro rfl
    obtain rfl : s = [] := hspelled
    exact hnil hs
  have hpair : ¬ ['(', ')'].Sublist atoms.render := fun hpair =>
    Candidate.not_sublist_of_mem_expand hs (hpair.trans hspelled.render_sublist)
  have hrender := Sequence.parse_of_spelledBy hwf atoms.spelledBy_render
  refine ⟨_, compile_of_not_sublist hrender hne hpair, rfl, fun line => ?_⟩
  rw [Sequence.search_of_ne_nil line hne, isMatch_of_candidates_eq rfl]

/-- What `[)(b|c)(]a+?` asks for with the first branch taken: one of three members, two of which
    are parentheses, and then possibly an `a`. -/
def strayMembers : Sequence :=
  [.one (.group ")b(".toList false), .chars (.literal 'a') .optional]

/-- This is read from a text with two quantifiers and written with one. The parentheses stay in the
    group, the wrong way round to pair up. -/
theorem compile_strayMembers :
    ∃ p, compile "[)(b|c)(]a+?".toList = .ok p ∧ strayMembers ∈ p.candidates ∧
      strayMembers.render = "[)b(]a?".toList ∧
      ∃ q, compile "[)b(]a?".toList = .ok q ∧ q.candidates = [strayMembers] ∧
        q.isMatch "c)".toList = true := by
  have hpattern : Candidate.ofPattern "[)(b|c)(]a+?".toList =
      [[⟨0, '['⟩, ⟨1, ')'⟩, ⟨3, 'b'⟩, ⟨7, '('⟩, ⟨8, ']'⟩, ⟨9, 'a'⟩, ⟨10, '+'⟩, ⟨11, '?'⟩],
        [⟨0, '['⟩, ⟨1, ')'⟩, ⟨5, 'c'⟩, ⟨7, '('⟩, ⟨8, ']'⟩, ⟨9, 'a'⟩, ⟨10, '+'⟩, ⟨11, '?'⟩]] := by
    refine (Candidate.settle_of_ascending List.mem_cons_self rfl (by decide)).trans ?_
    exact Candidate.settle_of_none rfl
  have hp : compile "[)(b|c)(]a+?".toList = .ok ⟨"[)(b|c)(]a+?".toList,
      [strayMembers, [.one (.group ")c(".toList false), .chars (.literal 'a') .optional]]⟩ := by
    rw [compile, hpattern]
    rfl
  obtain ⟨q, hq, hcandidates, hmatch⟩ := compile_render_of_mem hp List.mem_cons_self
  refine ⟨_, hp, List.mem_cons_self, rfl, q, hq, hcandidates, ?_⟩
  exact Except.ok.inj ((hmatch "c)".toList).symm.trans (by decide))

end Pattern

end LineSieve
