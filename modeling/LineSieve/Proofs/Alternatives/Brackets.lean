import LineSieve.Proofs.Alternatives.Independence
import Mathlib.Data.List.Basic

/-!
# Parentheses in brackets

Brackets do not hide parentheses. Alternatives are undone before anything is read, so a `(` and a
`)` behind it are a pair wherever they stand, in one character group, in two, or in none. A reader
of the whole pattern would take them for members of the groups, and it gets to see them only where
they do not pair up.

* **`not_sublist_iff`**: nothing pairs up exactly if no `)` stands behind a `(`.
* **`Settles.count_eq`**: settling takes away one `(` and one `)` for every pair. All spellings of
  a sequence have the same number of them (`Sequence.count_eq_of_spelledBy`), so no candidate of
  a pattern with a pair is read as what the whole pattern spells.
* **`compile_eq_singleton_iff`**: a pattern that reads well keeps its reading exactly if nothing in
  it pairs up; `compile_bracketedBranches` is a group whose members do.
-/

namespace LineSieve

/-! ## Counting parentheses -/

namespace Candidate

open Placed (text)

theorem firstGroup?_eq_none_iff {c : Candidate} : firstGroup? c = none ↔ pairs c = 0 := by
  refine ⟨pairs_eq_zero, fun hpairs => ?_⟩
  cases hg : firstGroup? c with
  | none => rfl
  | some g =>
      obtain ⟨branch, hbranch⟩ := List.exists_mem_of_ne_nil _ (branches_ne_nil g.inside)
      have hless := pairs_choices hg ((mem_choices hg).mpr ⟨branch, hbranch, rfl⟩)
      exact absurd (hless.symm.trans hpairs) (Nat.succ_ne_zero _)

/-- What is open finds no partner if no `)` comes, and what comes does not if no `)` stands behind
    a `(`. -/
theorem pairsFrom_eq_zero_iff {opened : Nat} {c : Candidate} :
    pairsFrom opened c = 0 ↔
      (opened = 0 ∨ ')' ∉ text c) ∧ ¬ ['(', ')'].Sublist (text c) := by
  induction c generalizing opened with
  | nil =>
      refine iff_of_true rfl ⟨Or.inr List.not_mem_nil, fun h => ?_⟩
      exact List.cons_ne_nil _ _ (List.sublist_nil.mp h)
  | cons x c ih =>
      have hsub : ['(', ')'].Sublist (text (x :: c)) ↔
          ['(', ')'].Sublist (text c) ∨ '(' = x.char ∧ ')' ∈ text c := by
        rw [Placed.text_cons, List.cons_sublist_cons', List.singleton_sublist]
      have hpair (h : ['(', ')'].Sublist (text c)) : ')' ∈ text c :=
        h.subset (List.mem_cons_of_mem _ List.mem_cons_self)
      rw [hsub, Placed.text_cons, List.mem_cons]
      by_cases hopen : x.char = '('
      · simp only [pairsFrom, hopen, if_true, ih]
        grind
      · by_cases hclose : x.char = ')'
        · cases opened <;> simp [pairsFrom, hclose, ih]
        · simp only [pairsFrom, hopen, hclose, if_false, ih]
          grind

/-- **Nothing pairs up exactly if no `)` stands behind a `(`.** -/
theorem not_sublist_iff {c : Candidate} :
    ¬ ['(', ')'].Sublist (text c) ↔ firstGroup? c = none := by
  rw [firstGroup?_eq_none_iff, pairs, pairsFrom_eq_zero_iff]
  exact (and_iff_right (Or.inl rfl)).symm

variable {x : Char}

theorem Plain.count_text {c : Candidate} (h : Plain c) (hx : x = '(' ∨ x = ')') :
    (text c).count x = 0 := by
  refine List.count_eq_zero.mpr fun hmem => ?_
  obtain ⟨y, hy, rfl⟩ := List.mem_map.mp hmem
  exact hx.elim (h y hy).1 (h y hy).2

/-- Choosing a branch takes away one parenthesis of each kind. -/
theorem count_choices {c c' : Candidate} {g : Group} (hx : x = '(' ∨ x = ')')
    (h : firstGroup? c = some g) (hc : c' ∈ choices c) :
    (text c).count x = (text c').count x + 1 := by
  obtain ⟨branch, hbranch, rfl⟩ := (mem_choices h).mp hc
  obtain ⟨hplain, opening, close, hopen, hclose, rfl⟩ := eq_of_firstGroup? h
  have hinside := hplain.count_text hx
  have hbranch := (plain_of_mem_branches hplain hbranch).count_text hx
  simp only [Placed.text_append, Placed.text_cons, List.count_append, List.count_cons, hinside,
    hbranch, hopen, hclose]
  grind

/-- **Settling takes away one parenthesis of each kind for every pair.** -/
theorem Settles.count_eq {c d : Candidate} (h : Settles c d) (hx : x = '(' ∨ x = ')') :
    (text c).count x = (text d).count x + pairs c := by
  induction h with
  | done hnone => rw [pairs_eq_zero hnone, Nat.add_zero]
  | choose hg hc _ ih => rw [count_choices hx hg hc, pairs_choices hg hc, ih, Nat.add_assoc]

end Candidate

/-! All spellings of a sequence have the same characters, quantifiers apart. -/

theorem Atom.count_eq_of_spelledBy {atom : Atom} {s t : List Char} (hs : atom.SpelledBy s)
    (ht : atom.SpelledBy t) {x : Char} (hx : x ≠ '+' ∧ x ≠ '?') : s.count x = t.count x := by
  cases atom with
  | lineStart => exact congrArg _ (Eq.trans hs (Eq.symm ht))
  | lineEnd => exact congrArg _ (Eq.trans hs (Eq.symm ht))
  | chars cls times =>
      have hmarks {marks : List Char} (h : times.SpelledBy marks) : marks.count x = 0 :=
        List.count_eq_zero.mpr fun hmem => (h.1 x hmem).elim hx.1 hx.2
      obtain ⟨marks, hs, rfl⟩ := hs
      obtain ⟨marks', ht, rfl⟩ := ht
      rw [List.count_append, List.count_append, hmarks hs, hmarks ht]

theorem Sequence.count_eq_of_spelledBy {atoms : Sequence} {s t : List Char}
    (hs : atoms.SpelledBy s) (ht : atoms.SpelledBy t) {x : Char} (hx : x ≠ '+' ∧ x ≠ '?') :
    s.count x = t.count x := by
  induction atoms generalizing s t with
  | nil =>
      obtain rfl : s = [] := hs
      obtain rfl : t = [] := ht
      rfl
  | cons atom atoms ih =>
      obtain ⟨word, rest, hword, hrest, rfl⟩ := hs
      obtain ⟨word', rest', hword', hrest', rfl⟩ := ht
      rw [List.count_append, List.count_append, Atom.count_eq_of_spelledBy hword hword' hx,
        ih hrest hrest']

/-! ## Patterns that read well as they stand -/

namespace Pattern

open Candidate (firstGroup?_eq_none_iff not_sublist_iff)
open Sequence (parse)

variable {source : List Char} {atoms : Sequence}

/-- Where nothing pairs up, a pattern is compiled to what it reads as. -/
theorem compile_of_not_sublist (h : parse source = .ok atoms) (hne : atoms ≠ [])
    (hpair : ¬ ['(', ')'].Sublist source) : compile source = .ok ⟨source, [atoms]⟩ := by
  rw [← Placed.text_ofText source, not_sublist_iff] at hpair
  refine compile_eq_ok_iff.mpr ?_
  rw [Candidate.expand_of_firstGroup? hpair]
  refine ⟨rfl, congrArg (· :: []) h, fun hmem => hne ?_⟩
  obtain rfl := List.mem_singleton.mp hmem
  exact (Except.ok.inj h).symm

/-- Where something pairs up, no candidate of a pattern is what the pattern reads as. -/
theorem notMem_candidates (h : parse source = .ok atoms) (hpair : ['(', ')'].Sublist source)
    {p : Pattern} (hp : compile source = .ok p) : atoms ∉ p.candidates := by
  intro hmem
  obtain ⟨s, hs, hread⟩ := (mem_of_reads (compile_eq_ok_iff.mp hp).2.1).mp hmem
  obtain ⟨d, hd, rfl⟩ := Candidate.mem_expand_iff.mp hs
  -- the candidate has lost a `(` that every spelling of the atoms has
  have hcount := hd.count_eq (Or.inl rfl)
  rw [Placed.text_ofText, Sequence.count_eq_of_spelledBy (Sequence.spelledBy_of_parse h).2
    (Sequence.spelledBy_of_parse hread).2 (by decide)] at hcount
  have hnone := firstGroup?_eq_none_iff.mpr (Nat.left_eq_add.mp hcount)
  rw [← not_sublist_iff, Placed.text_ofText] at hnone
  exact hnone hpair

/-- **A pattern that reads well keeps its reading exactly if no `)` stands behind a `(`**, in
    brackets or out of them. Then a text matches if the atoms are found in it, and otherwise none
    of the candidates is what the pattern reads as. -/
theorem compile_eq_singleton_iff (h : parse source = .ok atoms) (hne : atoms ≠ []) :
    (compile source = .ok ⟨source, [atoms]⟩ ↔ ¬ ['(', ')'].Sublist source) ∧
    (¬ ['(', ')'].Sublist source → ∃ p, compile source = .ok p ∧ p.candidates = [atoms] ∧
      ∀ line, Sequence.search line atoms = .ok (p.isMatch line)) ∧
    (['(', ')'].Sublist source → ∀ p, compile source = .ok p → atoms ∉ p.candidates) := by
  refine ⟨⟨fun hp hpair => ?_, compile_of_not_sublist h hne⟩, fun hpair => ?_,
    fun hpair p hp => notMem_candidates h hpair hp⟩
  · exact notMem_candidates h hpair hp (List.mem_singleton_self atoms)
  · refine ⟨_, compile_of_not_sublist h hne hpair, rfl, fun line => ?_⟩
    rw [Sequence.search_of_ne_nil line hne, isMatch, List.any_cons, List.any_nil, Bool.or_false]

/-- Parentheses the other way round, with a bar between them, are three members of a group. -/
theorem compile_bracketedStrays :
    parse "[)|(]+".toList = .ok [.chars (.group ")|(".toList false) .oneOrMore] ∧
      compile "[)|(]+".toList =
        .ok ⟨"[)|(]+".toList, [[.chars (.group ")|(".toList false) .oneOrMore]]⟩ := by
  have hread : parse "[)|(]+".toList = .ok [.chars (.group ")|(".toList false) .oneOrMore] := rfl
  have hiff := (compile_eq_singleton_iff hread (List.cons_ne_nil _ _)).1
  exact ⟨hread, hiff.mpr (by decide)⟩

/-- The characters of a pattern that stand in no character group, with `skip` behind a backslash
    and `within` in a group. A group goes from a `[` that no backslash escapes to the next `]`. -/
def outsideGroups (skip within : Bool) : List Char → List Char
  | [] => []
  | c :: s =>
      if within then outsideGroups false (c ≠ ']') s
      else if skip then c :: outsideGroups false false s
      else if c = '[' then outsideGroups false true s
      else c :: outsideGroups (c = '\\') false s

/-- A group of five members that has its parentheses and its bar in brackets only: it is read as a
    group, and compiled to two candidates, neither of which accepts a parenthesis. -/
theorem compile_bracketedBranches :
    (∀ c ∈ outsideGroups false false "[(a|b)]".toList, c ≠ '(' ∧ c ≠ ')' ∧ c ≠ '|') ∧
      parse "[(a|b)]".toList = .ok [.one (.group "(a|b)".toList false)] ∧
      Sequence.search "(".toList [.one (.group "(a|b)".toList false)] = .ok true ∧
      ∃ p, compile "[(a|b)]".toList = .ok p ∧
        p.candidates = [[.one (.group ['a'] false)], [.one (.group ['b'] false)]] ∧
        p.isMatch "(".toList = false := by
  have hpattern : Candidate.ofPattern "[(a|b)]".toList =
      [[⟨0, '['⟩, ⟨2, 'a'⟩, ⟨6, ']'⟩], [⟨0, '['⟩, ⟨4, 'b'⟩, ⟨6, ']'⟩]] := by
    have hgroup : Candidate.ofPattern "[(a|b)]".toList =
        Candidate.settle [[⟨0, '['⟩, ⟨2, 'a'⟩, ⟨6, ']'⟩], [⟨0, '['⟩, ⟨4, 'b'⟩, ⟨6, ']'⟩]] :=
      Candidate.settle_of_ascending List.mem_cons_self rfl (by decide)
    rw [hgroup, Candidate.settle_of_none rfl]
  have houtside : outsideGroups false false "[(a|b)]".toList = [] := rfl
  refine ⟨?_, rfl, rfl, ⟨"[(a|b)]".toList, _⟩, ?_, rfl, rfl⟩
  · rw [houtside]
    exact fun c hc => absurd hc List.not_mem_nil
  · rw [compile, hpattern]
    rfl

end Pattern

end LineSieve
