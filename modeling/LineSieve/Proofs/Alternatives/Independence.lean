import LineSieve.Proofs.Alternatives.Settling
import LineSieve.Proofs.Compiling
import Mathlib.Order.Defs.Unbundled

/-!
# Every alternative on its own

The texts that a pattern expands to come in order, each once, and no group is left in any of them.
So each is a pattern by itself that expands to nothing else, and a pattern stands for its texts
compiled one by one: one malformed text makes it malformed, an empty one makes it empty if none is
malformed, and otherwise it matches where one of them does.

* **`inOrder_ofPattern`**: a pass puts the candidates in order, so those of a pattern are.
* **`expand_of_mem_expand`**: undoing alternatives a second time changes nothing.
* **`compile_allOrNothing`**: what becomes of a pattern, told from its texts.
-/

namespace LineSieve

namespace Candidate

open Placed (text)

/-! ## Order -/

/-- The texts of the candidates ascend, so no two of them are the same. -/
def InOrder (cs : List Candidate) : Prop :=
  cs.Pairwise fun c d => text c < text d

theorem inOrder_dropRepeats_go {c : Candidate} {cs : List Candidate}
    (h : (c :: cs).Pairwise fun c d => ¬ text d < text c) : InOrder (dropRepeats.go c cs) := by
  induction cs generalizing c with
  | nil => exact List.pairwise_singleton _ _
  | cons d cs ih =>
      obtain ⟨hfirst, hrest⟩ := List.pairwise_cons.mp h
      rw [dropRepeats.go]
      by_cases hsame : text d = text c
      · rw [if_pos hsame]
        exact ih (h.sublist ((List.sublist_cons_self d cs).cons_cons c))
      · rw [if_neg hsame]
        have hlt : text c < text d := by
          by_contra hnot
          exact hsame (Std.Trichotomous.trichotomous (r := fun s t : List Char => s < t)
            (text d) (text c) (hfirst d List.mem_cons_self) hnot)
        refine List.pairwise_cons.mpr ⟨fun e he => ?_, ih hrest⟩
        rcases mem_of_mem_dropRepeats_go he with rfl | he
        · exact hlt
        · exact trans_trichotomous_right hlt ((List.pairwise_cons.mp hrest).1 e he)

/-- Sorting and leaving out repetitions puts candidates in order. -/
theorem inOrder_distinct (cs : List Candidate) : InOrder (distinct cs) := by
  have hsorted : (cs.mergeSort fun c d => ¬ text d < text c).Pairwise
      fun c d => ¬ text d < text c := by
    refine (List.pairwise_mergeSort ?_ ?_ cs).imp ?_
    · intro a b c hab hbc
      refine decide_eq_true fun hca => of_decide_eq_true hbc ?_
      exact trans_trichotomous_right hca (of_decide_eq_true hab)
    · intro a b
      rw [Bool.or_eq_true, decide_eq_true_iff, decide_eq_true_iff, ← not_and_or]
      exact fun h => List.lt_asymm h.1 h.2
    · intro a b hab
      exact of_decide_eq_true hab
  rw [distinct]
  cases hs : cs.mergeSort fun c d => ¬ text d < text c with
  | nil => exact List.Pairwise.nil
  | cons c cs => exact inOrder_dropRepeats_go (hs ▸ hsorted)

/-- Every pass leaves the candidates in order, and so do all passes together. -/
theorem inOrder_settle {cs : List Candidate} (h : InOrder cs) : InOrder (settle cs) := by
  induction cs using settle.induct with
  | case1 cs hpass =>
      rw [settle_of_none hpass]
      exact h
  | case2 cs next hpass ih =>
      rw [settle_of_some hpass]
      exact ih (eq_distinct_of_pass hpass ▸ inOrder_distinct _)

/-- **The candidates of a pattern are in order.** -/
theorem inOrder_ofPattern (pattern : List Char) : InOrder (ofPattern pattern) :=
  inOrder_settle (List.pairwise_singleton _ _)

/-! ## Nothing is left to undo -/

/-- No group is left where a candidate has settled. -/
theorem Settles.firstGroup?_eq_none {c d : Candidate} (h : Settles c d) :
    firstGroup? d = none := by
  induction h with
  | done h => exact h
  | choose _ _ _ ih => exact ih

/-- Whether there is a group depends on the text alone. -/
theorem firstGroup?_eq_none_of_text_eq {c d : Candidate} (htext : text c = text d)
    (h : firstGroup? c = none) : firstGroup? d = none := by
  have hmoved : firstGroup? (move (fun _ => 0) d) = none := by
    rw [move_zero, ← htext, ← move_zero, firstGroup?_move, h]
    rfl
  rw [firstGroup?_move] at hmoved
  exact Option.map_eq_none_iff.mp hmoved

/-- A pattern without a group is its only candidate. -/
theorem ofPattern_of_firstGroup? {pattern : List Char}
    (h : firstGroup? (Placed.ofText pattern) = none) :
    ofPattern pattern = [Placed.ofText pattern] := by
  refine settle_of_none ?_
  rw [pass, if_pos]
  rw [List.all_cons, h]
  rfl

theorem expand_of_firstGroup? {pattern : List Char}
    (h : firstGroup? (Placed.ofText pattern) = none) : expand pattern = [pattern] := by
  rw [expand, ofPattern_of_firstGroup? h, List.map_singleton, Placed.text_ofText]

/-- **What a pattern expands to expands to itself.** -/
theorem expand_of_mem_expand {pattern s : List Char} (h : s ∈ expand pattern) :
    expand s = [s] := by
  obtain ⟨d, hd, htext⟩ := mem_expand_iff.mp h
  refine expand_of_firstGroup? (firstGroup?_eq_none_of_text_eq ?_ hd.firstGroup?_eq_none)
  rw [htext, Placed.text_ofText]

end Candidate

namespace Pattern

open Candidate (expand)
open Sequence (parse)

/-! ## The texts compiled one by one -/

/-- A text of a pattern, compiled by itself, is what it is read as. -/
theorem compile_of_mem_expand {source s : List Char} {p : Pattern} (h : compile source = .ok p)
    (hs : s ∈ expand source) :
    ∃ atoms ∈ p.candidates, parse s = .ok atoms ∧ compile s = .ok ⟨s, [atoms]⟩ := by
  obtain ⟨-, hreads, hne⟩ := compile_eq_ok_iff.mp h
  obtain ⟨atoms, hatoms⟩ := exists_eq_ok_of_map_eq hreads hs
  refine ⟨atoms, (mem_of_reads hreads).mpr ⟨s, hs, hatoms⟩, hatoms, compile_eq_ok_iff.mpr ?_⟩
  rw [Candidate.expand_of_mem_expand hs]
  refine ⟨rfl, congrArg (· :: []) hatoms, fun hmem => hne ?_⟩
  rw [List.mem_singleton.mp hmem]
  exact hs

/-- **Matching a pattern is matching one of its texts, compiled by itself.** -/
theorem isMatch_iff_exists_compile {source : List Char} {p : Pattern}
    (h : compile source = .ok p) (line : List Char) :
    p.isMatch line = true ↔
      ∃ s ∈ expand source, ∃ q, compile s = .ok q ∧ q.isMatch line = true := by
  obtain ⟨-, hreads, -⟩ := compile_eq_ok_iff.mp h
  rw [isMatch, List.any_eq_true]
  constructor
  · rintro ⟨atoms, hmem, hmatch⟩
    obtain ⟨s, hs, hatoms⟩ := (mem_of_reads hreads).mp hmem
    obtain ⟨found, -, hfound, hcompile⟩ := compile_of_mem_expand h hs
    obtain rfl := Except.ok.inj (hatoms.symm.trans hfound)
    refine ⟨s, hs, _, hcompile, ?_⟩
    rw [isMatch, List.any_cons, hmatch, Bool.true_or]
  · rintro ⟨s, hs, q, hq, hmatch⟩
    obtain ⟨atoms, hmem, -, hcompile⟩ := compile_of_mem_expand h hs
    obtain rfl := Except.ok.inj (hcompile.symm.trans hq)
    rw [isMatch, List.any_cons, List.any_nil, Bool.or_false] at hmatch
    exact ⟨atoms, hmem, hmatch⟩

/-- **All or nothing.** The texts of a pattern come in ascending order and expand to themselves.
    If one of them is malformed, the first such is reported, whatever the others are. If all read
    well and one is empty, the pattern is empty. Otherwise it is compiled, to what its texts are
    read as in their order; each text is a pattern by itself, and the pattern matches where one of
    these does. -/
theorem compile_allOrNothing (source : List Char) :
    (expand source).Pairwise (· < ·) ∧
    (∀ s ∈ expand source, expand s = [s]) ∧
    ((∃ e, FirstFault source e) ↔ ∃ s ∈ expand source, ∃ fault, parse s = .error fault) ∧
    (∀ e, compile source = .error (.malformed e) ↔ FirstFault source e) ∧
    (compile source = .error .emptyExpression ↔
      (∀ s ∈ expand source, ∃ atoms, parse s = .ok atoms) ∧ [] ∈ expand source) ∧
    ((∃ p, compile source = .ok p) ↔
      (∀ s ∈ expand source, ∃ atoms, parse s = .ok atoms) ∧ [] ∉ expand source) ∧
    (∀ p, compile source = .ok p →
      (expand source).map parse = p.candidates.map .ok ∧
      (∀ s ∈ expand source, ∃ q, compile s = .ok q) ∧
      ∀ line, p.isMatch line = true ↔
        ∃ s ∈ expand source, ∃ q, compile s = .ok q ∧ q.isMatch line = true) ∧
    ∀ line, matchLine line source =
      (compile source).map fun p => p.isMatch (Text.Utf8.decode line) := by
  refine ⟨?_, fun s hs => Candidate.expand_of_mem_expand hs, firstFault_iff,
    fun e => compile_eq_malformed_iff, compile_eq_emptyExpression_iff, ⟨?_, ?_⟩, fun p hp => ?_,
    fun line => rfl⟩
  · exact List.pairwise_map.mpr (Candidate.inOrder_ofPattern source)
  · rintro ⟨p, hp⟩
    obtain ⟨-, hreads, hne⟩ := compile_eq_ok_iff.mp hp
    exact ⟨fun s hs => exists_eq_ok_of_map_eq hreads hs, hne⟩
  · rintro ⟨hgood, hne⟩
    obtain ⟨candidates, hreads⟩ := exists_reads hgood
    exact ⟨⟨source, candidates⟩, compile_eq_ok_iff.mpr ⟨rfl, hreads, hne⟩⟩
  · refine ⟨(compile_eq_ok_iff.mp hp).2.1, fun s hs => ?_, isMatch_iff_exists_compile hp⟩
    obtain ⟨atoms, -, -, hcompile⟩ := compile_of_mem_expand hp hs
    exact ⟨_, hcompile⟩

/-- Nothing, or a plus, or the letter `a`: the plus is reported, with its place in the pattern,
    although the empty text comes before it. -/
theorem compile_nothingOrPlus :
    FirstFault "(|+|a)".toList (.danglingQuantifier '+' 2) ∧
      Pattern.compile "(|+|a)".toList = .error (.malformed (.danglingQuantifier '+' 2)) := by
  have hpattern : Candidate.ofPattern "(|+|a)".toList = [[], [⟨2, '+'⟩], [⟨4, 'a'⟩]] := by
    have hgroup : Candidate.ofPattern "(|+|a)".toList =
        Candidate.settle [[], [⟨2, '+'⟩], [⟨4, 'a'⟩]] :=
      Candidate.settle_of_ascending List.mem_cons_self rfl (by decide)
    rw [hgroup, Candidate.settle_of_none rfl]
  have hfault : FirstFault "(|+|a)".toList (.danglingQuantifier '+' 2) := by
    refine ⟨[[]], [⟨2, '+'⟩], [[⟨4, 'a'⟩]], hpattern, ?_, .danglingQuantifier '+' 0, rfl, rfl⟩
    intro c hc
    obtain rfl := List.mem_singleton.mp hc
    exact ⟨[], rfl⟩
  obtain ⟨-, -, -, hmalformed, -⟩ := compile_allOrNothing "(|+|a)".toList
  exact ⟨hfault, (hmalformed _).mpr hfault⟩

end Pattern

end LineSieve
