import LineSieve.Proofs.Alternatives.Settling
import LineSieve.Proofs.Compiling
import LineSieve.Proofs.Reading.Gluing

/-!
# Patterns as trees

A pattern written with groups is a tree: texts one after the other and between them groups,
whose branches are again such rows. The passes never see the tree. They rewrite texts from the
inside out, leave out repetitions and glue what is chosen to what stands around it, and only what
comes out is read.

* **`Nodes.yields_iff`**: wherever a row of nodes stands behind text without `)`, it settles the
  way its choices do, put in its place. The induction is on the tree; in a group, on its
  branches, with the branches in front already undone (`Branches.yields_iff`).
* **`PatternTree.mem_expand_iff`**: so the texts of a pattern are those that its choices spell.
* **`PatternTree.parse_spell`**: each is read as the atoms of its leaves, one leaf after the other.
* **`PatternTree.compile_render`**: compiling the text of a tree is choosing in the tree.
-/

namespace LineSieve

/-- Neither a parenthesis nor a bar. -/
def PlainText (s : List Char) : Prop :=
  '(' ∉ s ∧ ')' ∉ s ∧ '|' ∉ s

theorem PlainText.noParen {s : List Char} (h : PlainText s) : ∀ c ∈ s, c ≠ '(' ∧ c ≠ ')' := by
  intro c hc
  constructor
  · rintro rfl
    exact h.1 hc
  · rintro rfl
    exact h.2.1 hc

/-- A text between groups, which may be empty and reads well by itself, without anchors. -/
structure Leaf where
  text : List Char
  atoms : Sequence
  plain : PlainText text
  reads : Sequence.parse text = .ok atoms
  unanchored : atoms.Unanchored

/-- A character that stands for itself. -/
def Leaf.character (c : Char) (hplain : PlainText [c]) (hc : c ∉ Parser.special) : Leaf where
  text := [c]
  atoms := [.one (.literal c)]
  plain := hplain
  reads := Sequence.parse_eq_ok.mpr ⟨_, Parser.foldlM_step_cons.mpr ⟨_, .literal hc, rfl⟩, rfl⟩
  unanchored := ⟨by simp, by simp⟩

mutual
/-- A part of a pattern: a text, or a group. -/
inductive Node where
  | leaf (leaf : Leaf)
  | group (branches : Branches)

/-- Nodes in a row. -/
inductive Nodes where
  | nil
  | cons (node : Node) (nodes : Nodes)

/-- The branches of a group, at least one. -/
inductive Branches where
  | last (nodes : Nodes)
  | more (nodes : Nodes) (branches : Branches)
end

mutual
/-- The node as a pattern writes it. -/
def Node.render : Node → List Char
  | .leaf leaf => leaf.text
  | .group branches => '(' :: (branches.render ++ [')'])

/-- The nodes as a pattern writes them. -/
def Nodes.render : Nodes → List Char
  | .nil => []
  | .cons node nodes => node.render ++ nodes.render

/-- The branches as a pattern writes them, between bars. -/
def Branches.render : Branches → List Char
  | .last nodes => nodes.render
  | .more nodes branches => nodes.render ++ '|' :: branches.render
end

mutual
/-- The leaves that remain where a branch is picked in every group reached, choice by choice. -/
def Node.choices : Node → List (List Leaf)
  | .leaf leaf => [[leaf]]
  | .group branches => branches.choices

/-- Every choice in the first node goes with every choice in the others. -/
def Nodes.choices : Nodes → List (List Leaf)
  | .nil => [[]]
  | .cons node nodes => node.choices.flatMap fun front => nodes.choices.map (front ++ ·)

/-- The choices in one branch or another. -/
def Branches.choices : Branches → List (List Leaf)
  | .last nodes => nodes.choices
  | .more nodes branches => nodes.choices ++ branches.choices
end

namespace Leaf

/-- The text of leaves, one after the other. -/
def spell (leaves : List Leaf) : List Char :=
  leaves.flatMap Leaf.text

/-- The atoms of leaves, one leaf after the other. -/
def atomsOf (leaves : List Leaf) : Sequence :=
  leaves.flatMap Leaf.atoms

theorem spell_append (front leaves : List Leaf) :
    spell (front ++ leaves) = spell front ++ spell leaves :=
  List.flatMap_append

theorem plainText_spell (leaves : List Leaf) : PlainText (spell leaves) := by
  have notMem {c : Char} (h : ∀ leaf : Leaf, c ∉ leaf.text) : c ∉ spell leaves := by
    intro hmem
    obtain ⟨leaf, -, hc⟩ := List.mem_flatMap.mp hmem
    exact h leaf hc
  exact ⟨notMem (·.plain.1), notMem (·.plain.2.1), notMem (·.plain.2.2)⟩

end Leaf

open Leaf (spell atomsOf spell_append plainText_spell)
open Candidate (Yields yields_group yields_iff_of_no_close)

/-! ## There is always a choice -/

mutual
theorem Node.choices_ne_nil (node : Node) : node.choices ≠ [] := by
  cases node with
  | leaf leaf => exact List.cons_ne_nil _ _
  | group branches => exact branches.choices_ne_nil

theorem Nodes.choices_ne_nil (nodes : Nodes) : nodes.choices ≠ [] := by
  cases nodes with
  | nil => exact List.cons_ne_nil _ _
  | cons node nodes =>
      obtain ⟨front, hfront⟩ := List.exists_mem_of_ne_nil _ node.choices_ne_nil
      obtain ⟨leaves, hleaves⟩ := List.exists_mem_of_ne_nil _ nodes.choices_ne_nil
      exact List.ne_nil_of_mem
        (List.mem_flatMap.mpr ⟨front, hfront, List.mem_map_of_mem hleaves⟩)

theorem Branches.choices_ne_nil (branches : Branches) : branches.choices ≠ [] := by
  cases branches with
  | last nodes => exact nodes.choices_ne_nil
  | more nodes branches => exact List.append_ne_nil_of_left_ne_nil nodes.choices_ne_nil _
end

/-! ## Settling a tree -/

/-- Words, each with a bar behind it. -/
def Branches.barred (words : List (List Char)) : List Char :=
  words.flatMap (· ++ ['|'])

open Branches (barred)

theorem barred_concat (words : List (List Char)) (word : List Char) :
    barred (words ++ [word]) = barred words ++ (word ++ ['|']) := by
  rw [barred, List.flatMap_append, List.flatMap_singleton]
  rfl

theorem splitOn_barred {words : List (List Char)} {last : List Char}
    (hwords : ∀ word ∈ words, PlainText word) (hlast : PlainText last) :
    (barred words ++ last).splitOn '|' = words ++ [last] := by
  induction words with
  | nil => exact List.splitOn_eq_singleton hlast.2.2
  | cons word words ih =>
      have hbarred : barred (word :: words) ++ last = word ++ '|' :: (barred words ++ last) := by
        rw [barred, List.flatMap_cons, List.append_assoc, List.append_assoc]
        rfl
      rw [hbarred, List.splitOn_append_cons_self_of_not_mem (hwords word List.mem_cons_self).2.2,
        ih fun w hw => hwords w (List.mem_cons_of_mem word hw)]
      rfl

theorem noParen_barred {words : List (List Char)} (hwords : ∀ word ∈ words, PlainText word) :
    ∀ c ∈ barred words, c ≠ '(' ∧ c ≠ ')' := by
  intro c hc
  obtain ⟨word, hword, hc⟩ := List.mem_flatMap.mp hc
  rcases List.mem_append.mp hc with hc | hc
  · exact (hwords word hword).noParen c hc
  · obtain rfl := List.mem_singleton.mp hc
    exact ⟨by decide, by decide⟩

/-- A group whose branches are undone settles the way they do. -/
theorem yields_undone_group {before last : List Char} {words : List (List Char)}
    (hbefore : ')' ∉ before) (hwords : ∀ word ∈ words, PlainText word) (hlast : PlainText last)
    (behind t : List Char) :
    Yields (before ++ '(' :: (barred words ++ last ++ ')' :: behind)) t ↔
      ∃ word ∈ words ++ [last], Yields (before ++ word ++ behind) t := by
  have hinside : ∀ c ∈ barred words ++ last, c ≠ '(' ∧ c ≠ ')' := by
    intro c hc
    rcases List.mem_append.mp hc with hc | hc
    · exact noParen_barred hwords c hc
    · exact hlast.noParen c hc
  rw [yields_group hbefore hinside, splitOn_barred hwords hlast]

/-- One of several words is put in a row, and one of the row is taken: that is one of them all. -/
theorem exists_mem_row {xs : List (List Leaf)} (hne : xs ≠ []) (words others : List (List Char))
    {P : List Char → Prop} :
    (∃ x ∈ xs, ∃ word ∈ words ++ spell x :: others, P word) ↔
      ∃ word ∈ words ++ (xs.map spell ++ others), P word := by
  simp only [List.mem_append, List.mem_cons, List.mem_map]
  constructor
  · rintro ⟨x, hx, word, hword | rfl | hword, h⟩
    · exact ⟨word, .inl hword, h⟩
    · exact ⟨spell x, .inr (.inl ⟨x, hx, rfl⟩), h⟩
    · exact ⟨word, .inr (.inr hword), h⟩
  · -- a word that is in the row anyway needs some word beside it
    obtain ⟨some, hsome⟩ := List.exists_mem_of_ne_nil xs hne
    rintro ⟨word, hword | ⟨x, hx, rfl⟩ | hword, h⟩
    · exact ⟨some, hsome, word, .inl hword, h⟩
    · exact ⟨x, hx, spell x, .inr (.inl rfl), h⟩
    · exact ⟨some, hsome, word, .inr (.inr hword), h⟩

mutual
theorem Node.yields_iff (node : Node) {before : List Char} (hbefore : ')' ∉ before)
    (behind t : List Char) :
    Yields (before ++ node.render ++ behind) t ↔
      ∃ leaves ∈ node.choices, Yields (before ++ spell leaves ++ behind) t := by
  cases node with
  | leaf leaf =>
      have hspell : spell [leaf] = leaf.text := List.append_nil _
      constructor
      · intro h
        refine ⟨[leaf], List.mem_singleton_self _, ?_⟩
        rw [hspell]
        exact h
      · rintro ⟨leaves, hmem, h⟩
        obtain rfl := List.mem_singleton.mp hmem
        rw [hspell] at h
        exact h
  | group branches =>
      have htext : before ++ Node.render (.group branches) ++ behind =
          before ++ '(' :: (barred [] ++ branches.render ++ ')' :: behind) := by
        rw [Node.render, barred, List.flatMap_nil, List.nil_append, List.append_assoc,
          List.cons_append, List.append_assoc]
        rfl
      have hnone : ∀ word ∈ ([] : List (List Char)), PlainText word := by
        intro word h
        exact absurd h List.not_mem_nil
      rw [htext, branches.yields_iff hbefore hnone, List.nil_append, Node.choices]
      constructor
      · rintro ⟨word, hword, h⟩
        obtain ⟨leaves, hmem, rfl⟩ := List.mem_map.mp hword
        exact ⟨leaves, hmem, h⟩
      · rintro ⟨leaves, hmem, h⟩
        exact ⟨spell leaves, List.mem_map_of_mem hmem, h⟩

/-- **A row of nodes settles the way its choices do**, wherever it stands behind text without
    `)`. -/
theorem Nodes.yields_iff (nodes : Nodes) {before : List Char} (hbefore : ')' ∉ before)
    (behind t : List Char) :
    Yields (before ++ nodes.render ++ behind) t ↔
      ∃ leaves ∈ nodes.choices, Yields (before ++ spell leaves ++ behind) t := by
  cases nodes with
  | nil =>
      constructor
      · intro h
        exact ⟨[], List.mem_singleton_self _, h⟩
      · rintro ⟨leaves, hmem, h⟩
        obtain rfl := List.mem_singleton.mp hmem
        exact h
  | cons node nodes =>
      have htext : before ++ Nodes.render (.cons node nodes) ++ behind =
          before ++ node.render ++ (nodes.render ++ behind) := by
        rw [Nodes.render, List.append_assoc, List.append_assoc, List.append_assoc]
      -- the other nodes stand behind what is chosen in the first one
      have hothers (front : List Leaf) :
          Yields (before ++ spell front ++ (nodes.render ++ behind)) t ↔
            ∃ leaves ∈ nodes.choices,
              Yields (before ++ spell (front ++ leaves) ++ behind) t := by
        rw [← List.append_assoc,
          nodes.yields_iff (List.not_mem_append hbefore (plainText_spell front).2.1)]
        simp only [spell_append, List.append_assoc]
      rw [htext, node.yields_iff hbefore, Nodes.choices]
      constructor
      · rintro ⟨front, hfront, h⟩
        obtain ⟨leaves, hleaves, h⟩ := (hothers front).mp h
        exact ⟨front ++ leaves,
          List.mem_flatMap.mpr ⟨front, hfront, List.mem_map_of_mem hleaves⟩, h⟩
      · rintro ⟨all, hall, h⟩
        obtain ⟨front, hfront, hall⟩ := List.mem_flatMap.mp hall
        obtain ⟨leaves, hleaves, rfl⟩ := List.mem_map.mp hall
        exact ⟨front, hfront, (hothers front).mpr ⟨leaves, hleaves, h⟩⟩

/-- **The branches of a group settle one after the other**: those in front are already undone and
    are plain words. -/
theorem Branches.yields_iff (branches : Branches) {before : List Char} (hbefore : ')' ∉ before)
    {words : List (List Char)} (hwords : ∀ word ∈ words, PlainText word)
    (behind t : List Char) :
    Yields (before ++ '(' :: (barred words ++ branches.render ++ ')' :: behind)) t ↔
      ∃ word ∈ words ++ branches.choices.map spell, Yields (before ++ word ++ behind) t := by
  have hopen : ')' ∉ before ++ '(' :: barred words := by
    refine List.not_mem_append hbefore fun h => ?_
    rcases List.mem_cons.mp h with heq | h
    · exact absurd heq (by decide)
    · exact (noParen_barred hwords _ h).2 rfl
  cases branches with
  | last nodes =>
      have htext : before ++ '(' :: (barred words ++ Branches.render (.last nodes) ++
            ')' :: behind) =
          before ++ '(' :: barred words ++ nodes.render ++ ')' :: behind := by
        simp only [Branches.render, List.append_assoc, List.cons_append]
      have hundone (leaves : List Leaf) :
          Yields (before ++ '(' :: barred words ++ spell leaves ++ ')' :: behind) t ↔
            ∃ word ∈ words ++ [spell leaves], Yields (before ++ word ++ behind) t := by
        rw [← yields_undone_group hbefore hwords (plainText_spell leaves)]
        simp only [List.append_assoc, List.cons_append]
      rw [htext, nodes.yields_iff hopen, Branches.choices]
      simp only [hundone]
      rw [exists_mem_row nodes.choices_ne_nil, List.append_nil]
  | more nodes branches =>
      have htext : before ++ '(' :: (barred words ++ Branches.render (.more nodes branches) ++
            ')' :: behind) =
          before ++ '(' :: barred words ++ nodes.render ++
            '|' :: (branches.render ++ ')' :: behind) := by
        simp only [Branches.render, List.append_assoc, List.cons_append]
      -- what is chosen in this branch is one more word in front of the others
      have hothers (leaves : List Leaf) :
          Yields (before ++ '(' :: barred words ++ spell leaves ++
              '|' :: (branches.render ++ ')' :: behind)) t ↔
            ∃ word ∈ words ++ spell leaves :: branches.choices.map spell,
              Yields (before ++ word ++ behind) t := by
        have hword : ∀ word ∈ words ++ [spell leaves], PlainText word := by
          intro word hmem
          rcases List.mem_append.mp hmem with hmem | hmem
          · exact hwords word hmem
          · obtain rfl := List.mem_singleton.mp hmem
            exact plainText_spell leaves
        have hsettled := branches.yields_iff hbefore hword behind t
        rw [barred_concat, List.append_assoc words, List.singleton_append] at hsettled
        rw [← hsettled]
        simp only [List.append_assoc, List.cons_append, List.nil_append]
      rw [htext, nodes.yields_iff hopen, Branches.choices]
      simp only [hothers]
      rw [exists_mem_row nodes.choices_ne_nil, List.map_append]
end

/-! ## Reading what is chosen -/

/-- **Leaves glued together are read as their atoms, one leaf after the other.** -/
theorem foldlM_step_spell (leaves : List Leaf) (base : List Atom) :
    (Placed.unplaced (spell leaves)).foldlM Parser.step ⟨base, .between⟩ =
      .ok ⟨(atomsOf leaves).reverse ++ base, .between⟩ := by
  induction leaves generalizing base with
  | nil => rfl
  | cons leaf leaves ih =>
      have hspell : spell (leaf :: leaves) = leaf.text ++ spell leaves := List.flatMap_cons
      have hatoms : atomsOf (leaf :: leaves) = leaf.atoms ++ atomsOf leaves := List.flatMap_cons
      rw [hspell, hatoms, Candidate.unplaced_append, List.foldlM_append,
        Sequence.foldlM_step_unplaced leaf.reads leaf.unanchored, List.reverse_append,
        List.append_assoc]
      exact ih (leaf.atoms.reverse ++ base)

/-! ## Whole patterns -/

/-- A pattern: nodes in a row, with a `^` before or a `$` behind them or neither. -/
structure PatternTree where
  fromStart : Bool
  nodes : Nodes
  toEnd : Bool

namespace PatternTree

/-- What is written before the nodes. -/
def front (t : PatternTree) : Sequence :=
  if t.fromStart then [.lineStart] else []

/-- What is written behind the nodes. -/
def back (t : PatternTree) : Sequence :=
  if t.toEnd then [.lineEnd] else []

/-- The pattern as typed. -/
def render (t : PatternTree) : List Char :=
  t.front.render ++ t.nodes.render ++ t.back.render

/-- The atoms that a choice asks for. -/
def atoms (t : PatternTree) (leaves : List Leaf) : Sequence :=
  t.front ++ atomsOf leaves ++ t.back

/-- What the pattern asks for, choice by choice. -/
def asks (t : PatternTree) : List Sequence :=
  t.nodes.choices.map t.atoms

theorem noClose_front (t : PatternTree) : ')' ∉ t.front.render := by
  rw [front]
  cases t.fromStart <;> decide

theorem noClose_back (t : PatternTree) : ')' ∉ t.back.render := by
  rw [back]
  cases t.toEnd <;> decide

/-- **The texts of a pattern are those that its choices spell.** -/
theorem mem_expand_iff {t : PatternTree} {s : List Char} :
    s ∈ Candidate.expand t.render ↔
      ∃ leaves ∈ t.nodes.choices, s = t.front.render ++ spell leaves ++ t.back.render := by
  rw [Candidate.mem_expand_iff_yields, render, t.nodes.yields_iff t.noClose_front]
  refine exists_congr fun leaves => and_congr_right fun _ => yields_iff_of_no_close ?_
  exact List.not_mem_append
    (List.not_mem_append t.noClose_front (plainText_spell leaves).2.1) t.noClose_back

/-- **What a choice spells is read as the atoms that it asks for.** -/
theorem parse_spell (t : PatternTree) (leaves : List Leaf) :
    Sequence.parse (t.front.render ++ spell leaves ++ t.back.render) = .ok (t.atoms leaves) := by
  have hfront : (Placed.unplaced t.front.render).foldlM Parser.step {} =
      .ok ⟨t.front.reverse, .between⟩ := by
    rw [front]
    cases t.fromStart <;> rfl
  have hback (base : List Atom) :
      ∃ p, (Placed.unplaced t.back.render).foldlM Parser.step ⟨base, .between⟩ = .ok p ∧
        p.finish = .ok (base.reverse ++ t.back) := by
    rw [back]
    cases t.toEnd with
    | false => exact ⟨⟨base, .between⟩, rfl, congrArg _ (List.append_nil _).symm⟩
    | true => exact ⟨⟨.lineEnd :: base, .ended 0⟩, rfl, congrArg _ List.reverse_cons⟩
  -- the three parts are read one after the other, each on top of the atoms before it
  obtain ⟨p, hrun, hfinish⟩ := hback ((atomsOf leaves).reverse ++ t.front.reverse)
  rw [List.reverse_append, List.reverse_reverse, List.reverse_reverse] at hfinish
  refine Sequence.parse_eq_ok.mpr ⟨p, ?_, hfinish⟩
  rw [Candidate.unplaced_append, Candidate.unplaced_append, List.foldlM_append,
    List.foldlM_append, hfront]
  show ((Placed.unplaced (spell leaves)).foldlM Parser.step ⟨t.front.reverse, .between⟩ >>= _) = _
  rw [foldlM_step_spell]
  exact hrun

/-- **Choosing in the text is choosing in the tree.** A pattern with a choice that has no atoms is
    refused. Any other is compiled, its candidates are what its choices ask for, and a text
    matches it exactly if what some choice asks for is found there. -/
theorem compile_render (t : PatternTree) :
    ([] ∈ t.asks → Pattern.compile t.render = .error .emptyExpression) ∧
    ([] ∉ t.asks → ∃ p, Pattern.compile t.render = .ok p ∧
      (∀ atoms, atoms ∈ p.candidates ↔ atoms ∈ t.asks) ∧
      ∀ line, p.isMatch line = true ↔
        ∃ atoms ∈ t.asks, Sequence.search line atoms = .ok true) := by
  have hgood : ∀ s ∈ Candidate.expand t.render, ∃ atoms, Sequence.parse s = .ok atoms := by
    intro s hs
    obtain ⟨leaves, -, rfl⟩ := mem_expand_iff.mp hs
    exact ⟨t.atoms leaves, t.parse_spell leaves⟩
  obtain ⟨candidates, hreads⟩ := Pattern.exists_reads hgood
  have hasks (atoms : Sequence) : atoms ∈ candidates ↔ atoms ∈ t.asks := by
    rw [Pattern.mem_of_reads hreads, asks, List.mem_map]
    constructor
    · rintro ⟨s, hs, hparse⟩
      obtain ⟨leaves, hmem, rfl⟩ := mem_expand_iff.mp hs
      rw [t.parse_spell leaves] at hparse
      exact ⟨leaves, hmem, Except.ok.inj hparse⟩
    · rintro ⟨leaves, hmem, rfl⟩
      exact ⟨_, mem_expand_iff.mpr ⟨leaves, hmem, rfl⟩, t.parse_spell leaves⟩
  rw [Pattern.compile_of_reads hreads]
  constructor
  · intro hempty
    rw [if_pos ((hasks []).mpr hempty)]
  · intro hne
    have hcandidates : [] ∉ candidates := fun h => hne ((hasks []).mp h)
    refine ⟨⟨t.render, candidates⟩, if_neg hcandidates, hasks, fun line => ?_⟩
    rw [Pattern.isMatch_iff_search hcandidates]
    exact exists_congr fun atoms => and_congr_left' (hasks atoms)

/-- The letter `a` or nothing is refused on its own, and at the end of the line it is not. -/
theorem compile_aOrNothing :
    Pattern.compile ['(', 'a', '|', ')'] = .error .emptyExpression ∧
    ∃ p, Pattern.compile ['(', 'a', '|', ')', '$'] = .ok p ∧
      ∀ line, p.isMatch line = true ↔
        ∃ atoms ∈ [[.one (.literal 'a'), .lineEnd], [.lineEnd]],
          Sequence.search line atoms = .ok true := by
  let a : Leaf := .character 'a' ⟨by decide, by decide, by decide⟩ (by decide)
  let nodes : Nodes := .cons (.group (.more (.cons (.leaf a) .nil) (.last .nil))) .nil
  constructor
  · exact (compile_render ⟨false, nodes, false⟩).1 (by decide)
  · obtain ⟨p, hp, -, hmatch⟩ := (compile_render ⟨false, nodes, true⟩).2 (by decide)
    exact ⟨p, hp, hmatch⟩

end PatternTree

end LineSieve
