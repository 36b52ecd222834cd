import LineSieve.Proofs.Places

/-!
# Where the passes end

The passes work on all candidates at once and keep one candidate for each text. Behind them is a
relation on single candidates: `Settles c d` chooses a branch in the first group of `c`, again and
again, until `d` has no group left.

* **`settles_of_mem_ofPattern`**: every candidate of a pattern, places included, is one that the
  pattern settles on.
* **`mem_expand_iff`**: the texts of the candidates are all the texts that the pattern settles on.
  None is lost where two candidates spell the same, because what becomes of a candidate
  depends on its text alone (`Settles.of_text_eq`).
* **`yields_group`** and **`yields_iff_of_no_close`** follow a pattern as it settles, text by text.
-/

namespace LineSieve

namespace Candidate

open Placed (text unplaced)

/-- `d` is what is left of `c` once a branch is chosen in every group, one after the other. -/
inductive Settles : Candidate → Candidate → Prop where
  | done {c : Candidate} (h : firstGroup? c = none) : Settles c c
  | choose {c c' d : Candidate} {g : Group} (h : firstGroup? c = some g) (hc : c' ∈ choices c)
      (hd : Settles c' d) : Settles c d

/-- Choosing in a group replaces it by one of its branches. -/
theorem mem_choices {c c' : Candidate} {g : Group} (h : firstGroup? c = some g) :
    c' ∈ choices c ↔ ∃ branch ∈ branches g.inside, g.before ++ branch ++ g.behind = c' := by
  rw [choices, h]
  exact List.mem_map

theorem settles_of_none {c d : Candidate} (h : firstGroup? c = none) :
    Settles c d ↔ d = c := by
  constructor
  · intro hs
    cases hs with
    | done _ => rfl
    | choose hg _ _ => exact nomatch h.symm.trans hg
  · rintro rfl
    exact .done h

theorem settles_of_some {c d : Candidate} {g : Group} (h : firstGroup? c = some g) :
    Settles c d ↔ ∃ c' ∈ choices c, Settles c' d := by
  constructor
  · intro hs
    cases hs with
    | done hn => exact nomatch hn.symm.trans h
    | choose _ hc hd => exact ⟨_, hc, hd⟩
  · rintro ⟨c', hc, hd⟩
    exact .choose h hc hd

/-! ## Places do not matter -/

theorem Settles.move {c d : Candidate} (f : Nat → Nat) (h : Settles c d) :
    Settles (Candidate.move f c) (Candidate.move f d) := by
  induction h with
  | done h => exact .done (by rw [firstGroup?_move, h]; rfl)
  | choose h hc _ ih =>
      refine .choose (g := Group.move f _) (by rw [firstGroup?_move, h]; rfl) ?_ ih
      rw [choices_move]
      exact List.mem_map_of_mem hc

/-- What a moved candidate settles on is a moved candidate, too. -/
theorem exists_settles_of_move {c e : Candidate} (f : Nat → Nat)
    (h : Settles (Candidate.move f c) e) : ∃ d, Settles c d ∧ Candidate.move f d = e := by
  generalize hm : Candidate.move f c = m at h
  induction h generalizing c with
  | done h =>
      subst hm
      rw [firstGroup?_move, Option.map_eq_none_iff] at h
      exact ⟨c, .done h, rfl⟩
  | choose h hc _ ih =>
      subst hm
      rw [firstGroup?_move, Option.map_eq_some_iff] at h
      obtain ⟨g, hg, -⟩ := h
      rw [choices_move] at hc
      obtain ⟨c', hc', hmove⟩ := List.mem_map.mp hc
      obtain ⟨d, hd, he⟩ := ih hmove
      exact ⟨d, .choose hg hc' hd, he⟩

/-- **What becomes of a candidate depends on its text alone.** -/
theorem Settles.of_text_eq {c c' d : Candidate} (htext : text c = text c') (h : Settles c d) :
    ∃ d', Settles c' d' ∧ text d' = text d := by
  have hmoved := h.move fun _ => 0
  rw [move_zero, htext, ← move_zero] at hmoved
  obtain ⟨d', hd', heq⟩ := exists_settles_of_move _ hmoved
  refine ⟨d', hd', ?_⟩
  rw [← text_move (fun _ => 0) d', heq, text_move]

/-! ## Leaving out repetitions -/

theorem exists_mem_dropRepeats_go (c : Candidate) (cs : List Candidate) :
    ∀ e ∈ c :: cs, ∃ d ∈ dropRepeats.go c cs, text d = text e := by
  induction cs generalizing c with
  | nil =>
      intro e he
      obtain rfl := List.mem_singleton.mp he
      exact ⟨e, List.mem_singleton_self e, rfl⟩
  | cons x cs ih =>
      intro e he
      rw [dropRepeats.go]
      by_cases hx : text x = text c
      · rw [if_pos hx]
        rcases List.mem_cons.mp he with rfl | he
        · exact ih e e List.mem_cons_self
        · rcases List.mem_cons.mp he with rfl | he
          · -- `e` is the one that is left out, and `c` stays in its place
            obtain ⟨d, hd, heq⟩ := ih c c List.mem_cons_self
            exact ⟨d, hd, heq.trans hx.symm⟩
          · exact ih c e (List.mem_cons_of_mem c he)
      · rw [if_neg hx]
        rcases List.mem_cons.mp he with rfl | he
        · exact ⟨e, List.mem_cons_self, rfl⟩
        · obtain ⟨d, hd, heq⟩ := ih x e he
          exact ⟨d, List.mem_cons_of_mem c hd, heq⟩

/-- No text gets lost when repetitions are left out. -/
theorem exists_mem_distinct {e : Candidate} {cs : List Candidate} (h : e ∈ cs) :
    ∃ d ∈ distinct cs, text d = text e := by
  have hsorted : e ∈ cs.mergeSort fun c d => ¬ text d < text c := List.mem_mergeSort.mpr h
  rw [distinct]
  cases hs : cs.mergeSort fun c d => ¬ text d < text c with
  | nil => exact absurd (hs ▸ hsorted) List.not_mem_nil
  | cons c cs => exact exists_mem_dropRepeats_go c cs e (hs ▸ hsorted)

theorem dropRepeats_go_of_ascending {c : Candidate} {cs : List Candidate}
    (h : (c :: cs).Pairwise fun c d => text c < text d) : dropRepeats.go c cs = c :: cs := by
  induction cs generalizing c with
  | nil => rfl
  | cons d cs ih =>
      obtain ⟨hfirst, hrest⟩ := List.pairwise_cons.mp h
      have hne : text d ≠ text c := by
        intro heq
        have hlt := hfirst d List.mem_cons_self
        rw [heq] at hlt
        exact List.lt_irrefl _ hlt
      rw [dropRepeats.go, if_neg hne, ih hrest]

/-- Candidates that are in order, with no repetition, are left as they are. -/
theorem distinct_of_ascending {cs : List Candidate}
    (h : cs.Pairwise fun c d => text c < text d) : distinct cs = cs := by
  have hsorted : cs.Pairwise fun c d => decide (¬ text d < text c) = true :=
    h.imp fun hlt => decide_eq_true (List.lt_asymm hlt)
  rw [distinct, List.mergeSort_of_pairwise hsorted]
  cases cs with
  | nil => rfl
  | cons c cs => exact dropRepeats_go_of_ascending h

/-! ## One pass -/

/-- Passes end when no candidate has a group. -/
theorem firstGroup?_eq_none_of_pass {cs : List Candidate} (h : pass cs = none) :
    ∀ c ∈ cs, firstGroup? c = none := by
  rw [pass] at h
  split at h
  next hall =>
    intro c hc
    exact Option.isNone_iff_eq_none.mp (List.all_eq_true.mp hall c hc)
  next => exact absurd h (Option.some_ne_none _)

/-- What a pass that is made leaves of the candidates. -/
theorem eq_distinct_of_pass {cs next : List Candidate} (h : pass cs = some next) :
    next = distinct (cs.flatMap choices) := by
  rw [pass] at h
  split at h
  next => exact absurd h.symm (Option.some_ne_none _)
  next => exact (Option.some.inj h).symm

/-- **One pass, one choice.** What a candidate settles on before a pass and what the candidates
    settle on behind it are of the same texts, and nothing new comes in. -/
theorem settles_of_pass {cs next : List Candidate} (h : pass cs = some next) :
    (∀ c' ∈ next, ∃ c ∈ cs, ∀ d, Settles c' d → Settles c d) ∧
    ∀ c ∈ cs, ∀ d, Settles c d → ∃ c' ∈ next, ∃ d', Settles c' d' ∧ text d' = text d := by
  obtain rfl := eq_distinct_of_pass h
  constructor
  · intro c' hc'
    obtain ⟨c, hc, hchoice⟩ := List.mem_flatMap.mp (mem_of_mem_distinct hc')
    refine ⟨c, hc, fun d hd => ?_⟩
    cases hg : firstGroup? c with
    | some g => exact .choose hg hchoice hd
    | none =>
        rw [choices, hg] at hchoice
        obtain rfl := List.mem_singleton.mp hchoice
        exact hd
  · intro c hc d hd
    -- the candidate that `c` gives way to on the way to `d`
    have hnext : ∃ e ∈ choices c, Settles e d := by
      cases hd with
      | done hn => exact ⟨c, by rw [choices, hn]; exact List.mem_singleton_self c, .done hn⟩
      | choose _ he hed => exact ⟨_, he, hed⟩
    obtain ⟨e, he, hed⟩ := hnext
    obtain ⟨c', hc', htext⟩ := exists_mem_distinct (List.mem_flatMap.mpr ⟨c, hc, he⟩)
    exact ⟨c', hc', hed.of_text_eq htext.symm⟩

/-! ## All passes -/

theorem settle_of_none {cs : List Candidate} (h : pass cs = none) : settle cs = cs := by
  rw [settle]
  split
  next => rfl
  next hs => exact absurd (hs.symm.trans h) (Option.some_ne_none _)

theorem settle_of_some {cs next : List Candidate} (h : pass cs = some next) :
    settle cs = settle next := by
  rw [settle]
  split
  next hn => exact absurd (h.symm.trans hn) (Option.some_ne_none _)
  next hs => rw [Option.some.inj (hs.symm.trans h)]

/-- One pass over candidates whose branches come in order, with no repetition. -/
theorem settle_of_ascending {cs : List Candidate} {c : Candidate} {g : Group} (hc : c ∈ cs)
    (hg : firstGroup? c = some g)
    (h : (cs.flatMap choices).Pairwise fun c d => text c < text d) :
    settle cs = settle (cs.flatMap choices) := by
  refine settle_of_some ?_
  rw [pass, if_neg, distinct_of_ascending h]
  intro hall
  have hnone := List.all_eq_true.mp hall c hc
  rw [hg] at hnone
  exact Bool.false_ne_true hnone

/-- A pattern with a single group, whose branches come in order, has a candidate for each. -/
theorem ofPattern_of_oneGroup {pattern : List Char} {g : Group}
    (hg : firstGroup? (Placed.ofText pattern) = some g)
    (h : (choices (Placed.ofText pattern)).Pairwise fun c d => text c < text d)
    (hpass : pass (choices (Placed.ofText pattern)) = none) :
    ofPattern pattern = choices (Placed.ofText pattern) := by
  have hone : [Placed.ofText pattern].flatMap choices = choices (Placed.ofText pattern) :=
    List.flatMap_singleton choices _
  rw [← hone] at h
  rw [ofPattern, settle_of_ascending (List.mem_singleton_self _) hg h, hone, settle_of_none hpass]

/-- Every candidate at the end is one that a candidate at the start settles on. -/
theorem exists_settles_of_mem_settle {cs : List Candidate} {d : Candidate} (h : d ∈ settle cs) :
    ∃ c ∈ cs, Settles c d := by
  induction cs using settle.induct with
  | case1 cs hpass =>
      rw [settle_of_none hpass] at h
      exact ⟨d, h, .done (firstGroup?_eq_none_of_pass hpass d h)⟩
  | case2 cs next hpass ih =>
      rw [settle_of_some hpass] at h
      obtain ⟨c', hc', hd⟩ := ih h
      obtain ⟨c, hc, hcd⟩ := (settles_of_pass hpass).1 c' hc'
      exact ⟨c, hc, hcd d hd⟩

/-- Every text that a candidate at the start settles on is there at the end. -/
theorem exists_mem_settle {cs : List Candidate} {c d : Candidate} (hc : c ∈ cs)
    (h : Settles c d) : ∃ e ∈ settle cs, text e = text d := by
  induction cs using settle.induct generalizing c d with
  | case1 cs hpass =>
      rw [settle_of_none hpass]
      obtain rfl := (settles_of_none (firstGroup?_eq_none_of_pass hpass c hc)).mp h
      exact ⟨d, hc, rfl⟩
  | case2 cs next hpass ih =>
      rw [settle_of_some hpass]
      obtain ⟨c', hc', d', hd', htext⟩ := (settles_of_pass hpass).2 c hc d h
      obtain ⟨e, he, heq⟩ := ih hc' hd'
      exact ⟨e, he, heq.trans htext⟩

/-- **Every candidate of a pattern is one that the pattern settles on**, places included. -/
theorem settles_of_mem_ofPattern {pattern : List Char} {d : Candidate}
    (h : d ∈ ofPattern pattern) : Settles (Placed.ofText pattern) d := by
  obtain ⟨c, hc, hd⟩ := exists_settles_of_mem_settle h
  obtain rfl := List.mem_singleton.mp hc
  exact hd

/-- **The texts of the candidates are the texts that the pattern settles on.** -/
theorem mem_expand_iff {pattern s : List Char} :
    s ∈ expand pattern ↔ ∃ d, Settles (Placed.ofText pattern) d ∧ text d = s := by
  constructor
  · intro h
    obtain ⟨d, hd, rfl⟩ := List.mem_map.mp h
    exact ⟨d, settles_of_mem_ofPattern hd, rfl⟩
  · rintro ⟨d, hd, rfl⟩
    obtain ⟨e, he, heq⟩ := exists_mem_settle (List.mem_singleton_self _) hd
    exact List.mem_map.mpr ⟨e, he, heq⟩

/-! ## Settling, text by text -/

theorem untilClose?_eq_none_of_no_close {c : Candidate} (h : ∀ x ∈ c, x.char ≠ ')') :
    untilClose? c = none := by
  induction c with
  | nil => rfl
  | cons x c ih =>
      rw [untilClose?, if_neg (h x List.mem_cons_self),
        ih fun y hy => h y (List.mem_cons_of_mem x hy)]
      split <;> rfl

/-- Without a `)` there is no group. -/
theorem firstGroup?_eq_none_of_no_close {c : Candidate} (h : ∀ x ∈ c, x.char ≠ ')') :
    firstGroup? c = none := by
  induction c with
  | nil => rfl
  | cons x c ih =>
      have hc : ∀ y ∈ c, y.char ≠ ')' := fun y hy => h y (List.mem_cons_of_mem x hy)
      rw [firstGroup?, untilClose?_eq_none_of_no_close hc, ite_self, ih hc]
      rfl

theorem firstGroup?_unplaced {s : List Char} (h : ')' ∉ s) : firstGroup? (unplaced s) = none := by
  refine firstGroup?_eq_none_of_no_close fun x hx => ?_
  obtain ⟨c, hc, rfl⟩ := List.mem_map.mp hx
  rintro rfl
  exact h hc

theorem untilClose?_of_plain {inside : Candidate} (h : Plain inside) {close : Placed}
    (hclose : close.char = ')') (behind : Candidate) :
    untilClose? (inside ++ close :: behind) = some (inside, behind) := by
  induction inside with
  | nil => rw [List.nil_append, untilClose?, if_pos hclose]
  | cons x inside ih =>
      have hx := h x List.mem_cons_self
      rw [List.cons_append, untilClose?, if_neg hx.2, if_neg hx.1,
        ih fun y hy => h y (List.mem_cons_of_mem x hy)]
      rfl

theorem untilClose?_append_open {before : Candidate} (h : untilClose? before = none)
    {opening : Placed} (hopen : opening.char = '(') (rest : Candidate) :
    untilClose? (before ++ opening :: rest) = none := by
  induction before with
  | nil => rw [List.nil_append, untilClose?, if_neg (by rw [hopen]; decide), if_pos hopen]
  | cons x before ih =>
      rw [untilClose?] at h
      rw [List.cons_append, untilClose?]
      split at h
      next => exact absurd h (Option.some_ne_none _)
      next hclose =>
        rw [if_neg hclose]
        split at h
        next hx => rw [if_pos hx]
        next hx => rw [if_neg hx, ih (Option.map_eq_none_iff.mp h), Option.map_none]

/-- Parentheses with none between them are the first group if there is none in front. -/
theorem firstGroup?_append {before inside : Candidate} (hbefore : firstGroup? before = none)
    (hplain : Plain inside) {opening close : Placed} (hopen : opening.char = '(')
    (hclose : close.char = ')') (behind : Candidate) :
    firstGroup? (before ++ opening :: (inside ++ close :: behind)) =
      some ⟨before, inside, behind⟩ := by
  induction before with
  | nil => rw [List.nil_append, firstGroup?, if_pos hopen, untilClose?_of_plain hplain hclose]
  | cons x before ih =>
      rw [firstGroup?] at hbefore
      rw [List.cons_append, firstGroup?]
      by_cases hx : x.char = '('
      · rw [if_pos hx] at hbefore ⊢
        cases hu : untilClose? before with
        | some split =>
            rw [hu] at hbefore
            exact absurd hbefore (Option.some_ne_none _)
        | none =>
            rw [hu, Option.map_eq_none_iff] at hbefore
            rw [untilClose?_append_open hu hopen, ih hbefore]
            rfl
      · rw [if_neg hx] at hbefore ⊢
        rw [ih (Option.map_eq_none_iff.mp hbefore)]
        rfl

theorem branches_unplaced (s : List Char) :
    branches (unplaced s) = (s.splitOn '|').map unplaced := by
  induction s with
  | nil => rfl
  | cons c s ih =>
      have hsplit : (c :: s).splitOn '|' =
          if c = '|' then [] :: s.splitOn '|' else (s.splitOn '|').modifyHead (c :: ·) := by
        rw [List.splitOn, List.splitOnP_cons_eq_if_modifyHead, List.splitOn]
        simp only [beq_iff_eq]
      rw [unplaced_cons, branches, ih, hsplit]
      by_cases hbar : c = '|'
      · rw [if_pos hbar, if_pos hbar]
        rfl
      · rw [if_neg hbar, if_neg hbar]
        cases s.splitOn '|' <;> rfl

/-- The text `s` settles on the text `t`. -/
def Yields (s t : List Char) : Prop :=
  Settles (unplaced s) (unplaced t)

/-- The candidates of a pattern spell what it yields. -/
theorem mem_expand_iff_yields {pattern s : List Char} : s ∈ expand pattern ↔ Yields pattern s := by
  rw [mem_expand_iff]
  constructor
  · rintro ⟨d, hd, rfl⟩
    have hmoved := hd.move fun _ => 0
    rw [move_zero, move_zero, Placed.text_ofText] at hmoved
    exact hmoved
  · intro h
    have hsame : text (unplaced pattern) = text (Placed.ofText pattern) := by
      rw [text_unplaced, Placed.text_ofText]
    obtain ⟨d, hd, htext⟩ := h.of_text_eq hsame
    exact ⟨d, hd, by rw [htext, text_unplaced]⟩

/-- A text without `)` yields itself. -/
theorem yields_iff_of_no_close {s t : List Char} (h : ')' ∉ s) : Yields s t ↔ t = s := by
  rw [Yields, settles_of_none (firstGroup?_unplaced h)]
  constructor
  · intro heq
    rw [← text_unplaced t, heq, text_unplaced]
  · rintro rfl
    rfl

/-- **A text yields what it yields with its first group replaced by one of the branches.** -/
theorem yields_group {before inside : List Char} (hbefore : ')' ∉ before)
    (hinside : ∀ c ∈ inside, c ≠ '(' ∧ c ≠ ')') (behind t : List Char) :
    Yields (before ++ '(' :: (inside ++ ')' :: behind)) t ↔
      ∃ branch ∈ inside.splitOn '|', Yields (before ++ branch ++ behind) t := by
  have hplain : Plain (unplaced inside) := by
    intro x hx
    obtain ⟨c, hc, rfl⟩ := List.mem_map.mp hx
    exact hinside c hc
  have hgroup : firstGroup? (unplaced (before ++ '(' :: (inside ++ ')' :: behind))) =
      some ⟨unplaced before, unplaced inside, unplaced behind⟩ := by
    rw [unplaced_append, unplaced_cons, unplaced_append, unplaced_cons]
    exact firstGroup?_append (firstGroup?_unplaced hbefore) hplain rfl rfl _
  rw [Yields, settles_of_some hgroup]
  constructor
  · rintro ⟨c', hc', hsettles⟩
    obtain ⟨branch, hbranch, rfl⟩ := (mem_choices hgroup).mp hc'
    rw [branches_unplaced] at hbranch
    obtain ⟨branch, hmem, rfl⟩ := List.mem_map.mp hbranch
    refine ⟨branch, hmem, ?_⟩
    rw [Yields, unplaced_append, unplaced_append]
    exact hsettles
  · rintro ⟨branch, hmem, hsettles⟩
    rw [Yields, unplaced_append, unplaced_append] at hsettles
    refine ⟨_, (mem_choices hgroup).mpr ⟨unplaced branch, ?_, rfl⟩, hsettles⟩
    rw [branches_unplaced]
    exact List.mem_map_of_mem hmem

end Candidate

end LineSieve
