import LineSieve.Proofs.Alternatives.Brackets
import LineSieve.Proofs.Alternatives.Pairing

/-!
# One pass for every pair

A pass chooses in all candidates at once, their number may grow with each pass, and candidates that
spell the same become one. How many passes there are depends on none of this. The candidates behind
a pass differ in what stood between parentheses, never in the parentheses themselves, so the first
group is the same pair in all of them or there is none in any.

* **`pairing_of_firstGroup?`**: the first group is the first pair that the stack closes, and a
  choice in it leaves the other pairs as they are.
* **`choices_parens`**: which parentheses a choice leaves depends on the parentheses alone.
* **`Share.exists_pair_of_pass`** and **`exists_share_of_passes`**: what the candidates have in
  common, through one pass and through all of them. The pairs of the pattern go one by one, in the
  order in which the stack closes them.
* **`passes_undo_pairs`**: so there are as many passes as pairs.
-/

namespace LineSieve

namespace Candidate

open Placed (text)

variable {pattern : List Char} {c d : Candidate} {cs next : List Candidate} {g : Group}

/-! ## The stack -/

/-- The places of the parentheses that are open behind a candidate, the innermost first, with
    `opened` those open in front. -/
def openBehind : List Nat → Candidate → List Nat
  | opened, [] => opened
  | opened, x :: c =>
      if x.char = '(' then openBehind (x.pos :: opened) c
      else if x.char = ')' then openBehind opened.tail c
      else openBehind opened c

/-- The stack goes on behind a candidate with what it has left open. -/
theorem pairingFrom_append (opened : List Nat) (c d : Candidate) :
    pairingFrom opened (c ++ d) = pairingFrom opened c ++ pairingFrom (openBehind opened c) d := by
  induction c generalizing opened with
  | nil => rfl
  | cons x c ih =>
      rw [List.cons_append, openBehind]
      by_cases hopen : x.char = '('
      · rw [if_pos hopen, pairingFrom_open hopen, pairingFrom_open hopen, ih]
      · rw [if_neg hopen]
        by_cases hclose : x.char = ')'
        · rw [if_pos hclose]
          cases opened with
          | nil =>
              rw [pairingFrom_stray hclose, pairingFrom_stray hclose, ih]
              rfl
          | cons innermost opened =>
              rw [pairingFrom_close hclose, pairingFrom_close hclose, ih]
              rfl
        · rw [if_neg hclose, pairingFrom_other hopen hclose, pairingFrom_other hopen hclose, ih]

/-- There is a pair exactly if there is a group. -/
theorem pairing_eq_nil_iff : pairing c = [] ↔ firstGroup? c = none := by
  rw [firstGroup?_eq_none_iff, pairs, ← List.length_eq_zero_iff, pairing, length_pairingFrom]
  rfl

theorem untilClose?_append {inside behind : Candidate}
    (h : untilClose? c = some (inside, behind)) (d : Candidate) :
    untilClose? (c ++ d) = some (inside, behind ++ d) := by
  obtain ⟨hplain, close, hclose, rfl⟩ := eq_of_untilClose? h
  rw [List.append_assoc, List.cons_append, untilClose?_of_plain hplain hclose]

/-- No group stands in front of the first one. -/
theorem firstGroup?_before (h : firstGroup? c = some g) : firstGroup? g.before = none := by
  induction c generalizing g with
  | nil => exact nomatch h
  | cons x c ih =>
      rw [firstGroup?] at h
      split at h
      next inside behind hinside =>
        obtain rfl := Option.some.inj h
        rfl
      next hnone =>
        obtain ⟨g, hg, rfl⟩ := Option.map_eq_some_iff.mp h
        show firstGroup? (x :: g.before) = none
        -- had `x` a partner in front of the group, it would have it in the whole, too
        have hopen : (if x.char = '(' then untilClose? g.before else none) = none := by
          by_cases hx : x.char = '('
          · rw [if_pos hx] at hnone ⊢
            cases hu : untilClose? g.before with
            | none => rfl
            | some split =>
                obtain ⟨-, opening, close, -, -, rfl⟩ := eq_of_firstGroup? hg
                have hwhole := (untilClose?_append hu _).symm.trans hnone
                exact absurd hwhole (Option.some_ne_none _)
          · exact if_neg hx
        rw [firstGroup?, hopen, ih hg]
        rfl

/-- **The first group is the first pair that the stack closes.** Whatever without parentheses comes
    in its place, the other pairs are the same. -/
theorem pairing_of_firstGroup? (h : firstGroup? c = some g) :
    Plain g.inside ∧ ∃ opening close : Placed, opening.char = '(' ∧ close.char = ')' ∧
      c = g.before ++ opening :: (g.inside ++ close :: g.behind) ∧
      ∀ branch, Plain branch →
        pairing c = ⟨opening.pos, close.pos⟩ :: pairing (g.before ++ branch ++ g.behind) := by
  obtain ⟨hplain, opening, close, hopen, hclose, rfl⟩ := eq_of_firstGroup? h
  refine ⟨hplain, opening, close, hopen, hclose, rfl, fun branch hbranch => ?_⟩
  have hbefore : pairing g.before = [] := pairing_eq_nil_iff.mpr (firstGroup?_before h)
  have hfront (rest : Candidate) :
      pairing (g.before ++ rest) = pairingFrom (openBehind [] g.before) rest := by
    rw [pairing, pairingFrom_append, ← pairing, hbefore, List.nil_append]
  rw [List.append_assoc, hfront, hfront, pairingFrom_open hopen, pairingFrom_append_of_plain hplain,
    pairingFrom_close hclose, pairingFrom_append_of_plain hbranch]

/-! ## Parentheses alone -/

/-- The parentheses of a candidate, in order and with their places. -/
def parens (c : Candidate) : Candidate :=
  c.filter fun x => x.char = '(' ∨ x.char = ')'

@[simp] theorem parens_append (c d : Candidate) : parens (c ++ d) = parens c ++ parens d :=
  List.filter_append c d

theorem parens_cons_paren {x : Placed} (h : x.char = '(' ∨ x.char = ')') (c : Candidate) :
    parens (x :: c) = x :: parens c :=
  List.filter_cons_of_pos (decide_eq_true h)

theorem parens_cons_other {x : Placed} (h : ¬ (x.char = '(' ∨ x.char = ')')) (c : Candidate) :
    parens (x :: c) = parens c :=
  List.filter_cons_of_neg (mt of_decide_eq_true h)

theorem plain_nil : Plain [] :=
  fun _ hx => absurd hx List.not_mem_nil

theorem Plain.parens_eq_nil (h : Plain c) : parens c = [] := by
  refine List.filter_eq_nil_iff.mpr fun x hx hparen => ?_
  exact (of_decide_eq_true hparen).elim (h x hx).1 (h x hx).2

/-- The stack sees parentheses only. -/
theorem pairingFrom_parens (opened : List Nat) (c : Candidate) :
    pairingFrom opened (parens c) = pairingFrom opened c := by
  induction c generalizing opened with
  | nil => rfl
  | cons x c ih =>
      by_cases hopen : x.char = '('
      · rw [parens_cons_paren (Or.inl hopen), pairingFrom_open hopen, pairingFrom_open hopen, ih]
      · by_cases hclose : x.char = ')'
        · rw [parens_cons_paren (Or.inr hclose)]
          cases opened with
          | nil => rw [pairingFrom_stray hclose, pairingFrom_stray hclose, ih]
          | cons innermost opened =>
              rw [pairingFrom_close hclose, pairingFrom_close hclose, ih]
        · rw [parens_cons_other (not_or.mpr ⟨hopen, hclose⟩), pairingFrom_other hopen hclose, ih]

theorem pairing_parens (c : Candidate) : pairing (parens c) = pairing c :=
  pairingFrom_parens [] c

/-- The first group among the parentheses alone is the first group. -/
theorem firstGroup?_parens (h : firstGroup? c = some g) :
    firstGroup? (parens c) = some ⟨parens g.before, [], parens g.behind⟩ := by
  obtain ⟨hplain, opening, close, hopen, hclose, hc⟩ := eq_of_firstGroup? h
  have hbefore : firstGroup? (parens g.before) = none := by
    rw [← pairing_eq_nil_iff, pairing_parens, pairing_eq_nil_iff]
    exact firstGroup?_before h
  rw [hc, parens_append, parens_cons_paren (Or.inl hopen), parens_append, hplain.parens_eq_nil,
    parens_cons_paren (Or.inr hclose), firstGroup?_append hbefore plain_nil hopen hclose]

/-- **Which parentheses a choice leaves depends on the parentheses alone.** -/
theorem choices_parens (h : d ∈ choices c) : choices (parens c) = [parens d] := by
  cases hg : firstGroup? c with
  | none =>
      rw [choices, hg] at h
      obtain rfl := List.mem_singleton.mp h
      have hnone : firstGroup? (parens d) = none := by
        rw [← pairing_eq_nil_iff, pairing_parens, pairing_eq_nil_iff, hg]
      rw [choices, hnone]
  | some g =>
      obtain ⟨branch, hbranch, rfl⟩ := (mem_choices hg).mp h
      have hplain := plain_of_mem_branches (eq_of_firstGroup? hg).1 hbranch
      rw [choices, firstGroup?_parens hg, parens_append, parens_append, hplain.parens_eq_nil]
      rfl

/-! ## What the candidates have in common -/

/-- There is always something to choose, if only the candidate itself. -/
theorem exists_mem_choices (c : Candidate) : ∃ d, d ∈ choices c := by
  cases hg : firstGroup? c with
  | none =>
      rw [choices, hg]
      exact ⟨c, List.mem_singleton_self c⟩
  | some g =>
      obtain ⟨branch, hbranch⟩ := List.exists_mem_of_ne_nil _ (branches_ne_nil g.inside)
      exact ⟨_, (mem_choices hg).mpr ⟨branch, hbranch, rfl⟩⟩

/-- A pass leaves candidates if there were some. -/
theorem ne_nil_of_pass (hc : c ∈ cs) (hpass : pass cs = some next) : next ≠ [] := by
  obtain ⟨d, hd⟩ := exists_mem_choices c
  obtain ⟨e, he, -⟩ := exists_mem_distinct (List.mem_flatMap.mpr ⟨c, hc, hd⟩)
  rw [eq_distinct_of_pass hpass]
  exact List.ne_nil_of_mem he

/-- There are candidates, and they all have the same parentheses. -/
structure Share (word : Candidate) (cs : List Candidate) : Prop where
  ne_nil : cs ≠ []
  parens_eq : ∀ c ∈ cs, parens c = word

namespace Share

variable {word : Candidate}

theorem firstGroup?_eq_none_iff (h : Share word cs) (hc : c ∈ cs) :
    firstGroup? c = none ↔ pairing word = [] := by
  rw [← h.parens_eq c hc, pairing_parens, pairing_eq_nil_iff]

/-- No pass is made exactly if the common parentheses do not pair up. -/
theorem pass_eq_none_iff (h : Share word cs) : pass cs = none ↔ pairing word = [] := by
  obtain ⟨c, hc⟩ := List.exists_mem_of_ne_nil cs h.ne_nil
  constructor
  · intro hpass
    exact (h.firstGroup?_eq_none_iff hc).mp (firstGroup?_eq_none_of_pass hpass c hc)
  · intro hnil
    rw [pass, if_pos]
    refine List.all_eq_true.mpr fun c hc => Option.isNone_iff_eq_none.mpr ?_
    exact (h.firstGroup?_eq_none_iff hc).mpr hnil

/-- When a pass is made there is a choice to make in every candidate. -/
theorem exists_firstGroup? (h : Share word cs) (hpass : pass cs = some next) (hc : c ∈ cs) :
    ∃ g, firstGroup? c = some g := by
  refine Option.ne_none_iff_exists'.mp fun hnone => ?_
  rw [h.firstGroup?_eq_none_iff hc, ← h.pass_eq_none_iff] at hnone
  exact nomatch hnone.symm.trans hpass

/-- **A pass takes the same two parentheses from all candidates**: those of the first pair that the
    stack closes. They are neighbours among the parentheses. -/
theorem exists_pair_of_pass (h : Share word cs) (hpass : pass cs = some next) :
    ∃ front opening close behind, opening.char = '(' ∧ close.char = ')' ∧
      word = front ++ opening :: close :: behind ∧
      pairing word = ⟨opening.pos, close.pos⟩ :: pairing (front ++ behind) ∧
      Share (front ++ behind) next := by
  obtain ⟨c, hc⟩ := List.exists_mem_of_ne_nil cs h.ne_nil
  obtain ⟨g, hg⟩ := h.exists_firstGroup? hpass hc
  have hword := firstGroup?_parens hg
  rw [h.parens_eq c hc] at hword
  obtain ⟨-, opening, close, hopen, hclose, heq, hpairing⟩ := pairing_of_firstGroup? hword
  have hchoices : choices word = [parens g.before ++ parens g.behind] := by
    rw [choices, hword]
    show [parens g.before ++ [] ++ parens g.behind] = _
    rw [List.append_nil]
  refine ⟨parens g.before, opening, close, parens g.behind, hopen, hclose, heq, ?_, ?_, ?_⟩
  · have hundone := hpairing [] plain_nil
    rw [List.append_nil] at hundone
    exact hundone
  · exact ne_nil_of_pass hc hpass
  · obtain rfl := eq_distinct_of_pass hpass
    intro d hd
    obtain ⟨e, he, hde⟩ := List.mem_flatMap.mp (mem_of_mem_distinct hd)
    have hparens := choices_parens hde
    rw [h.parens_eq e he, hchoices] at hparens
    exact (List.head_eq_of_cons_eq hparens).symm

end Share

/-! ## All passes -/

/-- The candidates of a pattern behind `n` passes, if so many can be made. -/
def passes (pattern : List Char) : Nat → Option (List Candidate)
  | 0 => some [Placed.ofText pattern]
  | n + 1 => (passes pattern n).bind pass

theorem passes_succ_eq_some {n : Nat} :
    passes pattern (n + 1) = some next ↔ ∃ cs, passes pattern n = some cs ∧ pass cs = some next :=
  Option.bind_eq_some_iff

/-- A pass whose branches come sorted has only repetitions to leave out. -/
theorem pass_of_sorted (hc : c ∈ cs) (hg : firstGroup? c = some g)
    (h : (cs.flatMap choices).Pairwise fun c d => ¬ text d < text c) :
    pass cs = some (dropRepeats (cs.flatMap choices)) := by
  have hsorted := h.imp fun hle => decide_eq_true hle
  rw [pass, if_neg, distinct, List.mergeSort_of_pairwise hsorted]
  intro hall
  have hnone := Option.isNone_iff_eq_none.mp (List.all_eq_true.mp hall c hc)
  exact absurd (hg.symm.trans hnone) (Option.some_ne_none _)

/-- **After `n` passes the candidates have the same parentheses, and the first `n` pairs of the
    pattern are undone.** -/
theorem exists_share_of_passes {n : Nat} (h : passes pattern n = some cs) :
    ∃ word, Share word cs ∧ pairing word = (pairing (Placed.ofText pattern)).drop n := by
  induction n generalizing cs with
  | zero =>
      obtain rfl := Option.some.inj h
      refine ⟨parens (Placed.ofText pattern), ⟨List.cons_ne_nil _ _, fun c hc => ?_⟩,
        pairing_parens _⟩
      rw [List.mem_singleton.mp hc]
  | succ n ih =>
      obtain ⟨before, hbefore, hpass⟩ := passes_succ_eq_some.mp h
      obtain ⟨word, hshare, hpairing⟩ := ih hbefore
      obtain ⟨front, opening, close, behind, -, -, -, hundone, hnext⟩ :=
        hshare.exists_pair_of_pass hpass
      refine ⟨front ++ behind, hnext, ?_⟩
      rw [← List.tail_drop, ← hpairing, hundone, List.tail_cons]

/-- There are as many passes as pairs. -/
theorem exists_passes_iff {n : Nat} :
    (∃ cs, passes pattern n = some cs) ↔ n ≤ (pairing (Placed.ofText pattern)).length := by
  induction n with
  | zero => exact iff_of_true ⟨_, rfl⟩ (Nat.zero_le _)
  | succ n ih =>
      constructor
      · rintro ⟨next, hnext⟩
        obtain ⟨cs, hcs, hpass⟩ := passes_succ_eq_some.mp hnext
        obtain ⟨word, hshare, hpairing⟩ := exists_share_of_passes hcs
        -- a pass is made, so there is a pair left
        by_contra hlt
        rw [List.drop_of_length_le (by omega), ← hshare.pass_eq_none_iff] at hpairing
        exact nomatch hpairing.symm.trans hpass
      · intro hlt
        obtain ⟨cs, hcs⟩ := ih.mpr (Nat.le_of_succ_le hlt)
        obtain ⟨word, hshare, hpairing⟩ := exists_share_of_passes hcs
        obtain ⟨next, hnext⟩ : ∃ next, pass cs = some next := by
          refine Option.ne_none_iff_exists'.mp fun hnone => ?_
          rw [hshare.pass_eq_none_iff, hpairing, List.drop_eq_nil_iff] at hnone
          exact Nat.not_le_of_lt hlt hnone
        exact ⟨next, passes_succ_eq_some.mpr ⟨cs, hcs, hnext⟩⟩

/-- What is settled on does not change by making some of the passes beforehand. -/
theorem ofPattern_eq_settle_of_passes {n : Nat} (h : passes pattern n = some cs) :
    ofPattern pattern = settle cs := by
  induction n generalizing cs with
  | zero =>
      obtain rfl := Option.some.inj h
      rfl
  | succ n ih =>
      obtain ⟨before, hbefore, hpass⟩ := passes_succ_eq_some.mp h
      rw [ih hbefore, settle_of_some hpass]

/-- Behind as many passes as there are pairs the candidates are those of the pattern, and no further
    pass is made. -/
theorem passes_length_pairing :
    passes pattern (pairing (Placed.ofText pattern)).length = some (ofPattern pattern) ∧
      pass (ofPattern pattern) = none := by
  obtain ⟨cs, hcs⟩ : ∃ cs, passes pattern (pairing (Placed.ofText pattern)).length = some cs :=
    exists_passes_iff.mpr (Nat.le_refl _)
  obtain ⟨word, hshare, hpairing⟩ := exists_share_of_passes hcs
  have hnone : pass cs = none := by
    rw [hshare.pass_eq_none_iff, hpairing, List.drop_length]
  rw [ofPattern_eq_settle_of_passes hcs, settle_of_none hnone]
  exact ⟨hcs, hnone⟩

/-- **One pass for every pair.** Behind any number of passes all candidates have the same
    parentheses, from the same places of the pattern, so all of them have a first group or none
    has, and a pass that is made chooses in every candidate. A first group is the first pair that
    the stack closes, with no parenthesis inside, and the pass takes one `(` and one `)` from every
    candidate, the same two from all. So a pass can be made exactly once for every pair of the
    pattern, and what is left are its candidates. -/
theorem passes_undo_pairs (pattern : List Char) :
    (∀ n cs, passes pattern n = some cs →
      (∀ c ∈ cs, ∀ d ∈ cs, parens c = parens d) ∧
      ((∀ c ∈ cs, ∃ g, firstGroup? c = some g) ∨ ∀ c ∈ cs, firstGroup? c = none) ∧
      (∀ c ∈ cs, ∀ g, firstGroup? c = some g →
        Plain g.inside ∧ ∃ opening close : Placed, opening.char = '(' ∧ close.char = ')' ∧
          c = g.before ++ opening :: (g.inside ++ close :: g.behind) ∧
          (pairing c).head? = some ⟨opening.pos, close.pos⟩) ∧
      ∀ next, pass cs = some next →
        (∀ c ∈ cs, ∃ g, firstGroup? c = some g) ∧
        ∃ front opening close behind, opening.char = '(' ∧ close.char = ')' ∧
          (∀ c ∈ cs, parens c = front ++ opening :: close :: behind) ∧
          ∀ d ∈ next, parens d = front ++ behind) ∧
    (∀ n, (∃ cs, passes pattern n = some cs) ↔
      n ≤ (pairing (Placed.ofText pattern)).length) ∧
    passes pattern (pairing (Placed.ofText pattern)).length = some (ofPattern pattern) ∧
    pass (ofPattern pattern) = none := by
  refine ⟨fun n cs hcs => ?_, fun n => exists_passes_iff, passes_length_pairing⟩
  obtain ⟨word, hshare, -⟩ := exists_share_of_passes hcs
  refine ⟨fun c hc d hd => ?_, ?_, fun c hc g hg => ?_, fun next hpass => ⟨fun c hc => ?_, ?_⟩⟩
  · rw [hshare.parens_eq c hc, hshare.parens_eq d hd]
  · cases hpass : pass cs with
    | none => exact Or.inr (firstGroup?_eq_none_of_pass hpass)
    | some next => exact Or.inl fun c hc => hshare.exists_firstGroup? hpass hc
  · obtain ⟨hplain, opening, close, hopen, hclose, heq, hpairing⟩ := pairing_of_firstGroup? hg
    refine ⟨hplain, opening, close, hopen, hclose, heq, ?_⟩
    rw [hpairing g.inside hplain, List.head?_cons]
  · exact hshare.exists_firstGroup? hpass hc
  · obtain ⟨front, opening, close, behind, hopen, hclose, hword, -, hnext⟩ :=
      hshare.exists_pair_of_pass hpass
    refine ⟨front, opening, close, behind, hopen, hclose, fun c hc => ?_, hnext.parens_eq⟩
    rw [hshare.parens_eq c hc, hword]

/-- In `)((a|b)|b)` the first parenthesis has no partner. The second pass finds `)b` in both
    candidates, and three times in all, and it is the last one. -/
theorem passes_repeatedBranches :
    ∃ cs next, cs.map text = [")(a|b)".toList, ")(b|b)".toList] ∧
      next.map text = [")a".toList, ")b".toList] ∧
      passes ")((a|b)|b)".toList 1 = some cs ∧ pass cs = some next ∧
      (∀ c ∈ cs, ∀ d ∈ cs, parens c = parens d) ∧
      (∀ c ∈ cs, ∃ g, firstGroup? c = some g) ∧
      (∃ front opening close behind, opening.char = '(' ∧ close.char = ')' ∧
        (∀ c ∈ cs, parens c = front ++ opening :: close :: behind) ∧
        ∀ d ∈ next, parens d = front ++ behind) ∧
      ¬ ∃ more, passes ")((a|b)|b)".toList 3 = some more := by
  have hcs : passes ")((a|b)|b)".toList 1 = some
      [[⟨0, ')'⟩, ⟨1, '('⟩, ⟨3, 'a'⟩, ⟨7, '|'⟩, ⟨8, 'b'⟩, ⟨9, ')'⟩],
        [⟨0, ')'⟩, ⟨1, '('⟩, ⟨5, 'b'⟩, ⟨7, '|'⟩, ⟨8, 'b'⟩, ⟨9, ')'⟩]] := by
    refine passes_succ_eq_some.mpr ⟨_, rfl, ?_⟩
    exact pass_of_sorted List.mem_cons_self rfl (by decide)
  have hnext : pass
      [[⟨0, ')'⟩, ⟨1, '('⟩, ⟨3, 'a'⟩, ⟨7, '|'⟩, ⟨8, 'b'⟩, ⟨9, ')'⟩],
        [⟨0, ')'⟩, ⟨1, '('⟩, ⟨5, 'b'⟩, ⟨7, '|'⟩, ⟨8, 'b'⟩, ⟨9, ')'⟩]] =
      some [[⟨0, ')'⟩, ⟨3, 'a'⟩], [⟨0, ')'⟩, ⟨8, 'b'⟩]] :=
    pass_of_sorted List.mem_cons_self rfl (by decide)
  obtain ⟨hbehind, hcount, -⟩ := passes_undo_pairs ")((a|b)|b)".toList
  obtain ⟨hsame, -, -, hpass⟩ := hbehind 1 _ hcs
  obtain ⟨hgroups, htaken⟩ := hpass _ hnext
  refine ⟨_, _, rfl, rfl, hcs, hnext, hsame, hgroups, htaken, ?_⟩
  rw [hcount 3]
  decide

end Candidate

end LineSieve
