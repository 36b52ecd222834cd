import LineSieve.Pattern.Places

/-!
# Alternatives

A group `(a|b|c)` stands for any one of its branches. The groups of a pattern are undone from the
inside out: in each pass every candidate gives way to one candidate per branch of its first
group, until none has a group left. A parenthesis without a partner is an ordinary character, and
so is a bar outside every group.

* `firstGroup?` finds the group closed by the first `)` that has a partner; nothing in it is a
  parenthesis.
* `pairs` counts the pairs of parentheses, and `pairs_choices` says that choosing a branch undoes
  one pair. This is why the passes come to an end.
-/

namespace LineSieve

/-- What is left of a pattern once some of its branches are chosen: the characters kept, each
    with its place in the pattern. -/
abbrev Candidate := List Placed

namespace Candidate

open Placed (text)

/-! ## The first group -/

/-- Splits a candidate around its first `)`, unless a `(` comes before that. -/
def untilClose? : Candidate → Option (Candidate × Candidate)
  | [] => none
  | c :: cs =>
      if c.char = ')' then some ([], cs)
      else if c.char = '(' then none
      else (untilClose? cs).map fun (inside, behind) => (c :: inside, behind)

/-- A candidate split around one group, whose parentheses are left out. -/
structure Group where
  before : Candidate
  inside : Candidate
  behind : Candidate

/-- The group closed by the first `)` that closes one: it opens at the last `(` before that. -/
def firstGroup? : Candidate → Option Group
  | [] => none
  | c :: cs =>
      match if c.char = '(' then untilClose? cs else none with
      | some (inside, behind) => some ⟨[], inside, behind⟩
      | none => (firstGroup? cs).map fun g => { g with before := c :: g.before }

/-- The pieces between the bars; there is always at least one. -/
def branches : Candidate → List Candidate
  | [] => [[]]
  | c :: cs => if c.char = '|' then [] :: branches cs else (branches cs).modifyHead (c :: ·)

/-- A candidate with its first group replaced by each of the branches in turn. -/
def choices (cs : Candidate) : List Candidate :=
  match firstGroup? cs with
  | none => [cs]
  | some g => (branches g.inside).map fun branch => g.before ++ branch ++ g.behind

/-! ## Passes over all candidates -/

/-- Leaves out each candidate that spells the same as the one before it. -/
def dropRepeats : List Candidate → List Candidate
  | [] => []
  | c :: cs => go c cs
where
  /-- Goes through the candidates behind `c`, which is kept. -/
  go (c : Candidate) : List Candidate → List Candidate
    | [] => [c]
    | d :: ds => if text d = text c then go c ds else c :: go d ds

/-- One candidate for each text spelled, the first of them, in ascending order of the texts. -/
def distinct (cs : List Candidate) : List Candidate :=
  dropRepeats (cs.mergeSort fun c d => ¬ text d < text c)

/-- Chooses in the first group of every candidate; nothing if no candidate has one. -/
def pass (cs : List Candidate) : Option (List Candidate) :=
  if cs.all fun c => (firstGroup? c).isNone then none else some (distinct (cs.flatMap choices))

/-! ## Pairs of parentheses -/

/-- How many of the `)` find a partner, with `opened` parentheses open in front. -/
def pairsFrom : Nat → Candidate → Nat
  | _, [] => 0
  | opened, c :: cs =>
      if c.char = '(' then pairsFrom (opened + 1) cs
      else if c.char = ')' then
        match opened with
        | 0 => pairsFrom 0 cs
        | opened + 1 => pairsFrom opened cs + 1
      else pairsFrom opened cs

/-- The number of pairs of parentheses, each `)` going with the innermost `(` still open. -/
def pairs (cs : Candidate) : Nat :=
  pairsFrom 0 cs

/-- Text without parentheses. -/
def Plain (cs : Candidate) : Prop :=
  ∀ c ∈ cs, c.char ≠ '(' ∧ c.char ≠ ')'

theorem pairsFrom_append_of_plain {cs : Candidate} (h : Plain cs) (opened : Nat)
    (ds : Candidate) : pairsFrom opened (cs ++ ds) = pairsFrom opened ds := by
  induction cs with
  | nil => rfl
  | cons c cs ih =>
      have hc := h c (by simp)
      simp [pairsFrom, hc.1, hc.2, ih fun d hd => h d (by simp [hd])]

/-- What `untilClose?` finds is the candidate, split at a `)` with no parenthesis before it. -/
theorem eq_of_untilClose? {cs inside behind : Candidate}
    (h : untilClose? cs = some (inside, behind)) :
    Plain inside ∧ ∃ close : Placed, close.char = ')' ∧ cs = inside ++ close :: behind := by
  induction cs generalizing inside with
  | nil => simp [untilClose?] at h
  | cons c cs ih =>
      simp only [untilClose?] at h
      split at h
      next hc =>
        obtain ⟨rfl, rfl⟩ := by simpa using h
        exact ⟨by simp [Plain], c, hc, rfl⟩
      next hc =>
        split at h
        next => simp at h
        next ho =>
          obtain ⟨⟨i, b⟩, hi, heq⟩ := Option.map_eq_some_iff.1 h
          obtain ⟨rfl, rfl⟩ := by simpa using heq
          obtain ⟨plain, close, hclose, rfl⟩ := ih hi
          refine ⟨?_, close, hclose, rfl⟩
          intro d hd
          rcases List.mem_cons.1 hd with rfl | hd
          · exact ⟨ho, hc⟩
          · exact plain d hd

/-- A first group is part of the candidate, and nothing inside it is a parenthesis. -/
theorem eq_of_firstGroup? {cs : Candidate} {g : Group} (h : firstGroup? cs = some g) :
    Plain g.inside ∧ ∃ opening close : Placed, opening.char = '(' ∧ close.char = ')' ∧
      cs = g.before ++ opening :: (g.inside ++ close :: g.behind) := by
  induction cs generalizing g with
  | nil => simp [firstGroup?] at h
  | cons c cs ih =>
      simp only [firstGroup?] at h
      split at h
      next inside behind hi =>
        split at hi
        next hc =>
          obtain rfl := by simpa using h
          obtain ⟨plain, close, hclose, rfl⟩ := eq_of_untilClose? hi
          exact ⟨plain, c, close, hc, hclose, rfl⟩
        next => simp at hi
      next =>
        obtain ⟨g, hg, rfl⟩ := Option.map_eq_some_iff.1 h
        obtain ⟨plain, opening, close, ho, hc, rfl⟩ := ih hg
        exact ⟨plain, opening, close, ho, hc, rfl⟩

/-- Taking the parentheses of a pair away, and some of what is between them, leaves one pair
    less. -/
theorem pairsFrom_remove {inside branch : Candidate} (hi : Plain inside) (hb : Plain branch)
    {opening close : Placed} (ho : opening.char = '(') (hc : close.char = ')')
    (before behind : Candidate) (opened : Nat) :
    pairsFrom opened (before ++ opening :: (inside ++ close :: behind)) =
      pairsFrom opened (before ++ branch ++ behind) + 1 := by
  induction before generalizing opened with
  | nil => simp [pairsFrom, ho, hc, pairsFrom_append_of_plain hi, pairsFrom_append_of_plain hb]
  | cons c cs ih =>
      simp only [List.cons_append, pairsFrom]
      split
      · exact ih _
      · split
        · cases opened <;> simp [ih]
        · exact ih _

theorem branches_ne_nil (cs : Candidate) : branches cs ≠ [] := by
  induction cs with
  | nil => simp [branches]
  | cons c cs ih =>
      simp only [branches]
      split
      · simp
      · cases h : branches cs <;> simp_all

theorem plain_of_mem_branches {inside branch : Candidate} (h : Plain inside)
    (hb : branch ∈ branches inside) : Plain branch := by
  induction inside generalizing branch with
  | nil => simp_all [branches]
  | cons c cs ih =>
      have hcs : Plain cs := fun d hd => h d (by simp [hd])
      simp only [branches] at hb
      split at hb
      · rcases List.mem_cons.1 hb with rfl | hb
        · simp [Plain]
        · exact ih hcs hb
      · cases hbs : branches cs with
        | nil => simp [hbs] at hb
        | cons b bs =>
            simp only [hbs, List.modifyHead_cons, List.mem_cons] at hb
            rcases hb with rfl | hb
            · intro d hd
              rcases List.mem_cons.1 hd with rfl | hd
              · exact h _ (by simp)
              · exact ih hcs (by simp [hbs]) d hd
            · exact ih hcs (by simp [hbs, hb])

/-- Choosing a branch undoes one pair of parentheses. -/
theorem pairs_choices {cs cs' : Candidate} {g : Group} (h : firstGroup? cs = some g)
    (hc : cs' ∈ choices cs) : pairs cs = pairs cs' + 1 := by
  obtain ⟨plain, opening, close, ho, hclose, rfl⟩ := eq_of_firstGroup? h
  simp only [choices, h, List.mem_map] at hc
  obtain ⟨branch, hb, rfl⟩ := hc
  exact pairsFrom_remove plain (plain_of_mem_branches plain hb) ho hclose _ _ 0

theorem pairsFrom_eq_zero_of_untilClose? {cs : Candidate} (hu : untilClose? cs = none)
    (hg : firstGroup? cs = none) (opened : Nat) : pairsFrom opened cs = 0 := by
  induction cs generalizing opened with
  | nil => rfl
  | cons c cs ih =>
      by_cases hc : c.char = ')'
      · simp [untilClose?, hc] at hu
      · by_cases ho : c.char = '('
        · cases h : untilClose? cs with
          | some split => simp [firstGroup?, ho, h] at hg
          | none =>
              simp only [firstGroup?, ho, h, if_true, Option.map_eq_none_iff] at hg
              simp [pairsFrom, ho, ih h hg]
        · simp only [untilClose?, hc, ho, if_false, Option.map_eq_none_iff] at hu
          simp only [firstGroup?, ho, if_false, Option.map_eq_none_iff] at hg
          simp [pairsFrom, hc, ho, ih hu hg]

/-- Without a first group no parentheses pair up. -/
theorem pairs_eq_zero {cs : Candidate} (h : firstGroup? cs = none) : pairs cs = 0 := by
  unfold pairs
  induction cs with
  | nil => rfl
  | cons c cs ih =>
      by_cases ho : c.char = '('
      · cases hu : untilClose? cs with
        | some split => simp [firstGroup?, ho, hu] at h
        | none =>
            simp only [firstGroup?, ho, hu, if_true, Option.map_eq_none_iff] at h
            simp [pairsFrom, ho, pairsFrom_eq_zero_of_untilClose? hu h]
      · simp only [firstGroup?, ho, if_false, Option.map_eq_none_iff] at h
        by_cases hc : c.char = ')' <;> simp [pairsFrom, ho, hc, ih h]

/-! ## All candidates of a pattern -/

/-- The largest number of pairs in one candidate. -/
def mostPairs (cs : List Candidate) : Nat :=
  cs.foldr (fun c most => max (pairs c) most) 0

theorem pairs_le_mostPairs {cs : List Candidate} {c : Candidate} (h : c ∈ cs) :
    pairs c ≤ mostPairs cs := by
  induction cs with
  | nil => simp at h
  | cons d ds ih =>
      simp only [mostPairs, List.foldr_cons] at ih ⊢
      rcases List.mem_cons.1 h with rfl | h
      · exact Nat.le_max_left _ _
      · exact Nat.le_trans (ih h) (Nat.le_max_right _ _)

theorem mostPairs_lt {cs : List Candidate} {n : Nat} (hn : 0 < n) (h : ∀ c ∈ cs, pairs c < n) :
    mostPairs cs < n := by
  induction cs with
  | nil => exact hn
  | cons d ds ih =>
      exact Nat.max_lt.2 ⟨h d (by simp), ih fun c hc => h c (by simp [hc])⟩

theorem mem_of_mem_dropRepeats_go {c d : Candidate} {cs : List Candidate}
    (h : d ∈ dropRepeats.go c cs) : d = c ∨ d ∈ cs := by
  induction cs generalizing c with
  | nil => simpa [dropRepeats.go] using h
  | cons e es ih =>
      simp only [dropRepeats.go] at h
      split at h
      · rcases ih h with h | h <;> simp [h]
      · rcases List.mem_cons.1 h with h | h
        · exact .inl h
        · rcases ih h with h | h <;> simp [h]

theorem mem_of_mem_dropRepeats {c : Candidate} {cs : List Candidate}
    (h : c ∈ dropRepeats cs) : c ∈ cs := by
  cases cs with
  | nil => simp [dropRepeats] at h
  | cons d ds => exact List.mem_cons.2 (mem_of_mem_dropRepeats_go h)

/-- Every candidate that is kept was there before. -/
theorem mem_of_mem_distinct {c : Candidate} {cs : List Candidate} (h : c ∈ distinct cs) :
    c ∈ cs :=
  List.mem_mergeSort.1 (mem_of_mem_dropRepeats h)

/-- A pass leaves fewer pairs of parentheses to undo. -/
theorem mostPairs_pass_lt {cs next : List Candidate} (h : pass cs = some next) :
    mostPairs next < mostPairs cs := by
  simp only [pass] at h
  split at h
  next => simp at h
  next hall =>
    obtain rfl := by simpa using h
    have ⟨c, hc, hg⟩ : ∃ c ∈ cs, ∃ g, firstGroup? c = some g := by
      simpa [Option.ne_none_iff_exists'] using hall
    obtain ⟨g, hg⟩ := hg
    have pos : 0 < mostPairs cs := by
      have hpos : pairs c ≠ 0 := by
        obtain ⟨b, hb⟩ : ∃ b, b ∈ choices c := by
          simp only [choices, hg]
          cases hbs : branches g.inside with
          | nil => exact absurd hbs (branches_ne_nil _)
          | cons b bs => exact ⟨g.before ++ b ++ g.behind, by simp⟩
        rw [pairs_choices hg hb]
        omega
      have := pairs_le_mostPairs hc
      omega
    refine mostPairs_lt pos fun d hd => ?_
    obtain ⟨e, he, hd⟩ := List.mem_flatMap.1 (mem_of_mem_distinct hd)
    cases hge : firstGroup? e with
    | none =>
        obtain rfl : d = e := by simpa [choices, hge] using hd
        rw [pairs_eq_zero hge]
        exact pos
    | some g =>
        have := pairs_choices hge hd
        have := pairs_le_mostPairs he
        omega

/-- Makes passes until no candidate has a group. -/
def settle (cs : List Candidate) : List Candidate :=
  match _ : pass cs with
  | none => cs
  | some next => settle next
termination_by mostPairs cs
decreasing_by exact mostPairs_pass_lt ‹_›

/-- All candidates of a pattern, in ascending order of their texts. -/
def ofPattern (pattern : List Char) : List Candidate :=
  settle [Placed.ofText pattern]

/-- The texts that the alternatives of a pattern spell, in ascending order. -/
def expand (pattern : List Char) : List (List Char) :=
  (ofPattern pattern).map text

end Candidate

end LineSieve
