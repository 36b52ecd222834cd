import LineSieve.Proofs.Alternatives.Settling

/-!
# Pairs and choices

What the alternatives of a pattern are, said without passes. Parentheses are paired with a stack:
each `)` goes with the innermost `(` still open, and one without a partner is an ordinary
character. The bars directly in a pair cut it into pieces. A choice picks one piece in every pair,
and it keeps the characters that are neither paired parentheses nor such bars and that are, in
every pair around them, in the piece picked there.

* **`length_pairingFrom`**: the stack finds a pair for each pair that the passes undo.
* **`mem_branches_iff`**: where no parenthesis is in the way, the branches of a group are its
  pieces.

Places tell characters apart here, so they have to ascend along a candidate (`Ascending`). That is
so for a pattern as typed, and it stays so.
-/

namespace LineSieve

/-- Two parentheses that belong together, each told by its place. -/
structure Pair where
  opening : Nat
  closing : Nat
  deriving DecidableEq

namespace Pair

/-- The place is between the two parentheses. -/
def Encloses (q : Pair) (i : Nat) : Prop :=
  q.opening < i ∧ i < q.closing

instance (q : Pair) (i : Nat) : Decidable (q.Encloses i) :=
  inferInstanceAs (Decidable (_ ∧ _))

/-- The pair `r` is deeper than `q`: it stands between the parentheses of `q`. -/
def Deeper (r q : Pair) : Prop :=
  q.opening < r.opening ∧ r.closing < q.closing

instance (r q : Pair) : Decidable (r.Deeper q) :=
  inferInstanceAs (Decidable (_ ∧ _))

end Pair

namespace Candidate

open Placed (text)

/-- Pairs the parentheses, with `opened` the places of those still open, the innermost first. -/
def pairingFrom : List Nat → Candidate → List Pair
  | _, [] => []
  | opened, x :: c =>
      if x.char = '(' then pairingFrom (x.pos :: opened) c
      else if x.char = ')' then
        match opened with
        | [] => pairingFrom [] c
        | innermost :: opened => ⟨innermost, x.pos⟩ :: pairingFrom opened c
      else pairingFrom opened c

/-- The pairs of parentheses, each `)` going with the innermost `(` still open. -/
def pairing (c : Candidate) : List Pair :=
  pairingFrom [] c

/-- `x` is a bar directly in the pair `q`: between its parentheses, and in no deeper pair. -/
def BarOf (c : Candidate) (q : Pair) (x : Placed) : Prop :=
  x.char = '|' ∧ q.Encloses x.pos ∧ ∀ r ∈ pairing c, r.Encloses x.pos → ¬ r.Deeper q

instance (c : Candidate) (q : Pair) (x : Placed) : Decidable (BarOf c q x) :=
  inferInstanceAs (Decidable (_ ∧ _ ∧ _))

/-- The bars directly in a pair. -/
def bars (c : Candidate) (q : Pair) : Candidate :=
  c.filter fun x => BarOf c q x

/-- How many pieces the bars cut a pair into. -/
def pieces (c : Candidate) (q : Pair) : Nat :=
  (bars c q).length + 1

/-- The number of the piece of a pair that a place is in, counted from 0. -/
def piece (c : Candidate) (q : Pair) (i : Nat) : Nat :=
  (bars c q).countP fun bar => bar.pos < i

/-- The number of a piece for every pair. -/
abbrev Choice := Pair → Nat

/-- A choice picks pieces that there are. -/
def Choice.Valid (choice : Choice) (c : Candidate) : Prop :=
  ∀ q ∈ pairing c, choice q < pieces c q

/-- A choice keeps the characters that are neither paired parentheses nor bars of a pair and that
    are in the picked piece of every pair around them. -/
def Keeps (c : Candidate) (choice : Choice) (x : Placed) : Prop :=
  ∀ q ∈ pairing c, (x.pos ≠ q.opening ∧ x.pos ≠ q.closing) ∧ ¬ BarOf c q x ∧
    (q.Encloses x.pos → piece c q x.pos = choice q)

instance (c : Candidate) (choice : Choice) (x : Placed) : Decidable (Keeps c choice x) :=
  inferInstanceAs (Decidable (∀ q ∈ pairing c, _))

/-- What a choice keeps of a candidate. -/
def kept (c : Candidate) (choice : Choice) : Candidate :=
  c.filter fun x => Keeps c choice x

/-- Every character stands at a later place than those before it. -/
def Ascending (c : Candidate) : Prop :=
  c.Pairwise fun x y => x.pos < y.pos

/-! ## Pairs -/

theorem pairingFrom_open {x : Placed} (h : x.char = '(') (opened : List Nat) (c : Candidate) :
    pairingFrom opened (x :: c) = pairingFrom (x.pos :: opened) c := if_pos h

theorem pairingFrom_close {x : Placed} (h : x.char = ')') (innermost : Nat) (opened : List Nat)
    (c : Candidate) : pairingFrom (innermost :: opened) (x :: c) =
      ⟨innermost, x.pos⟩ :: pairingFrom opened c := by
  simp [pairingFrom, h]

theorem pairingFrom_stray {x : Placed} (h : x.char = ')') (c : Candidate) :
    pairingFrom [] (x :: c) = pairingFrom [] c := by
  simp [pairingFrom, h]

theorem pairingFrom_other {x : Placed} (hopen : x.char ≠ '(') (hclose : x.char ≠ ')')
    (opened : List Nat) (c : Candidate) :
    pairingFrom opened (x :: c) = pairingFrom opened c := by
  simp [pairingFrom, hopen, hclose]

/-- There is a pair for each pair counted. -/
theorem length_pairingFrom (opened : List Nat) (c : Candidate) :
    (pairingFrom opened c).length = pairsFrom opened.length c := by
  induction c generalizing opened with
  | nil => rfl
  | cons x c ih =>
      by_cases hopen : x.char = '('
      · rw [pairingFrom_open hopen, ih]
        simp [pairsFrom, hopen]
      · by_cases hclose : x.char = ')'
        · cases opened with
          | nil =>
              rw [pairingFrom_stray hclose, ih]
              simp [pairsFrom, hclose]
          | cons innermost opened =>
              rw [pairingFrom_close hclose, List.length_cons, ih]
              simp [pairsFrom, hclose]
        · rw [pairingFrom_other hopen hclose, ih]
          simp [pairsFrom, hopen, hclose]

/-- Without a first group there are no pairs. -/
theorem pairing_eq_nil {c : Candidate} (h : firstGroup? c = none) : pairing c = [] :=
  List.length_eq_zero_iff.mp ((length_pairingFrom [] c).trans (pairs_eq_zero h))

theorem pairingFrom_append_of_plain {inside : Candidate} (h : Plain inside) (opened : List Nat)
    (c : Candidate) : pairingFrom opened (inside ++ c) = pairingFrom opened c := by
  induction inside with
  | nil => rfl
  | cons x inside ih =>
      have hx := h x List.mem_cons_self
      rw [List.cons_append, pairingFrom_other hx.1 hx.2]
      exact ih fun y hy => h y (List.mem_cons_of_mem x hy)

/-- The parentheses of a pair are parentheses of the candidate. -/
theorem exists_of_mem_pairingFrom {opened : List Nat} {c : Candidate} {q : Pair}
    (h : q ∈ pairingFrom opened c) :
    (q.opening ∈ opened ∨ ∃ x ∈ c, x.char = '(' ∧ x.pos = q.opening) ∧
      ∃ x ∈ c, x.char = ')' ∧ x.pos = q.closing := by
  induction c generalizing opened with
  | nil => exact absurd h List.not_mem_nil
  | cons x c ih =>
      -- what is found further on is found in the whole candidate
      have later {opened' : List Nat} (hq : q ∈ pairingFrom opened' c)
          (hsub : ∀ i ∈ opened', i ∈ opened ∨ (x.char = '(' ∧ x.pos = i)) :
          (q.opening ∈ opened ∨ ∃ y ∈ x :: c, y.char = '(' ∧ y.pos = q.opening) ∧
            ∃ y ∈ x :: c, y.char = ')' ∧ y.pos = q.closing := by
        obtain ⟨hopening, y, hy, hclosing⟩ := ih hq
        refine ⟨?_, y, List.mem_cons_of_mem x hy, hclosing⟩
        rcases hopening with hmem | ⟨z, hz, hopening⟩
        · rcases hsub _ hmem with hmem | hx
          · exact Or.inl hmem
          · exact Or.inr ⟨x, List.mem_cons_self, hx⟩
        · exact Or.inr ⟨z, List.mem_cons_of_mem x hz, hopening⟩
      by_cases hopen : x.char = '('
      · rw [pairingFrom_open hopen] at h
        refine later h fun i hi => ?_
        rcases List.mem_cons.mp hi with rfl | hi
        · exact Or.inr ⟨hopen, rfl⟩
        · exact Or.inl hi
      · by_cases hclose : x.char = ')'
        · cases opened with
          | nil =>
              rw [pairingFrom_stray hclose] at h
              exact later h fun i hi => Or.inl hi
          | cons innermost opened =>
              rw [pairingFrom_close hclose] at h
              rcases List.mem_cons.mp h with rfl | h
              · exact ⟨Or.inl List.mem_cons_self, x, List.mem_cons_self, hclose, rfl⟩
              · exact later h fun i hi => Or.inl (List.mem_cons_of_mem innermost hi)
        · rw [pairingFrom_other hopen hclose] at h
          exact later h fun i hi => Or.inl hi

/-! ## Branches are pieces -/

/-- The number of bars in front of a place. -/
def barsBefore (c : Candidate) (i : Nat) : Nat :=
  (c.filter fun x => x.char = '|').countP fun bar => bar.pos < i

/-- The characters of a candidate other than bars that have `k` bars in front. -/
def between (c : Candidate) (k : Nat) : Candidate :=
  c.filter fun x => x.char ≠ '|' ∧ barsBefore c x.pos = k

theorem barsBefore_cons_bar {x : Placed} (hbar : x.char = '|') (c : Candidate) {i : Nat}
    (hi : x.pos < i) : barsBefore (x :: c) i = barsBefore c i + 1 := by
  rw [barsBefore, List.filter_cons_of_pos (by simpa using hbar),
    List.countP_cons_of_pos (by simpa using hi)]
  rfl

theorem barsBefore_cons_char {x : Placed} (hbar : x.char ≠ '|') (c : Candidate) (i : Nat) :
    barsBefore (x :: c) i = barsBefore c i := by
  rw [barsBefore, List.filter_cons_of_neg (by simpa using hbar)]
  rfl

theorem barsBefore_eq_zero {c : Candidate} {i : Nat} (h : ∀ x ∈ c, i < x.pos) :
    barsBefore c i = 0 := by
  refine List.countP_eq_zero.mpr fun x hx => ?_
  have := h x (List.mem_filter.mp hx).1
  simp only [decide_eq_true_eq]
  omega

/-- A bar in front begins a new piece, and the piece before it is empty. -/
theorem between_cons_bar {x : Placed} (hbar : x.char = '|') {c : Candidate}
    (h : ∀ y ∈ c, x.pos < y.pos) :
    between (x :: c) 0 = [] ∧ ∀ k, between (x :: c) (k + 1) = between c k := by
  have skip (k : Nat) : between (x :: c) k =
      c.filter fun y => y.char ≠ '|' ∧ barsBefore c y.pos + 1 = k := by
    rw [between, List.filter_cons_of_neg (by simp [hbar])]
    refine List.filter_congr fun y hy => ?_
    rw [barsBefore_cons_bar hbar c (h y hy)]
  constructor
  · rw [skip 0, List.filter_eq_nil_iff]
    intro y hy
    simp
  · intro k
    rw [skip (k + 1), between]
    refine List.filter_congr fun y _ => ?_
    simp only [Nat.add_right_cancel_iff]

/-- Any other character in front belongs to the first piece. -/
theorem between_cons_char {x : Placed} (hbar : x.char ≠ '|') {c : Candidate}
    (h : ∀ y ∈ c, x.pos < y.pos) :
    between (x :: c) 0 = x :: between c 0 ∧ ∀ k, between (x :: c) (k + 1) = between c (k + 1) := by
  have same (k : Nat) : (c.filter fun y => y.char ≠ '|' ∧ barsBefore (x :: c) y.pos = k) =
      between c k := by
    rw [between]
    refine List.filter_congr fun y _ => ?_
    rw [barsBefore_cons_char hbar]
  have hx : barsBefore (x :: c) x.pos = 0 := by
    rw [barsBefore_cons_char hbar, barsBefore_eq_zero h]
  constructor
  · rw [between, List.filter_cons_of_pos (by simp [hbar, hx]), same]
  · intro k
    rw [between, List.filter_cons_of_neg (by simp [hx]), same]

/-- The branches are what is between the bars. -/
theorem branches_eq_between {c : Candidate} (h : Ascending c) :
    branches c = (List.range ((c.filter fun x => x.char = '|').length + 1)).map (between c) := by
  induction c with
  | nil => rfl
  | cons x c ih =>
      obtain ⟨hx, hc⟩ := List.pairwise_cons.mp h
      rw [branches, ih hc]
      by_cases hbar : x.char = '|'
      · obtain ⟨hfirst, hrest⟩ := between_cons_bar hbar hx
        rw [if_pos hbar, List.filter_cons_of_pos (by simpa using hbar), List.length_cons,
          List.range_succ_eq_map (n := _ + 1), List.map_cons, List.map_map, hfirst]
        exact congrArg _ (List.map_congr_left fun k _ => (hrest k).symm)
      · obtain ⟨hfirst, hrest⟩ := between_cons_char hbar hx
        rw [if_neg hbar, List.filter_cons_of_neg (by simpa using hbar), List.range_succ_eq_map,
          List.map_cons, List.map_cons, List.map_map, List.map_map, List.modifyHead_cons, hfirst]
        exact congrArg _ (List.map_congr_left fun k _ => (hrest k).symm)

theorem mem_branches_iff {c branch : Candidate} (h : Ascending c) :
    branch ∈ branches c ↔
      ∃ k < (c.filter fun x => x.char = '|').length + 1, between c k = branch := by
  rw [branches_eq_between h, List.mem_map]
  refine exists_congr fun k => and_congr_left fun _ => List.mem_range

end Candidate

end LineSieve
