import LineSieve.Proofs.Alternatives.Pairing
import Mathlib.Logic.Function.Basic

/-!
# Candidates are choices

The passes undo one pair of parentheses after the other, and a choice picks pieces in all pairs at
once. A `Frame` is a candidate around a group with no parentheses in it. Undoing the group leaves
the other pairs, their bars and their pieces what they were, so a choice for the rest and a branch
of the group make a choice for the whole.

* **`mem_pairing_undo`**, **`bars_undo`**: one pair is undone and the others stay as they are.
* **`kept_undo`**: a choice keeps the same before and after.
* **`settles_iff_kept`**: a candidate settles on what the choices keep of it, by induction on the
  number of pairs.
* **`expand_is_cross_product`**: the candidates of a pattern are the choices in its pairs.
-/

namespace LineSieve

namespace Candidate

open Placed (text)

/-! ## Undoing one pair -/

/-- A candidate around a group that has no parentheses in it. -/
structure Frame where
  before : Candidate
  opening : Placed
  inside : Candidate
  close : Placed
  behind : Candidate
  isOpen : opening.char = '('
  isClose : close.char = ')'
  plain : Plain inside
  ascending : Ascending (before ++ opening :: (inside ++ close :: behind))

namespace Frame

variable (f : Frame)

/-- The whole candidate. -/
def whole : Candidate :=
  f.before ++ f.opening :: (f.inside ++ f.close :: f.behind)

/-- The pair around the group. -/
def pair : Pair :=
  ⟨f.opening.pos, f.close.pos⟩

/-- The candidate with the group replaced by its piece number `k`. -/
def undo (k : Nat) : Candidate :=
  f.before ++ between f.inside k ++ f.behind

/-- A place that is neither in the group nor one of its parentheses. -/
def Off (i : Nat) : Prop :=
  i < f.opening.pos ∨ f.close.pos < i

theorem places :
    (∀ x ∈ f.before, x.pos < f.opening.pos) ∧ (∀ x ∈ f.inside, f.pair.Encloses x.pos) ∧
      (∀ x ∈ f.behind, f.close.pos < x.pos) ∧ f.opening.pos < f.close.pos := by
  obtain ⟨-, hrest, hbefore⟩ := List.pairwise_append.mp f.ascending
  obtain ⟨hopening, hrest⟩ := List.pairwise_cons.mp hrest
  obtain ⟨-, hbehind, hinside⟩ := List.pairwise_append.mp hrest
  refine ⟨fun x hx => hbefore x hx _ List.mem_cons_self, fun x hx => ⟨?_, ?_⟩, ?_, ?_⟩
  · exact hopening x (List.mem_append_left _ hx)
  · exact hinside x hx _ List.mem_cons_self
  · exact (List.pairwise_cons.mp hbehind).1
  · exact hopening _ (List.mem_append_right _ List.mem_cons_self)

/-- What is in the group is between the parentheses. -/
theorem encloses_of_mem {x : Placed} (h : x ∈ f.inside) : f.pair.Encloses x.pos :=
  f.places.2.1 x h

theorem opening_lt_close : f.opening.pos < f.close.pos :=
  f.places.2.2.2

theorem off_of_mem_before {x : Placed} (h : x ∈ f.before) : f.Off x.pos :=
  Or.inl (f.places.1 x h)

theorem off_of_mem_behind {x : Placed} (h : x ∈ f.behind) : f.Off x.pos :=
  Or.inr (f.places.2.2.1 x h)

theorem plain_between (k : Nat) : Plain (between f.inside k) :=
  fun x hx => f.plain x (List.mem_filter.mp hx).1

theorem filter_whole {P : Placed → Prop} [DecidablePred P] (hopening : ¬ P f.opening)
    (hclose : ¬ P f.close) :
    (f.whole.filter fun x => P x) = (f.before.filter fun x => P x) ++
      ((f.inside.filter fun x => P x) ++ f.behind.filter fun x => P x) := by
  have skip {x : Placed} (hx : ¬ P x) (c : Candidate) :
      ((x :: c).filter fun x => P x) = c.filter fun x => P x :=
    List.filter_cons_of_neg (mt of_decide_eq_true hx)
  rw [whole, List.filter_append, skip hopening, List.filter_append, skip hclose]

/-- Picking characters from the whole and from what is left of it comes to the same if it does in
    the group and off the group. -/
theorem filter_whole_eq {k : Nat} {P Q : Placed → Prop} [DecidablePred P] [DecidablePred Q]
    (hopening : ¬ P f.opening) (hclose : ¬ P f.close) (hoff : ∀ x, f.Off x.pos → (P x ↔ Q x))
    (hinside : (f.inside.filter fun x => P x) = (between f.inside k).filter fun x => Q x) :
    (f.whole.filter fun x => P x) = (f.undo k).filter fun x => Q x := by
  have same {part : Candidate} (h : ∀ x ∈ part, f.Off x.pos) :
      (part.filter fun x => P x) = part.filter fun x => Q x := by
    refine List.filter_congr fun x hx => decide_eq_decide.mpr ?_
    exact hoff x (h x hx)
  rw [f.filter_whole hopening hclose, hinside, undo, List.filter_append, List.filter_append,
    List.append_assoc, same fun x hx => f.off_of_mem_before hx,
    same fun x hx => f.off_of_mem_behind hx]

theorem undo_sublist (k : Nat) : (f.undo k).Sublist f.whole := by
  have hinside : (between f.inside k).Sublist f.inside := List.filter_sublist
  rw [undo, whole, List.append_assoc]
  refine List.Sublist.append (List.Sublist.refl _) (List.Sublist.cons _ ?_)
  exact hinside.append (List.sublist_cons_self _ _)

theorem ascending_undo (k : Nat) : Ascending (f.undo k) :=
  f.ascending.sublist (f.undo_sublist k)

/-- **One pair is undone and the others stay.** -/
theorem mem_pairing_undo (k : Nat) (q : Pair) :
    q ∈ pairing f.whole ↔ q = f.pair ∨ q ∈ pairing (f.undo k) := by
  -- what is open where the group begins does not matter: the group closes before it does
  have gen (before : Candidate) (opened : List Nat) :
      q ∈ pairingFrom opened (before ++ f.opening :: (f.inside ++ f.close :: f.behind)) ↔
        q = f.pair ∨ q ∈ pairingFrom opened (before ++ (between f.inside k ++ f.behind)) := by
    induction before generalizing opened with
    | nil =>
        rw [List.nil_append, List.nil_append, pairingFrom_open f.isOpen,
          pairingFrom_append_of_plain f.plain, pairingFrom_close f.isClose,
          pairingFrom_append_of_plain (f.plain_between k)]
        exact List.mem_cons
    | cons x before ih =>
        rw [List.cons_append, List.cons_append]
        by_cases hopen : x.char = '('
        · rw [pairingFrom_open hopen, pairingFrom_open hopen, ih]
        · by_cases hclose : x.char = ')'
          · cases opened with
            | nil => rw [pairingFrom_stray hclose, pairingFrom_stray hclose, ih]
            | cons innermost opened =>
                rw [pairingFrom_close hclose, pairingFrom_close hclose, List.mem_cons,
                  List.mem_cons, ih, or_left_comm]
          · rw [pairingFrom_other hopen hclose, pairingFrom_other hopen hclose, ih]
  have h := gen f.before []
  rw [← List.append_assoc] at h
  exact h

/-- The parentheses of the other pairs are off the group. -/
theorem off_of_mem_pairing {k : Nat} {q : Pair} (h : q ∈ pairing (f.undo k)) :
    f.Off q.opening ∧ f.Off q.closing := by
  have off {x : Placed} (hx : x ∈ f.undo k) (hparen : x.char = '(' ∨ x.char = ')') :
      f.Off x.pos := by
    rcases List.mem_append.mp hx with hx | hx
    · rcases List.mem_append.mp hx with hx | hx
      · exact f.off_of_mem_before hx
      · obtain ⟨hopen, hclose⟩ := f.plain_between k x hx
        exact absurd hparen (not_or.mpr ⟨hopen, hclose⟩)
    · exact f.off_of_mem_behind hx
  obtain ⟨hopening, y, hy, hclose, hclosing⟩ := exists_of_mem_pairingFrom h
  refine ⟨?_, hclosing ▸ off hy (Or.inr hclose)⟩
  rcases hopening with hnil | ⟨x, hx, hopen, hpos⟩
  · exact absurd hnil List.not_mem_nil
  · exact hpos ▸ off hx (Or.inl hopen)

theorem not_encloses_of_off {i : Nat} (h : f.Off i) : ¬ f.pair.Encloses i := by
  rintro ⟨hopening, hclosing⟩
  rcases h with h | h
  · exact Nat.lt_asymm h hopening
  · exact Nat.lt_asymm h hclosing

/-- Pairs around something in the group are around the group. -/
theorem pair_deeper {k : Nat} {q : Pair} (hq : q ∈ pairing (f.undo k)) {i : Nat}
    (hi : f.pair.Encloses i) (hqi : q.Encloses i) : f.pair.Deeper q := by
  obtain ⟨hopening, hclosing⟩ := f.off_of_mem_pairing hq
  obtain ⟨hi1, hi2⟩ := hi
  obtain ⟨hq1, hq2⟩ := hqi
  simp only [Off, pair, Pair.Deeper] at *
  omega

/-! The bars of the other pairs are the same before and after, and they are off the group. -/

theorem barOf_undo (k : Nat) (q : Pair) {x : Placed} (h : f.Off x.pos) :
    BarOf f.whole q x ↔ BarOf (f.undo k) q x := by
  refine and_congr_right fun _ => and_congr_right fun _ => ?_
  constructor
  · exact fun hall r hr => hall r ((f.mem_pairing_undo k r).mpr (Or.inr hr))
  · intro hall r hr hri
    rcases (f.mem_pairing_undo k r).mp hr with rfl | hr
    · exact absurd hri (f.not_encloses_of_off h)
    · exact hall r hr hri

theorem not_barOf_inside {k : Nat} {q : Pair} (hq : q ∈ pairing (f.undo k)) {x : Placed}
    (hx : f.pair.Encloses x.pos) : ¬ BarOf f.whole q x := by
  rintro ⟨-, hqx, hall⟩
  exact hall f.pair ((f.mem_pairing_undo k _).mpr (Or.inl rfl)) hx (f.pair_deeper hq hx hqx)

theorem bars_undo {k : Nat} {q : Pair} (hq : q ∈ pairing (f.undo k)) :
    bars f.whole q = bars (f.undo k) q := by
  have notBar {c : Candidate} {x : Placed} (hx : x.char ≠ '|') : ¬ BarOf c q x :=
    fun h => hx h.1
  -- in the group neither side has a bar of `q`
  have hinside : (f.inside.filter fun x => BarOf f.whole q x) = [] := by
    refine List.filter_eq_nil_iff.mpr fun x hx h => ?_
    exact f.not_barOf_inside hq (f.encloses_of_mem hx) (of_decide_eq_true h)
  have hbetween : ((between f.inside k).filter fun x => BarOf (f.undo k) q x) = [] := by
    refine List.filter_eq_nil_iff.mpr fun x hx h => ?_
    have hchar := (of_decide_eq_true (List.mem_filter.mp hx).2).1
    exact notBar hchar (of_decide_eq_true h)
  refine f.filter_whole_eq (notBar ?_) (notBar ?_) (fun x hx => f.barOf_undo k q hx)
    (hinside.trans hbetween.symm)
  · rw [f.isOpen]
    decide
  · rw [f.isClose]
    decide

/-- The bars of the pair undone are the bars in the group. -/
theorem bars_pair : bars f.whole f.pair = f.inside.filter fun x => x.char = '|' := by
  have off {part : Candidate} (h : ∀ x ∈ part, f.Off x.pos) :
      (part.filter fun x => BarOf f.whole f.pair x) = [] :=
    List.filter_eq_nil_iff.mpr fun x hx hbar =>
      f.not_encloses_of_off (h x hx) (of_decide_eq_true hbar).2.1
  have hinside : (f.inside.filter fun x => BarOf f.whole f.pair x) =
      f.inside.filter fun x => x.char = '|' := by
    refine List.filter_congr fun x hx => decide_eq_decide.mpr ⟨And.left, fun hbar => ?_⟩
    have hencl := f.encloses_of_mem hx
    refine ⟨hbar, hencl, fun r hr hrx hdeeper => ?_⟩
    rcases (f.mem_pairing_undo 0 r).mp hr with rfl | hr
    · exact Nat.lt_irrefl _ hdeeper.1
    · have := (f.off_of_mem_pairing hr).1
      obtain ⟨h1, h2⟩ := hencl
      simp only [Off, pair, Pair.Encloses, Pair.Deeper] at *
      omega
  rw [bars, f.filter_whole, hinside, off fun x hx => f.off_of_mem_before hx,
    off fun x hx => f.off_of_mem_behind hx, List.nil_append, List.append_nil]
  · simp [BarOf, f.isOpen]
  · simp [BarOf, f.isClose]

/-! What a choice keeps off the group and in it. -/

theorem forall_mem_pairing (k : Nat) {P : Pair → Prop} :
    (∀ q ∈ pairing f.whole, P q) ↔ P f.pair ∧ ∀ q ∈ pairing (f.undo k), P q := by
  constructor
  · intro h
    exact ⟨h _ ((f.mem_pairing_undo k _).mpr (Or.inl rfl)),
      fun q hq => h q ((f.mem_pairing_undo k q).mpr (Or.inr hq))⟩
  · rintro ⟨hpair, hrest⟩ q hq
    rcases (f.mem_pairing_undo k q).mp hq with rfl | hq
    · exact hpair
    · exact hrest q hq

theorem keeps_off (k : Nat) (choice : Choice) {x : Placed} (h : f.Off x.pos) :
    Keeps f.whole choice x ↔ Keeps (f.undo k) choice x := by
  have hne : x.pos ≠ f.pair.opening ∧ x.pos ≠ f.pair.closing := by
    have := f.opening_lt_close
    simp only [Off, pair] at *
    omega
  have hencl := f.not_encloses_of_off h
  rw [Keeps, f.forall_mem_pairing k, Keeps]
  constructor
  · rintro ⟨-, hrest⟩ q hq
    obtain ⟨hpos, hbar, hpiece⟩ := hrest q hq
    refine ⟨hpos, mt (f.barOf_undo k q h).mpr hbar, ?_⟩
    rw [piece, ← f.bars_undo hq]
    exact hpiece
  · intro hrest
    refine ⟨⟨hne, fun hbar => hencl hbar.2.1, fun hx => absurd hx hencl⟩, fun q hq => ?_⟩
    obtain ⟨hpos, hbar, hpiece⟩ := hrest q hq
    refine ⟨hpos, mt (f.barOf_undo k q h).mp hbar, ?_⟩
    rw [piece, f.bars_undo hq]
    exact hpiece

theorem keeps_inside (k : Nat) (choice : Choice) {x : Placed} (h : x ∈ f.inside) :
    Keeps f.whole choice x ↔
      (x.char ≠ '|' ∧ barsBefore f.inside x.pos = choice f.pair) ∧
        Keeps (f.undo k) choice x := by
  have hencl := f.encloses_of_mem h
  have hbarOf : BarOf f.whole f.pair x ↔ x.char = '|' := by
    have hmem : x ∈ bars f.whole f.pair ↔ x.char = '|' := by
      rw [f.bars_pair, List.mem_filter, decide_eq_true_iff]
      exact and_iff_right h
    rw [← hmem, bars, List.mem_filter, decide_eq_true_iff]
    exact (and_iff_right (List.mem_append_right _ (List.mem_cons_of_mem _
      (List.mem_append_left _ h)))).symm
  rw [Keeps, f.forall_mem_pairing k, Keeps, hbarOf, piece, f.bars_pair, ← barsBefore]
  constructor
  · rintro ⟨⟨-, hbar, hpiece⟩, hrest⟩
    refine ⟨⟨hbar, hpiece hencl⟩, fun q hq => ?_⟩
    obtain ⟨hpos, -, hq'⟩ := hrest q hq
    rw [piece, f.bars_undo hq] at hq'
    exact ⟨hpos, fun hb => hbar hb.1, hq'⟩
  · rintro ⟨⟨hbar, hpiece⟩, hrest⟩
    refine ⟨⟨⟨Nat.ne_of_gt hencl.1, Nat.ne_of_lt hencl.2⟩, hbar, fun _ => hpiece⟩, fun q hq => ?_⟩
    obtain ⟨hpos, -, hq'⟩ := hrest q hq
    rw [piece, ← f.bars_undo hq] at hq'
    exact ⟨hpos, f.not_barOf_inside hq hencl, hq'⟩

/-- **A choice keeps the same of the whole and of what is left once its piece is put in the place
    of the group.** -/
theorem kept_undo (choice : Choice) :
    kept f.whole choice = kept (f.undo (choice f.pair)) choice := by
  have hinside : (f.inside.filter fun x => Keeps f.whole choice x) =
      (between f.inside (choice f.pair)).filter fun x =>
        Keeps (f.undo (choice f.pair)) choice x := by
    rw [between, List.filter_filter]
    refine List.filter_congr fun x hx => ?_
    rw [← Bool.decide_and]
    refine decide_eq_decide.mpr ((f.keeps_inside (choice f.pair) choice hx).trans ?_)
    exact and_comm
  have hparen {x : Placed} (hx : x.pos = f.pair.opening ∨ x.pos = f.pair.closing) :
      ¬ Keeps f.whole choice x := by
    intro h
    obtain ⟨hopening, hclosing⟩ := (h f.pair ((f.mem_pairing_undo 0 _).mpr (Or.inl rfl))).1
    exact hx.elim hopening hclosing
  exact f.filter_whole_eq (hparen (Or.inl rfl)) (hparen (Or.inr rfl))
    (fun x hx => f.keeps_off _ choice hx) hinside

/-- A choice for the whole is a choice for the rest with a piece of the group. -/
theorem valid_undo (k : Nat) (choice : Choice) :
    choice.Valid f.whole ↔
      choice f.pair < (f.inside.filter fun x => x.char = '|').length + 1 ∧
        choice.Valid (f.undo k) := by
  rw [Choice.Valid, f.forall_mem_pairing k, Choice.Valid, pieces, f.bars_pair]
  refine and_congr_right fun _ => forall₂_congr fun q hq => ?_
  rw [pieces, f.bars_undo hq, pieces]

theorem pair_notMem_pairing (k : Nat) : f.pair ∉ pairing (f.undo k) := by
  intro h
  have hoff := (f.off_of_mem_pairing h).1
  have := f.opening_lt_close
  simp only [Off, pair] at hoff
  omega

end Frame

/-- A candidate with a first group is a frame, and choosing in it undoes the pair. -/
theorem exists_frame {c : Candidate} {g : Group} (hc : Ascending c) (h : firstGroup? c = some g) :
    ∃ f : Frame, f.whole = c ∧ ∀ c', c' ∈ choices c ↔
      ∃ k < (f.inside.filter fun x => x.char = '|').length + 1, f.undo k = c' := by
  obtain ⟨hplain, opening, close, hopen, hclose, rfl⟩ := eq_of_firstGroup? h
  refine ⟨⟨g.before, opening, g.inside, close, g.behind, hopen, hclose, hplain, hc⟩, rfl,
    fun c' => ?_⟩
  have hinside : Ascending g.inside :=
    hc.sublist ((List.sublist_append_left _ _).trans
      ((List.sublist_cons_self _ _).trans (List.sublist_append_right _ _)))
  rw [mem_choices h]
  constructor
  · rintro ⟨branch, hbranch, rfl⟩
    obtain ⟨k, hk, rfl⟩ := (mem_branches_iff hinside).mp hbranch
    exact ⟨k, hk, rfl⟩
  · rintro ⟨k, hk, rfl⟩
    exact ⟨_, (mem_branches_iff hinside).mpr ⟨k, hk, rfl⟩, rfl⟩

/-! ## All choices -/

/-- What a choice keeps depends on the pairs there are. -/
theorem kept_congr {c : Candidate} {choice choice' : Choice}
    (h : ∀ q ∈ pairing c, choice q = choice' q) : kept c choice = kept c choice' := by
  refine List.filter_congr fun x _ => decide_eq_decide.mpr (forall₂_congr fun q hq => ?_)
  rw [h q hq]

/-- Without pairs there is nothing to choose, and everything is kept. -/
theorem kept_of_pairing_eq_nil {c : Candidate} (h : pairing c = []) (choice : Choice) :
    choice.Valid c ∧ kept c choice = c := by
  have none_in {P : Pair → Prop} : ∀ q ∈ pairing c, P q := by
    rw [h]
    exact fun q hq => absurd hq List.not_mem_nil
  exact ⟨none_in, List.filter_eq_self.mpr fun x _ => decide_eq_true none_in⟩

/-- **A candidate settles on what the choices keep of it.** By induction on the number of pairs:
    the first group is undone with its piece, and the rest of the choice goes on from there. -/
theorem settles_iff_kept {c d : Candidate} (hc : Ascending c) :
    Settles c d ↔ ∃ choice : Choice, choice.Valid c ∧ kept c choice = d := by
  induction hn : pairs c using Nat.strongRecOn generalizing c with
  | ind n ih =>
      cases hg : firstGroup? c with
      | none =>
          -- no pair is left, so nothing is picked and nothing goes
          have hnil := kept_of_pairing_eq_nil (pairing_eq_nil hg)
          rw [settles_of_none hg]
          constructor
          · rintro rfl
            exact ⟨fun _ => 0, hnil _⟩
          · rintro ⟨choice, -, rfl⟩
            exact (hnil choice).2
      | some g =>
          obtain ⟨f, rfl, hchoices⟩ := exists_frame hc hg
          have ih {c' : Candidate} (hc' : c' ∈ choices f.whole) (hasc : Ascending c') :
              Settles c' d ↔ ∃ choice : Choice, choice.Valid c' ∧ kept c' choice = d :=
            ih (pairs c') (by rw [← hn, pairs_choices hg hc']; omega) hasc rfl
          rw [settles_of_some hg]
          constructor
          · rintro ⟨c', hc', hd⟩
            obtain ⟨k, hk, rfl⟩ := (hchoices c').mp hc'
            obtain ⟨choice, hvalid, rfl⟩ := (ih hc' (f.ascending_undo k)).mp hd
            -- the piece of the group joins the choice in the rest
            have hother : ∀ q ∈ pairing (f.undo k),
                Function.update choice f.pair k q = choice q := by
              intro q hq
              refine Function.update_of_ne ?_ _ _
              rintro rfl
              exact f.pair_notMem_pairing k hq
            have hself : Function.update choice f.pair k f.pair = k := Function.update_self _ _ _
            refine ⟨Function.update choice f.pair k,
              (f.valid_undo k _).mpr ⟨?_, fun q hq => ?_⟩, ?_⟩
            · rw [hself]
              exact hk
            · rw [hother q hq]
              exact hvalid q hq
            · rw [f.kept_undo, hself]
              exact kept_congr hother
          · rintro ⟨choice, hvalid, rfl⟩
            obtain ⟨hk, hrest⟩ := (f.valid_undo (choice f.pair) choice).mp hvalid
            have hc' := (hchoices _).mpr ⟨choice f.pair, hk, rfl⟩
            exact ⟨_, hc', (ih hc' (f.ascending_undo _)).mpr
              ⟨choice, hrest, (f.kept_undo choice).symm⟩⟩

/-! ## Patterns as typed -/

/-- Every character of a pattern is at its own place. -/
theorem mem_ofText {p : List Char} {x : Placed} (h : x ∈ Placed.ofText p) :
    p[x.pos]? = some x.char := by
  obtain ⟨i, hi, rfl⟩ := List.mem_mapIdx.mp h
  exact List.getElem?_eq_getElem hi

theorem ascending_ofText (p : List Char) : Ascending (Placed.ofText p) := by
  rw [Ascending, List.pairwise_iff_getElem]
  intro i j hi hj hij
  simpa [Placed.ofText] using hij

/-- **The candidates of a pattern are the choices in its pairs.** The texts are those that the
    choices spell, and each candidate is what one single choice keeps: its places ascend, there
    is one for each character of its text, and each is the place of that character in the
    pattern. -/
theorem expand_is_cross_product (p : List Char) :
    (∀ s, s ∈ expand p ↔ ∃ choice : Choice, choice.Valid (Placed.ofText p) ∧
      text (kept (Placed.ofText p) choice) = s) ∧
    ∀ d ∈ ofPattern p,
      (∃ choice : Choice, choice.Valid (Placed.ofText p) ∧ kept (Placed.ofText p) choice = d) ∧
      (d.map Placed.pos).length = (text d).length ∧ (d.map Placed.pos).Pairwise (· < ·) ∧
      ∀ x ∈ d, x.pos < p.length ∧ p[x.pos]? = some x.char := by
  have hasc := ascending_ofText p
  refine ⟨fun s => ?_, fun d hd => ?_⟩
  · rw [mem_expand_iff]
    constructor
    · rintro ⟨d, hd, rfl⟩
      obtain ⟨choice, hvalid, rfl⟩ := (settles_iff_kept hasc).mp hd
      exact ⟨choice, hvalid, rfl⟩
    · rintro ⟨choice, hvalid, rfl⟩
      exact ⟨_, (settles_iff_kept hasc).mpr ⟨choice, hvalid, rfl⟩, rfl⟩
  · obtain ⟨choice, hvalid, rfl⟩ := (settles_iff_kept hasc).mp (settles_of_mem_ofPattern hd)
    refine ⟨⟨choice, hvalid, rfl⟩, ?_, ?_, fun x hx => ?_⟩
    · rw [List.length_map, text, List.length_map]
    · exact List.pairwise_map.mpr (hasc.sublist List.filter_sublist)
    · have hplace := mem_ofText (List.mem_filter.mp hx).1
      exact ⟨(List.getElem?_eq_some_iff.mp hplace).1, hplace⟩

/-- In `((a|b)c)d` the candidate `bcd` is what one choice keeps, at the places 4, 6 and 8. -/
theorem kept_bcd :
    [⟨4, 'b'⟩, ⟨6, 'c'⟩, ⟨8, 'd'⟩] ∈ ofPattern "((a|b)c)d".toList ∧
      ∃ choice : Choice, choice.Valid (Placed.ofText "((a|b)c)d".toList) ∧
        kept (Placed.ofText "((a|b)c)d".toList) choice = [⟨4, 'b'⟩, ⟨6, 'c'⟩, ⟨8, 'd'⟩] := by
  have hmem : [⟨4, 'b'⟩, ⟨6, 'c'⟩, ⟨8, 'd'⟩] ∈ ofPattern "((a|b)c)d".toList := by
    have hinner : ofPattern "((a|b)c)d".toList =
        settle [[⟨0, '('⟩, ⟨2, 'a'⟩, ⟨6, 'c'⟩, ⟨7, ')'⟩, ⟨8, 'd'⟩],
          [⟨0, '('⟩, ⟨4, 'b'⟩, ⟨6, 'c'⟩, ⟨7, ')'⟩, ⟨8, 'd'⟩]] :=
      settle_of_ascending List.mem_cons_self rfl (by decide)
    rw [hinner, settle_of_ascending List.mem_cons_self rfl (by decide), settle_of_none rfl]
    exact List.mem_cons_of_mem _ List.mem_cons_self
  exact ⟨hmem, ((expand_is_cross_product _).2 _ hmem).1⟩

end Candidate

end LineSieve
