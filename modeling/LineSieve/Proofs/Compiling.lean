import LineSieve.Pattern
import LineSieve.Proofs.Matching.Meaning
import LineSieve.Proofs.Places
import LineSieve.Proofs.Reading.Spelling

/-!
# Compiling

Compiling a pattern reads the candidates one after the other and stops at the first fault. Where
all the texts that the pattern expands to read well, nothing else can go wrong than that one of
them has no atoms.

* **`compile_of_reads`**: what becomes of such a pattern, from the atoms of its texts alone.
* **`firstFault_or_reads`**: any other pattern has a first fault, and `compile_of_firstFault` says
  that this is the complaint. So the three outcomes exclude each other, and each has its condition
  (`compile_eq_malformed_iff`, `compile_eq_emptyExpression_iff`, `compile_eq_ok_iff`).
* **`isMatch_iff_search`**: a compiled pattern is matched by a text in which one of its candidates
  is found.
-/

namespace LineSieve

/-- Doing something for every member of a list goes well if it goes well for each. -/
theorem mapM_eq_ok_iff {α β ε : Type} {f : α → Except ε β} {xs : List α} {ys : List β} :
    xs.mapM f = .ok ys ↔ xs.map f = ys.map .ok := by
  induction xs generalizing ys with
  | nil =>
      constructor
      · intro h
        obtain rfl := Except.ok.inj h
        rfl
      · intro h
        obtain rfl := List.map_eq_nil_iff.mp h.symm
        rfl
  | cons x xs ih =>
      rw [List.mapM_cons, List.map_cons]
      cases hx : f x with
      | error e =>
          constructor
          · intro h
            exact nomatch h
          · intro h
            cases ys with
            | nil => exact nomatch h
            | cons y ys => exact nomatch (List.cons.inj h).1
      | ok y =>
          constructor
          · intro h
            cases hxs : xs.mapM f with
            | error e =>
                rw [hxs] at h
                exact nomatch h
            | ok zs =>
                rw [hxs] at h
                obtain rfl := Except.ok.inj h
                rw [List.map_cons, ih.mp hxs]
          · intro h
            cases ys with
            | nil => exact nomatch h
            | cons z ys =>
                obtain ⟨hy, htail⟩ := List.cons.inj h
                rw [ih.mpr htail, Except.ok.inj hy]
                rfl

/-- Where something goes well for every member of a list, it has a list of results. -/
theorem exists_map_eq_ok {α β ε : Type} {f : α → Except ε β} {xs : List α}
    (h : ∀ x ∈ xs, ∃ y, f x = .ok y) : ∃ ys : List β, xs.map f = ys.map .ok := by
  induction xs with
  | nil => exact ⟨[], rfl⟩
  | cons x xs ih =>
      obtain ⟨y, hy⟩ := h x List.mem_cons_self
      obtain ⟨ys, hys⟩ := ih fun z hz => h z (List.mem_cons_of_mem x hz)
      refine ⟨y :: ys, ?_⟩
      rw [List.map_cons, List.map_cons, hy, hys]

/-- Where there is a list of results, it goes well for every member. -/
theorem exists_eq_ok_of_map_eq {α β ε : Type} {f : α → Except ε β} {xs : List α} {ys : List β}
    (h : xs.map f = ys.map .ok) {x : α} (hx : x ∈ xs) : ∃ y, f x = .ok y := by
  have hmem : f x ∈ ys.map .ok := h ▸ List.mem_map_of_mem hx
  obtain ⟨y, -, hy⟩ := List.mem_map.mp hmem
  exact ⟨y, hy.symm⟩

/-- Doing something for every member of a list stops at the first one where it fails. -/
theorem mapM_eq_error_iff {α β ε : Type} {f : α → Except ε β} {xs : List α} {e : ε} :
    xs.mapM f = .error e ↔
      ∃ front x behind, xs = front ++ x :: behind ∧ (∀ y ∈ front, ∃ b, f y = .ok b) ∧
        f x = .error e := by
  constructor
  · intro h
    induction xs with
    | nil => exact nomatch h
    | cons x xs ih =>
        rw [List.mapM_cons] at h
        cases hx : f x with
        | error e' =>
            rw [hx] at h
            obtain rfl := Except.error.inj h
            exact ⟨[], x, xs, rfl, nofun, hx⟩
        | ok b =>
            have hrest : xs.mapM f = .error e := by
              rw [hx] at h
              cases hxs : xs.mapM f with
              | error e' =>
                  rw [hxs] at h
                  exact h
              | ok bs =>
                  rw [hxs] at h
                  exact nomatch h
            obtain ⟨front, y, behind, rfl, hfront, hy⟩ := ih hrest
            exact ⟨x :: front, y, behind, rfl, List.forall_mem_cons.mpr ⟨⟨b, hx⟩, hfront⟩, hy⟩
  · rintro ⟨front, x, behind, rfl, hfront, hx⟩
    obtain ⟨ys, hys⟩ := exists_map_eq_ok hfront
    rw [List.mapM_append, mapM_eq_ok_iff.mpr hys, List.mapM_cons, hx]
    rfl

namespace Pattern

open Placed (text)
open Candidate (ofPattern expand)
open Sequence (parse)

/-- What is reported of a malformed pattern: of its candidates, in ascending order of their texts,
    the first one that is malformed, with a complaint that points into the pattern as typed. -/
def FirstFault (source : List Char) (e : ParseError) : Prop :=
  ∃ front candidate behind, ofPattern source = front ++ candidate :: behind ∧
    (∀ c ∈ front, ∃ atoms, parse (text c) = .ok atoms) ∧
    ∃ fault, parse (text candidate) = .error fault ∧
      fault.relocate (candidate.map Placed.pos) = e

/-! ## Reading the candidates -/

theorem readCandidate_eq_ok {candidate : Candidate} {atoms : Sequence} :
    readCandidate candidate = .ok atoms ↔ parse (text candidate) = .ok atoms := by
  rw [← Sequence.ofPlaced_eq_ok, readCandidate]
  cases Sequence.ofPlaced candidate with
  | error e => exact ⟨(nomatch ·), (nomatch ·)⟩
  | ok read => exact ⟨fun h => congrArg _ (Except.ok.inj h), fun h => congrArg _ (Except.ok.inj h)⟩

theorem readCandidate_eq_malformed {candidate : Candidate} {e : ParseError} :
    readCandidate candidate = .error (.malformed e) ↔
      ∃ fault, parse (text candidate) = .error fault ∧
        fault.relocate (candidate.map Placed.pos) = e := by
  rw [← Sequence.ofPlaced_eq_error, readCandidate]
  cases Sequence.ofPlaced candidate with
  | error fault =>
      constructor
      · intro h
        exact congrArg _ (PatternError.malformed.inj (Except.error.inj h))
      · intro h
        exact congrArg _ (congrArg _ (Except.error.inj h))
  | ok read => exact ⟨(nomatch ·), (nomatch ·)⟩

/-- A candidate is never refused for anything but a fault in it. -/
theorem exists_malformed_of_readCandidate {candidate : Candidate} {err : PatternError}
    (h : readCandidate candidate = .error err) : ∃ e, err = .malformed e := by
  rw [readCandidate] at h
  cases hread : Sequence.ofPlaced candidate with
  | error e =>
      rw [hread] at h
      exact ⟨e, (Except.error.inj h).symm⟩
  | ok read =>
      rw [hread] at h
      exact nomatch h

/-- Where the texts of the candidates read well, the candidates are read as the same atoms. -/
theorem map_readCandidate {candidates : List Candidate} {atoms : List Sequence}
    (h : (candidates.map text).map parse = atoms.map .ok) :
    candidates.map readCandidate = atoms.map .ok := by
  induction candidates generalizing atoms with
  | nil =>
      obtain rfl := List.map_eq_nil_iff.mp h.symm
      rfl
  | cons c candidates ih =>
      cases atoms with
      | nil => exact nomatch h
      | cons a atoms =>
          obtain ⟨hread, htail⟩ := List.cons.inj h
          rw [List.map_cons, List.map_cons, readCandidate_eq_ok.mpr hread, ih htail]

/-! ## The three outcomes -/

/-- **What becomes of a pattern all of whose texts read well.** -/
theorem compile_of_reads {source : List Char} {candidates : List Sequence}
    (h : (expand source).map parse = candidates.map .ok) :
    compile source =
      if [] ∈ candidates then .error .emptyExpression else .ok ⟨source, candidates⟩ := by
  have hread : (ofPattern source).mapM readCandidate = .ok candidates :=
    mapM_eq_ok_iff.mpr (map_readCandidate h)
  have hany : candidates.any List.isEmpty = true ↔ [] ∈ candidates := by
    rw [List.any_eq_true]
    constructor
    · rintro ⟨atoms, hmem, hempty⟩
      exact List.isEmpty_iff.mp hempty ▸ hmem
    · intro hmem
      exact ⟨[], hmem, rfl⟩
  -- all candidates are read, and what remains is to look for one without atoms
  rw [compile, hread]
  by_cases hempty : [] ∈ candidates
  · rw [if_pos hempty]
    show (if candidates.any List.isEmpty = true then _ else _) = _
    rw [if_pos (hany.mpr hempty)]
    rfl
  · rw [if_neg hempty]
    show (if candidates.any List.isEmpty = true then _ else _) = _
    rw [if_neg fun h => hempty (hany.mp h)]
    rfl

/-- Where each text reads well, there is a list of what they are all read as. -/
theorem exists_reads {texts : List (List Char)} (h : ∀ s ∈ texts, ∃ atoms, parse s = .ok atoms) :
    ∃ candidates : List Sequence, texts.map parse = candidates.map .ok :=
  exists_map_eq_ok h

/-- **A pattern with a first fault is refused for this fault.** -/
theorem compile_of_firstFault {source : List Char} {e : ParseError} (h : FirstFault source e) :
    compile source = .error (.malformed e) := by
  obtain ⟨front, candidate, behind, hpattern, hfront, hfault⟩ := h
  have hread : (ofPattern source).mapM readCandidate = .error (.malformed e) := by
    refine mapM_eq_error_iff.mpr ⟨front, candidate, behind, hpattern, fun c hc => ?_, ?_⟩
    · obtain ⟨atoms, hc⟩ := hfront c hc
      exact ⟨atoms, readCandidate_eq_ok.mpr hc⟩
    · exact readCandidate_eq_malformed.mpr hfault
  rw [compile, hread]
  rfl

/-- **A pattern has a first fault, or all its texts read well.** -/
theorem firstFault_or_reads (source : List Char) :
    (∃ e, FirstFault source e) ∨
      ∃ candidates : List Sequence, (expand source).map parse = candidates.map .ok := by
  cases hread : (ofPattern source).mapM readCandidate with
  | error err =>
      obtain ⟨front, candidate, behind, hpattern, hfront, hcandidate⟩ :=
        mapM_eq_error_iff.mp hread
      obtain ⟨e, rfl⟩ := exists_malformed_of_readCandidate hcandidate
      refine Or.inl ⟨e, front, candidate, behind, hpattern, fun c hc => ?_, ?_⟩
      · obtain ⟨atoms, hc⟩ := hfront c hc
        exact ⟨atoms, readCandidate_eq_ok.mp hc⟩
      · exact readCandidate_eq_malformed.mp hcandidate
  | ok candidates =>
      refine Or.inr (exists_reads fun s hs => ?_)
      obtain ⟨c, hc, rfl⟩ := List.mem_map.mp hs
      obtain ⟨atoms, hatoms⟩ := exists_eq_ok_of_map_eq (mapM_eq_ok_iff.mp hread) hc
      exact ⟨atoms, readCandidate_eq_ok.mp hatoms⟩

/-- A text of a pattern with a first fault does not read well. -/
theorem FirstFault.exists_malformed {source : List Char} {e : ParseError}
    (h : FirstFault source e) : ∃ s ∈ expand source, ∃ fault, parse s = .error fault := by
  obtain ⟨front, candidate, behind, hpattern, -, fault, hfault, -⟩ := h
  refine ⟨text candidate, List.mem_map_of_mem ?_, fault, hfault⟩
  rw [hpattern]
  exact List.mem_append_right front List.mem_cons_self

/-- There is a first fault exactly if some text does not read well. -/
theorem firstFault_iff {source : List Char} :
    (∃ e, FirstFault source e) ↔ ∃ s ∈ expand source, ∃ fault, parse s = .error fault := by
  constructor
  · rintro ⟨e, hfault⟩
    exact hfault.exists_malformed
  · rintro ⟨s, hs, fault, hbad⟩
    rcases firstFault_or_reads source with hfault | ⟨candidates, hreads⟩
    · exact hfault
    · obtain ⟨atoms, hatoms⟩ := exists_eq_ok_of_map_eq hreads hs
      exact nomatch hbad.symm.trans hatoms

/-- The candidates are what the texts are read as. -/
theorem mem_of_reads {texts : List (List Char)} {candidates : List Sequence}
    (h : texts.map parse = candidates.map .ok) {atoms : Sequence} :
    atoms ∈ candidates ↔ ∃ s ∈ texts, parse s = .ok atoms := by
  rw [← List.mem_map, h, List.mem_map]
  constructor
  · intro hmem
    exact ⟨atoms, hmem, rfl⟩
  · rintro ⟨_, hmem, heq⟩
    exact Except.ok.inj heq ▸ hmem

/-- No atoms are read where there is no text, and only there. -/
theorem nil_mem_iff_of_reads {texts : List (List Char)} {candidates : List Sequence}
    (h : texts.map parse = candidates.map .ok) : [] ∈ candidates ↔ [] ∈ texts := by
  rw [mem_of_reads h]
  constructor
  · rintro ⟨s, hs, hparse⟩
    obtain rfl : s = [] := (Sequence.spelledBy_of_parse hparse).2
    exact hs
  · intro hs
    exact ⟨[], hs, rfl⟩

/-- **A pattern is malformed if it has a first fault**, whatever its other texts are. -/
theorem compile_eq_malformed_iff {source : List Char} {e : ParseError} :
    compile source = .error (.malformed e) ↔ FirstFault source e := by
  refine ⟨fun h => ?_, compile_of_firstFault⟩
  rcases firstFault_or_reads source with ⟨e', hfault⟩ | ⟨candidates, hreads⟩
  · rw [compile_of_firstFault hfault] at h
    obtain rfl := PatternError.malformed.inj (Except.error.inj h)
    exact hfault
  · rw [compile_of_reads hreads] at h
    split at h
    next => exact nomatch h
    next => exact nomatch h

/-- **A pattern is empty if all its texts read well and one of them is empty.** -/
theorem compile_eq_emptyExpression_iff {source : List Char} :
    compile source = .error .emptyExpression ↔
      (∀ s ∈ expand source, ∃ atoms, parse s = .ok atoms) ∧ [] ∈ expand source := by
  rcases firstFault_or_reads source with ⟨e, hfault⟩ | ⟨candidates, hreads⟩
  · rw [compile_of_firstFault hfault]
    constructor
    · intro h
      exact nomatch h
    · rintro ⟨hgood, -⟩
      obtain ⟨s, hs, fault, hbad⟩ := hfault.exists_malformed
      obtain ⟨atoms, hatoms⟩ := hgood s hs
      exact nomatch hbad.symm.trans hatoms
  · rw [compile_of_reads hreads, ← nil_mem_iff_of_reads hreads]
    constructor
    · intro h
      split at h
      next hempty => exact ⟨fun s hs => exists_eq_ok_of_map_eq hreads hs, hempty⟩
      next => exact nomatch h
    · rintro ⟨-, hempty⟩
      exact if_pos hempty

/-- **A pattern is compiled if all its texts read well and none is empty**, and its candidates are
    what the texts are read as, in their order. -/
theorem compile_eq_ok_iff {source : List Char} {p : Pattern} :
    compile source = .ok p ↔
      p.source = source ∧ (expand source).map parse = p.candidates.map .ok ∧
        [] ∉ expand source := by
  obtain ⟨typed, candidates⟩ := p
  constructor
  · intro h
    rcases firstFault_or_reads source with ⟨e, hfault⟩ | ⟨found, hreads⟩
    · rw [compile_of_firstFault hfault] at h
      exact nomatch h
    · rw [compile_of_reads hreads] at h
      split at h
      next => exact nomatch h
      next hne =>
        obtain ⟨rfl, rfl⟩ := Pattern.mk.inj (Except.ok.inj h)
        exact ⟨rfl, hreads, mt (nil_mem_iff_of_reads hreads).mpr hne⟩
  · rintro ⟨rfl, hreads, hne⟩
    rw [compile_of_reads hreads, if_neg (mt (nil_mem_iff_of_reads hreads).mp hne)]

/-- A pattern with one candidate matches where this occurs. -/
theorem isMatch_of_candidates_eq {p : Pattern} {atoms : Sequence} (h : p.candidates = [atoms])
    (line : List Char) : p.isMatch line = Sequence.occursIn line atoms := by
  rw [isMatch, h, List.any_cons, List.any_nil, Bool.or_false]

/-- **A text matches if one of the candidates is found in it**, if none of them is empty. -/
theorem isMatch_iff_search {p : Pattern} (hne : [] ∉ p.candidates) (line : List Char) :
    p.isMatch line = true ↔ ∃ atoms ∈ p.candidates, Sequence.search line atoms = .ok true := by
  rw [isMatch, List.any_eq_true]
  refine exists_congr fun atoms => and_congr_right fun hmem => ?_
  have hatoms : atoms ≠ [] := fun h => hne (h ▸ hmem)
  rw [Sequence.search_of_ne_nil line hatoms, Except.ok.injEq]

end Pattern

end LineSieve
