import LineSieve.Proofs.Alternatives.Choices
import LineSieve.Proofs.Compiling
import LineSieve.Proofs.Reading.Refusals

/-!
# Where complaints point

A candidate is read as a text of its own, and a fault in it is counted in characters of that text.
What is reported is counted in the pattern as typed, and the two places hold the same character:
the bracket that is never closed, the quantifier with nothing to repeat.

* **`getElem?_of_culprit?`**, **`getElem?_of_unknownEscape`**: a complaint about a text names a
  character of the text, and for an escape the next one, too.
* **`exists_choice_of_firstFault`**: a first fault is one in what some choice keeps of the pattern.
* **`compile_points_at`**: so the complaint about a pattern points at the character it names.
-/

namespace LineSieve

open Placed (text)

namespace ParseError

theorem culprit?_move (f : Nat → Nat) (e : ParseError) :
    (e.move f).culprit? = e.culprit?.map (Placed.move f) := by
  cases e <;> rfl

theorem move_move (f g : Nat → Nat) (e : ParseError) : (e.move f).move g = e.move (g ∘ f) := by
  cases e <;> rfl

/-- A complaint is where its culprit is. -/
theorem move_of_culprit? {e : ParseError} {x : Placed} (h : e.culprit? = some x) :
    (e.move fun _ => x.pos) = e := by
  cases e with
  | trailingEscape => rfl
  | _ =>
      obtain rfl := Option.some.inj h
      rfl

end ParseError

/-! ## Complaints about a text -/

namespace Sequence

/-- **A complaint about a text names a character of the text.** -/
theorem getElem?_of_culprit? {s : List Char} {fault : ParseError} (h : parse s = .error fault)
    {x : Placed} (hx : fault.culprit? = some x) : s[x.pos]? = some x.char :=
  Candidate.mem_ofText (culprit_mem_of_ofPlaced h hx)

/-- The character that was escaped is the next one. -/
theorem getElem?_of_unknownEscape {s : List Char} {escaped : Char} {pos : Nat}
    (h : parse s = .error (.unknownEscape escaped pos)) : s[pos + 1]? = some escaped := by
  obtain ⟨front, c, behind, hs, rfl⟩ := escape_of_ofPlaced h
  have hpos : pos = front.length := Placed.pos_of_ofText_eq hs
  have hnext : c.pos = pos + 1 := by
    rw [Placed.pos_of_ofText_eq (hs.trans (List.append_cons front _ _)), List.length_append, hpos]
    rfl
  rw [← hnext]
  refine Candidate.mem_ofText ?_
  rw [hs]
  exact List.mem_append_right front (List.mem_cons_of_mem _ List.mem_cons_self)

end Sequence

/-! ## Complaints about a pattern -/

namespace Pattern

open Candidate (Choice kept)

/-- **A first fault is one in what some choice keeps of the pattern.** -/
theorem exists_choice_of_firstFault {source : List Char} {e : ParseError}
    (h : FirstFault source e) :
    ∃ choice : Choice, choice.Valid (Placed.ofText source) ∧
      ∃ fault, Sequence.parse (text (kept (Placed.ofText source) choice)) = .error fault ∧
        fault.relocate ((kept (Placed.ofText source) choice).map Placed.pos) = e := by
  obtain ⟨front, candidate, behind, hpattern, -, hfault⟩ := h
  have hmem : candidate ∈ Candidate.ofPattern source := by
    rw [hpattern]
    exact List.mem_append_right front List.mem_cons_self
  have hsettles := Candidate.settles_of_mem_ofPattern hmem
  obtain ⟨choice, hvalid, rfl⟩ :=
    (Candidate.settles_iff_kept (Candidate.ascending_ofText source)).mp hsettles
  exact ⟨choice, hvalid, hfault⟩

/-- A relocated complaint is about the character at whose place the complaint was. -/
theorem getElem?_of_relocate {candidate : Candidate} {fault : ParseError}
    (h : Sequence.parse (text candidate) = .error fault) {x : Placed}
    (hx : (fault.relocate (candidate.map Placed.pos)).culprit? = some x) :
    ∃ i, candidate[i]? = some x ∧ (fault.move fun _ => i) = fault := by
  rw [ParseError.relocate, ParseError.culprit?_move, Option.map_eq_some_iff] at hx
  obtain ⟨y, hy, rfl⟩ := hx
  refine ⟨y.pos, ?_, ParseError.move_of_culprit? hy⟩
  have hchar := Sequence.getElem?_of_culprit? h hy
  rw [text, List.getElem?_map] at hchar
  obtain ⟨z, hz, hzchar⟩ := Option.map_eq_some_iff.mp hchar
  have hpos : (candidate.map Placed.pos).getD y.pos y.pos = z.pos := by
    rw [List.getD_eq_getElem?_getD, List.getElem?_map, hz]
    rfl
  rw [hz, Placed.move, hpos, ← hzchar]

/-- What a choice keeps stands in the pattern where it says. -/
theorem getElem?_of_mem_kept {source : List Char} {choice : Choice} {i : Nat} {x : Placed}
    (h : (kept (Placed.ofText source) choice)[i]? = some x) : source[x.pos]? = some x.char :=
  Candidate.mem_ofText (List.mem_filter.mp (List.mem_of_getElem? h)).1

/-- **A complaint about a pattern points at the character that it names**: the bracket of a group,
    the `^` inside it, the quantifier, the backslash, the anchor. Some choice keeps that character
    of the pattern, and the text that it spells is refused with the same complaint there. Of an
    escape it keeps the next character, too, which is the one escaped. -/
theorem compile_points_at {source : List Char} {e : ParseError}
    (h : compile source = .error (.malformed e)) {x : Placed} (hx : e.culprit? = some x) :
    source[x.pos]? = some x.char ∧
    ∃ choice : Choice, choice.Valid (Placed.ofText source) ∧ ∃ i,
      Sequence.parse (text (kept (Placed.ofText source) choice)) = .error (e.move fun _ => i) ∧
      (kept (Placed.ofText source) choice)[i]? = some x ∧
      ∀ escaped pos, e = .unknownEscape escaped pos →
        ∃ y, (kept (Placed.ofText source) choice)[i + 1]? = some y ∧ y.char = escaped ∧
          source[y.pos]? = some escaped := by
  obtain ⟨choice, hvalid, fault, hfault, rfl⟩ :=
    exists_choice_of_firstFault (compile_eq_malformed_iff.mp h)
  obtain ⟨i, hi, hsame⟩ := getElem?_of_relocate hfault hx
  have hthere : (fault.relocate ((kept (Placed.ofText source) choice).map Placed.pos)).move
      (fun _ => i) = fault := (ParseError.move_move _ _ fault).trans hsame
  refine ⟨getElem?_of_mem_kept hi, choice, hvalid, i, ?_, hi, fun escaped pos hescape => ?_⟩
  · rw [hthere]
    exact hfault
  · rw [hescape] at hthere
    rw [← hthere] at hfault
    have hnext := Sequence.getElem?_of_unknownEscape hfault
    rw [text, List.getElem?_map] at hnext
    obtain ⟨y, hy, rfl⟩ := Option.map_eq_some_iff.mp hnext
    exact ⟨y, hy, rfl, getElem?_of_mem_kept hy⟩

/-- In `((a|b\x)c)d` the backslash of the second branch is reported, at its place 5. -/
theorem compile_escapeInBranch :
    compile "((a|b\\x)c)d".toList = .error (.malformed (.unknownEscape 'x' 5)) ∧
      "((a|b\\x)c)d".toList[5]? = some '\\' ∧
      ∃ choice : Choice, choice.Valid (Placed.ofText "((a|b\\x)c)d".toList) ∧ ∃ i,
        Sequence.parse (text (kept (Placed.ofText "((a|b\\x)c)d".toList) choice)) =
          .error (.unknownEscape 'x' i) ∧
        (kept (Placed.ofText "((a|b\\x)c)d".toList) choice)[i]? = some ⟨5, '\\'⟩ := by
  have hpattern : Candidate.ofPattern "((a|b\\x)c)d".toList =
      [[⟨2, 'a'⟩, ⟨8, 'c'⟩, ⟨10, 'd'⟩],
        [⟨4, 'b'⟩, ⟨5, '\\'⟩, ⟨6, 'x'⟩, ⟨8, 'c'⟩, ⟨10, 'd'⟩]] := by
    have hinner : Candidate.ofPattern "((a|b\\x)c)d".toList =
        Candidate.settle [[⟨0, '('⟩, ⟨2, 'a'⟩, ⟨8, 'c'⟩, ⟨9, ')'⟩, ⟨10, 'd'⟩],
          [⟨0, '('⟩, ⟨4, 'b'⟩, ⟨5, '\\'⟩, ⟨6, 'x'⟩, ⟨8, 'c'⟩, ⟨9, ')'⟩, ⟨10, 'd'⟩]] :=
      Candidate.settle_of_ascending List.mem_cons_self rfl (by decide)
    rw [hinner, Candidate.settle_of_ascending List.mem_cons_self rfl (by decide),
      Candidate.settle_of_none rfl]
    rfl
  have hcompile : compile "((a|b\\x)c)d".toList = .error (.malformed (.unknownEscape 'x' 5)) := by
    rw [compile, hpattern]
    rfl
  obtain ⟨hchar, choice, hvalid, i, hparse, hi, -⟩ :=
    compile_points_at hcompile (x := ⟨5, '\\'⟩) rfl
  exact ⟨hcompile, hchar, choice, hvalid, i, hparse, hi⟩

end Pattern

end LineSieve
