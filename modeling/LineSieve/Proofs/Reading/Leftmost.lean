import LineSieve.Proofs.Places
import LineSieve.Proofs.Reading.Refusals
import Mathlib.Data.List.Induction

/-!
# The first fault of a text

Of all that may be wrong with a text one thing is reported, and it is the leftmost. A complaint
is about a character that the reader came to between two atoms, or had in mind since it was
there, so what stands in front of that character reads well. A `^` inside a group is the one
exception: in front of it the group is still open, and that is what a reader of that much would
complain about.

A complaint made at a character is final, since a reader that has failed does not look at what
follows. Only an open group and a last backslash are complaints about the end of the text.

* **`exists_between_of_mark?`**: whatever a reader has in mind, it came to it between two atoms.
* **`Refuses.leftmost`**, **`leftmost_of_finish`**: the two ways to fail.
* **`parse_leftmost_and_final`**: both laws, for every text that is refused.
-/

namespace LineSieve

open Placed (text ofText)

/-- The text spells a sequence of atoms. -/
def Sequence.ReadsWell (s : List Char) : Prop :=
  ∃ atoms, parse s = .ok atoms

/-- Up to the character that the complaint is about, the text reads well. What stands in front of
    a `^` inside a group reads well up to the bracket, and the group opened there is not closed
    before the `^`. -/
def ParseError.Leftmost (s : List Char) : ParseError → Prop
  | .emptyGroup pos | .danglingQuantifier _ pos | .unknownEscape _ pos | .unclosedGroup pos
  | .misplacedAnchor _ pos => Sequence.ReadsWell (s.take pos)
  | .trailingEscape => ∃ front, s = front ++ ['\\'] ∧ Sequence.ReadsWell front
  | .misplacedCaret pos => ∃ front members, s.take pos = front ++ '[' :: members ∧
      ']' ∉ members ∧ Sequence.ReadsWell front ∧
      Sequence.parse (s.take pos) = .error (.unclosedGroup front.length)

/-- The complaint is that the text has ended too early, in a group or behind a backslash. -/
def ParseError.AtEnd : ParseError → Prop
  | .unclosedGroup _ | .trailingEscape => True
  | _ => False

namespace Parser

/-! ## What a reader has in mind -/

/-- **A reader comes to what it has in mind between two atoms**, and it stays inside a group as
    long as no `]` comes. -/
theorem exists_between_of_mark? {chars : List Placed} {q : Parser} {x : Placed}
    (h : chars.foldlM step {} = .ok q) (hx : q.mode.mark? = some x) :
    ∃ front p behind, chars = front ++ x :: behind ∧ front.foldlM step {} = .ok p ∧
      p.mode = .between ∧ ∀ c ∈ behind, c.char ≠ ']' := by
  induction chars using List.reverseRecOn generalizing q with
  | nil =>
      obtain rfl := Except.ok.inj h
      exact nomatch hx
  | append_singleton chars c ih =>
      obtain ⟨p, hrun, hlast⟩ := foldlM_step_append.mp h
      obtain ⟨q', htakes, hnil⟩ := foldlM_step_cons.mp hlast
      obtain rfl : q' = q := Except.ok.inj hnil
      -- one more character inside the group that the reader is in
      have further (hp : p.mode.mark? = some x) (hc : c.char ≠ ']') :
          ∃ front p behind, chars ++ [c] = front ++ x :: behind ∧
            front.foldlM step {} = .ok p ∧ p.mode = .between ∧ ∀ c ∈ behind, c.char ≠ ']' := by
        obtain ⟨front, p', behind, rfl, hfront, hbetween, hbehind⟩ := ih hrun hp
        refine ⟨front, p', behind ++ [c], ?_, hfront, hbetween, ?_⟩
        · rw [List.append_assoc]
          rfl
        · intro d hd
          rcases List.mem_append.mp hd with hd | hd
          · exact hbehind d hd
          · rw [List.mem_singleton.mp hd]
            exact hc
      cases htakes with
      | backslash hc | bracket hc | dollar hc =>
          obtain rfl := Option.some.inj hx
          exact ⟨chars, _, [], by rw [← hc], hrun, rfl, nofun⟩
      | negation hc =>
          refine further hx ?_
          rw [hc]
          decide
      | first hclose _ | member hclose _ => exact further hx hclose
      | caret _ | quantifier _ | dot _ | literal _ | digit _ | word _ | close _ _ =>
          exact nomatch hx

/-- What has been read up to a point between two atoms reads well. -/
theorem readsWell_of_between {front : List Placed} {p : Parser}
    (h : front.foldlM step {} = .ok p) (hmode : p.mode = .between) :
    Sequence.ReadsWell (text front) := by
  refine ⟨p.atoms.reverse, Sequence.ofPlaced_eq_ok.mp ?_⟩
  rw [Sequence.ofPlaced, h]
  show p.finish = _
  rw [finish, hmode]

/-! ## The two ways to fail -/

variable {s : List Char} {q : Parser} {x : Placed}

/-- In front of what a reader has in mind the text reads well. -/
theorem readsWell_take_of_mark? {front behind : List Placed} (hs : ofText s = front ++ behind)
    (hrun : front.foldlM step {} = .ok q) (hx : q.mode.mark? = some x) :
    Sequence.ReadsWell (s.take x.pos) := by
  obtain ⟨front', p, behind', rfl, hfront, hbetween, -⟩ := exists_between_of_mark? hrun hx
  rw [List.append_assoc] at hs
  rw [Placed.pos_of_ofText_eq hs, Placed.take_of_ofText_eq hs]
  exact readsWell_of_between hfront hbetween

/-- In a group the reader has an open group to complain about, from the bracket on. -/
theorem openGroup_of_inside {front behind : List Placed} {opened : Nat} {negated : Bool}
    {members : List Char} (hs : ofText s = front ++ behind)
    (hrun : front.foldlM step {} = .ok q) (hmode : q.mode = .inside opened negated members) :
    ∃ before inside, s.take front.length = before ++ '[' :: inside ∧ ']' ∉ inside ∧
      Sequence.ReadsWell before ∧
      Sequence.parse (s.take front.length) = .error (.unclosedGroup before.length) := by
  have hmark : q.mode.mark? = some ⟨opened, '['⟩ := by
    rw [hmode]
    rfl
  have hopen : Sequence.ofPlaced front = .error (.unclosedGroup opened) := by
    rw [Sequence.ofPlaced, hrun]
    show q.finish = _
    rw [finish, hmode]
  obtain ⟨before, p, inside, hfront, hbefore, hbetween, hinside⟩ :=
    exists_between_of_mark? hrun hmark
  have hpos : opened = before.length := by
    rw [hfront, List.append_assoc] at hs
    exact Placed.pos_of_ofText_eq hs
  have htake := Placed.take_of_ofText_eq hs
  refine ⟨text before, text inside, ?_, ?_, readsWell_of_between hbefore hbetween, ?_⟩
  · rw [htake, hfront, Placed.text_append]
    rfl
  · intro hmem
    obtain ⟨c, hc, hclose⟩ := List.mem_map.mp hmem
    exact hinside c hc hclose
  · rw [htake, Sequence.parse, ← Placed.eq_ofText_of_append hs, hopen, hpos, text,
      List.length_map]

/-- Where a character is refused, nothing in front of the culprit is. -/
theorem Refuses.leftmost {front behind : List Placed} {c : Placed} {e : ParseError}
    (hs : ofText s = front ++ c :: behind) (hrun : front.foldlM step {} = .ok q)
    (h : q.Refuses c e) : e.Leftmost s := by
  have here (hmode : q.mode = .between) : Sequence.ReadsWell (s.take c.pos) := by
    rw [Placed.pos_of_ofText_eq hs, Placed.take_of_ofText_eq hs]
    exact readsWell_of_between hrun hmode
  cases h with
  | caret _ _ => exact here rfl
  | quantifier _ _ => exact here rfl
  | unknown _ _ => exact readsWell_take_of_mark? (x := ⟨_, '\\'⟩) hs hrun rfl
  | empty _ => exact readsWell_take_of_mark? (x := ⟨_, '['⟩) hs hrun rfl
  | memberless _ => exact readsWell_take_of_mark? (x := ⟨_, '['⟩) hs hrun rfl
  | behind => exact readsWell_take_of_mark? (x := ⟨_, '$'⟩) hs hrun rfl
  | inner _ =>
      show ∃ before inside, s.take c.pos = _ ∧ _ ∧ _ ∧ Sequence.parse (s.take c.pos) = _
      rw [Placed.pos_of_ofText_eq hs]
      exact openGroup_of_inside hs hrun rfl

/-- Where the end is refused, nothing in front of the culprit is, and the complaint is one about
    the end. -/
theorem leftmost_of_finish {e : ParseError} (hrun : (ofText s).foldlM step {} = .ok q)
    (h : q.finish = .error e) : e.Leftmost s ∧ e.AtEnd := by
  have hs : ofText s = ofText s ++ [] := (List.append_nil _).symm
  obtain ⟨atoms, mode⟩ := q
  cases mode with
  | between => exact nomatch h
  | ended dollar => exact nomatch h
  | escape start =>
      obtain rfl := Except.error.inj h
      refine ⟨?_, trivial⟩
      obtain ⟨front, hfront⟩ := exists_concat_of_escape hrun rfl
      have hreads := readsWell_take_of_mark? (x := ⟨start, '\\'⟩) hs hrun rfl
      rw [Placed.pos_of_ofText_eq hfront, Placed.take_of_ofText_eq hfront] at hreads
      refine ⟨text front, ?_, hreads⟩
      rw [← Placed.text_ofText s, hfront, Placed.text_append]
      rfl
  | opening opened =>
      obtain rfl := Except.error.inj h
      exact ⟨readsWell_take_of_mark? (x := ⟨opened, '['⟩) hs hrun rfl, trivial⟩
  | inside opened negated members =>
      obtain rfl := Except.error.inj h
      exact ⟨readsWell_take_of_mark? (x := ⟨opened, '['⟩) hs hrun rfl, trivial⟩

end Parser

namespace Sequence

/-- A reader that has failed does not look at what follows. -/
theorem parse_append_of_refuses {s t : List Char} {e : ParseError}
    (h : (ofText s).foldlM Parser.step {} = .error e) : parse (s ++ t) = .error e := by
  rw [parse, ofPlaced, Placed.ofText_append, List.foldlM_append, h]
  rfl

/-- **The complaint about a text is the leftmost, and it is final.** In front of its culprit the
    text reads well, and in front of a `^` inside a group it has nothing wrong but that the group
    is open. Unless the complaint is that the text has ended too early, every longer text gets
    the same one. -/
theorem parse_leftmost_and_final {s : List Char} {e : ParseError} (h : parse s = .error e) :
    e.Leftmost s ∧
      (¬ e.AtEnd → ∀ t, parse (s ++ t) = .error e) := by
  rcases refuses_or_finish_of_ofPlaced h with ⟨front, c, behind, q, hs, hrun, hrefuses⟩ |
    ⟨q, hrun, hfinish⟩
  · refine ⟨hrefuses.leftmost hs hrun, fun _ t => parse_append_of_refuses ?_⟩
    exact Parser.foldlM_step_eq_error.mpr ⟨front, c, behind, q, hs, hrun, hrefuses⟩
  · obtain ⟨hleftmost, hend⟩ := Parser.leftmost_of_finish hrun hfinish
    exact ⟨hleftmost, fun hnot => absurd hend hnot⟩

/-- In `a[^b^c]+` the second `^` of the group is reported. In front of it the group at 1 is open,
    and nothing that is added behind makes a difference. -/
theorem parse_caretInGroup :
    parse "a[^b^c]+".toList = .error (.misplacedCaret 4) ∧
      (∃ front members, "a[^b".toList = front ++ '[' :: members ∧ ']' ∉ members ∧
        ReadsWell front ∧ parse "a[^b".toList = .error (.unclosedGroup front.length)) ∧
      parse "a[^b^c]+$\\".toList = .error (.misplacedCaret 4) := by
  have hrefused : parse "a[^b^c]+".toList = .error (.misplacedCaret 4) := rfl
  obtain ⟨hleftmost, hfinal⟩ := parse_leftmost_and_final hrefused
  exact ⟨hrefused, hleftmost, hfinal id "$\\".toList⟩

end Sequence

end LineSieve
