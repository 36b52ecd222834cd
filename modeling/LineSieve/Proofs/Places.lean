import LineSieve.Candidate
import LineSieve.Sequence.Parser

/-!
# Places do not matter

Candidates and readers carry the places of characters along and never look at them. Said as a
law: moving every place by a function first and working afterwards is the same as working first
and moving the places of the outcome.

* **`choices_move`**: choosing in the first group.
* **`ofPlaced_move`**: reading a sequence. The atoms are the same, and a complaint is moved. In
  particular a complaint about a candidate is one about its text, with the places put in
  (`ofPlaced_eq_relocate`).

So what a candidate gives way to and what it is read as depends on its text alone, up to places.

In a text as typed the place of a character is the number of characters in front of it
(`Placed.pos_of_ofText_eq`), and the front part of it is a text as typed
(`Placed.eq_ofText_of_append`).
-/

namespace LineSieve

/-- The same character somewhere else. -/
def Placed.move (f : Nat → Nat) (c : Placed) : Placed :=
  ⟨f c.pos, c.char⟩

@[simp] theorem Placed.move_char (f : Nat → Nat) (c : Placed) : (c.move f).char = c.char := rfl

/-- A text all of whose characters are at the same place. -/
def Placed.unplaced (s : List Char) : List Placed :=
  s.map (Placed.mk 0)

/-! ## Texts as typed -/

namespace Placed

/-- In a text as typed every character is at its own place. -/
theorem getElem?_ofText (s : List Char) (i : Nat) : (ofText s)[i]? = s[i]?.map (Placed.mk i) :=
  List.getElem?_mapIdx

variable {s : List Char} {front behind : List Placed} {x : Placed}

/-- The parts of a text as typed spell the parts of the text. -/
theorem eq_append_of_ofText_eq (h : ofText s = front ++ behind) :
    s = text front ++ text behind := by
  rw [← text_append, ← h, text_ofText]

theorem take_of_ofText_eq (h : ofText s = front ++ behind) :
    s.take front.length = text front := by
  have hlength : front.length = (text front).length := (List.length_map _).symm
  rw [eq_append_of_ofText_eq h, hlength]
  exact List.take_left

/-- The place of a character is the number of characters in front. -/
theorem pos_of_ofText_eq (h : ofText s = front ++ x :: behind) : x.pos = front.length := by
  have hx := getElem?_ofText s front.length
  rw [h, List.getElem?_append_right (Nat.le_refl _), Nat.sub_self] at hx
  obtain ⟨c, -, hc⟩ := Option.map_eq_some_iff.mp hx.symm
  exact (congrArg Placed.pos hc).symm

/-- A longer text begins with the same characters at the same places. -/
theorem ofText_append (s t : List Char) :
    ofText (s ++ t) = ofText s ++ t.mapIdx fun i => Placed.mk (i + s.length) :=
  List.mapIdx_append

/-- The front part of a text as typed is the front part of the text, as typed. -/
theorem eq_ofText_of_append (h : ofText s = front ++ behind) : front = ofText (text front) := by
  rw [eq_append_of_ofText_eq h, ofText_append] at h
  have hlength : (ofText (text front)).length = front.length := by
    rw [ofText, List.length_mapIdx, text, List.length_map]
  exact (List.append_inj h hlength).1.symm

end Placed

namespace Candidate

open Placed (text unplaced)

/-- A candidate with all its characters moved. -/
def move (f : Nat → Nat) (c : Candidate) : Candidate :=
  c.map (Placed.move f)

@[simp] theorem move_cons (f : Nat → Nat) (x : Placed) (c : Candidate) :
    move f (x :: c) = x.move f :: move f c := rfl

@[simp] theorem move_append (f : Nat → Nat) (c d : Candidate) :
    move f (c ++ d) = move f c ++ move f d := List.map_append

@[simp] theorem text_move (f : Nat → Nat) (c : Candidate) : text (move f c) = text c := by
  rw [text, move, List.map_map]
  rfl

@[simp] theorem text_unplaced (s : List Char) : text (unplaced s) = s := by
  rw [text, unplaced, List.map_map]
  exact List.map_id s

@[simp] theorem unplaced_cons (c : Char) (s : List Char) :
    unplaced (c :: s) = ⟨0, c⟩ :: unplaced s := rfl

@[simp] theorem unplaced_append (s t : List Char) :
    unplaced (s ++ t) = unplaced s ++ unplaced t := List.map_append

/-- Moved to one place, candidates that spell the same are the same. -/
theorem move_zero (c : Candidate) : move (fun _ => 0) c = unplaced (text c) := by
  rw [unplaced, text, List.map_map]
  rfl

/-! ## Groups and branches -/

/-- A group with all its characters moved. -/
def Group.move (f : Nat → Nat) (g : Group) : Group :=
  ⟨Candidate.move f g.before, Candidate.move f g.inside, Candidate.move f g.behind⟩

theorem untilClose?_move (f : Nat → Nat) (c : Candidate) :
    untilClose? (move f c) =
      (untilClose? c).map fun (inside, behind) => (move f inside, move f behind) := by
  induction c with
  | nil => rfl
  | cons x c ih =>
      rw [move_cons, untilClose?, untilClose?, Placed.move_char, ih]
      by_cases hclose : x.char = ')'
      · rw [if_pos hclose, if_pos hclose]
        rfl
      · rw [if_neg hclose, if_neg hclose]
        by_cases hopen : x.char = '('
        · rw [if_pos hopen, if_pos hopen]
          rfl
        · rw [if_neg hopen, if_neg hopen, Option.map_map, Option.map_map]
          rfl

theorem firstGroup?_move (f : Nat → Nat) (c : Candidate) :
    firstGroup? (move f c) = (firstGroup? c).map (Group.move f) := by
  induction c with
  | nil => rfl
  | cons x c ih =>
      have later : (firstGroup? (move f c)).map
            (fun g : Group => { g with before := x.move f :: g.before }) =
          ((firstGroup? c).map fun g => { g with before := x :: g.before }).map
            (Group.move f) := by
        rw [ih, Option.map_map, Option.map_map]
        rfl
      rw [move_cons, firstGroup?, firstGroup?, Placed.move_char]
      by_cases hopen : x.char = '('
      · rw [if_pos hopen, if_pos hopen, untilClose?_move]
        cases untilClose? c with
        | none => exact later
        | some split => rfl
      · rw [if_neg hopen, if_neg hopen]
        exact later

theorem branches_move (f : Nat → Nat) (c : Candidate) :
    branches (move f c) = (branches c).map (move f) := by
  induction c with
  | nil => rfl
  | cons x c ih =>
      rw [move_cons, branches, branches, Placed.move_char, ih]
      by_cases hbar : x.char = '|'
      · rw [if_pos hbar, if_pos hbar]
        rfl
      · rw [if_neg hbar, if_neg hbar]
        cases branches c <;> rfl

/-- **Choosing in the first group does not look at places.** -/
theorem choices_move (f : Nat → Nat) (c : Candidate) :
    choices (move f c) = (choices c).map (move f) := by
  rw [choices, choices, firstGroup?_move]
  cases firstGroup? c with
  | none => rfl
  | some g =>
      show (branches (move f g.inside)).map _ = _
      rw [branches_move, List.map_map, List.map_map]
      refine List.map_congr_left fun branch _ => ?_
      show move f g.before ++ move f branch ++ move f g.behind =
        move f (g.before ++ branch ++ g.behind)
      rw [move_append, move_append]

end Candidate

/-! ## Reading -/

/-- A complaint about what has been moved. -/
def ParseError.move (f : Nat → Nat) : ParseError → ParseError
  | .emptyGroup pos => .emptyGroup (f pos)
  | .misplacedCaret pos => .misplacedCaret (f pos)
  | .danglingQuantifier quantifier pos => .danglingQuantifier quantifier (f pos)
  | .unknownEscape escaped pos => .unknownEscape escaped (f pos)
  | .trailingEscape => .trailingEscape
  | .unclosedGroup pos => .unclosedGroup (f pos)
  | .misplacedAnchor anchor pos => .misplacedAnchor anchor (f pos)

namespace Parser

/-- The same reader, in the middle of something elsewhere. -/
def Mode.move (f : Nat → Nat) : Mode → Mode
  | .between => .between
  | .escape start => .escape (f start)
  | .opening opened => .opening (f opened)
  | .inside opened negated members => .inside (f opened) negated members
  | .ended dollar => .ended (f dollar)

/-- The same reader, in the middle of something elsewhere. -/
def move (f : Nat → Nat) (p : Parser) : Parser :=
  ⟨p.atoms, p.mode.move f⟩

theorem quantify_move (f : Nat → Nat) (p : Parser) (times : Repetition) (c : Placed) :
    (p.move f).quantify times (c.move f) =
      ((p.quantify times c).map (move f)).mapError (ParseError.move f) := by
  obtain ⟨atoms, mode⟩ := p
  cases atoms with
  | nil => rfl
  | cons atom atoms => cases atom <;> rfl

theorem stepBetween_move (f : Nat → Nat) (atoms : List Atom) (c : Placed) :
    stepBetween ⟨atoms, .between⟩ (c.move f) =
      ((stepBetween ⟨atoms, .between⟩ c).map (move f)).mapError (ParseError.move f) := by
  unfold stepBetween
  rw [Placed.move_char]
  split
  · rfl
  · rfl
  · by_cases h : atoms.isEmpty = true
    · rw [if_pos h, if_pos h]
      rfl
    · rw [if_neg h, if_neg h]
      rfl
  · rfl
  · exact quantify_move f ⟨atoms, .between⟩ .oneOrMore c
  · exact quantify_move f ⟨atoms, .between⟩ .optional c
  · rfl
  · rfl

theorem step_move (f : Nat → Nat) (p : Parser) (c : Placed) :
    (p.move f).step (c.move f) = ((p.step c).map (move f)).mapError (ParseError.move f) := by
  obtain ⟨atoms, mode⟩ := p
  cases mode with
  | between => exact stepBetween_move f atoms c
  | escape start =>
      show step ⟨atoms, .escape (f start)⟩ _ = _
      unfold step
      rw [Placed.move_char]
      dsimp only
      split <;> rfl
  | opening opened =>
      show step ⟨atoms, .opening (f opened)⟩ _ = _
      unfold step
      rw [Placed.move_char]
      dsimp only
      split <;> rfl
  | inside opened negated members =>
      show step ⟨atoms, .inside (f opened) negated members⟩ _ = _
      unfold step
      rw [Placed.move_char]
      dsimp only
      split
      · split <;> rfl
      · rfl
      · rfl
  | ended dollar => rfl

theorem finish_move (f : Nat → Nat) (p : Parser) :
    (p.move f).finish = p.finish.mapError (ParseError.move f) := by
  obtain ⟨atoms, mode⟩ := p
  cases mode <;> rfl

theorem foldlM_step_move (f : Nat → Nat) (chars : List Placed) (p : Parser) :
    (chars.map (Placed.move f)).foldlM step (p.move f) =
      ((chars.foldlM step p).map (move f)).mapError (ParseError.move f) := by
  induction chars generalizing p with
  | nil => rfl
  | cons c chars ih =>
      rw [List.map_cons, List.foldlM_cons, List.foldlM_cons, step_move]
      cases p.step c with
      | error e => rfl
      | ok q => exact ih q

end Parser

/-- **Reading does not look at places**: the atoms stay the same, and a complaint is moved. -/
theorem Sequence.ofPlaced_move (f : Nat → Nat) (chars : List Placed) :
    ofPlaced (chars.map (Placed.move f)) =
      (ofPlaced chars).mapError (ParseError.move f) := by
  have run := Parser.foldlM_step_move f chars {}
  unfold ofPlaced
  rw [show (chars.map (Placed.move f)).foldlM Parser.step {} = _ from run]
  cases chars.foldlM Parser.step {} with
  | error e => rfl
  | ok p => exact Parser.finish_move f p

/-- Placed characters are the characters of their text, moved to their places. -/
theorem Placed.map_move_ofText (chars : List Placed) :
    (ofText (text chars)).map (Placed.move fun i => (chars.map Placed.pos).getD i i) = chars := by
  refine List.ext_getElem ?_ fun i hi hi' => ?_
  · simp [ofText, text]
  · simp [ofText, text, Placed.move, hi']

/-- The complaint with other places: `origins` lists, for each character of what was read, where
    it comes from. -/
def ParseError.relocate (origins : List Nat) : ParseError → ParseError :=
  ParseError.move fun i => origins.getD i i

/-- **Placed characters are read as their text is**, and a complaint about the text is told with
    their places. -/
theorem Sequence.ofPlaced_eq_relocate (chars : List Placed) :
    ofPlaced chars =
      (parse (Placed.text chars)).mapError (ParseError.relocate (chars.map Placed.pos)) := by
  conv => lhs; rw [← Placed.map_move_ofText chars]
  exact ofPlaced_move _ _

/-- What placed characters are read as depends on their text alone. -/
theorem Sequence.ofPlaced_eq_ok {chars : List Placed} {atoms : Sequence} :
    ofPlaced chars = .ok atoms ↔ parse (Placed.text chars) = .ok atoms := by
  rw [ofPlaced_eq_relocate]
  cases parse (Placed.text chars) with
  | error e => exact ⟨(nomatch ·), (nomatch ·)⟩
  | ok read => exact Iff.rfl

/-- What is wrong with placed characters is what is wrong with their text. -/
theorem Sequence.ofPlaced_eq_error {chars : List Placed} {e : ParseError} :
    ofPlaced chars = .error e ↔
      ∃ fault, parse (Placed.text chars) = .error fault ∧
        fault.relocate (chars.map Placed.pos) = e := by
  rw [ofPlaced_eq_relocate]
  cases parse (Placed.text chars) with
  | error fault =>
      constructor
      · intro h
        exact ⟨fault, rfl, Except.error.inj h⟩
      · rintro ⟨_, hfault, rfl⟩
        obtain rfl := Except.error.inj hfault
        rfl
  | ok read =>
      constructor
      · intro h
        exact nomatch h
      · rintro ⟨_, hfault, -⟩
        exact nomatch hfault

end LineSieve
