import LineSieve.Proofs.Text.Lines
import LineSieve.Selection

/-!
# Selecting is filtering

A selection reads its input line by line and has to mind what it found, where the input ends, and
that it may stop. What comes of it is told without any of these: the lines of the input are
filtered, and what is left is written or counted.

* **`gather_eq`**: the lines that a selection gathers are those of the input that it selects, in
  order; a quiet one has only the first of them.
* **`ofInput_eq_filter`**: the selection of an input in every mode.
* **`lines_written`**: the lines that are written are the lines that are selected. From here on
  nothing is said about reading and writing, only about filters.
* **`written_laws`**: what two or three selections have to do with each other.
-/

namespace LineSieve

open Text (lines newline)

namespace Selection

variable {p : Pattern} {mode : Mode} {input line rest : List UInt8}

/-! ## Reading line by line -/

theorem gather_of_none (h : Text.nextLine? input = none) (found : List (List UInt8)) :
    gather p mode input found = found.reverse := by
  rw [gather]
  split
  next => rfl
  next hsome => exact absurd (hsome.symm.trans h) (Option.some_ne_none _)

theorem gather_of_some (h : Text.nextLine? input = some (line, rest)) (found : List (List UInt8)) :
    gather p mode input found =
      if mode.selects p line then
        if mode.quiet then (line :: found).reverse else gather p mode rest (line :: found)
      else gather p mode rest found := by
  rw [gather]
  split
  next hnone => exact absurd (h.symm.trans hnone) (Option.some_ne_none _)
  next hsome =>
    obtain ⟨rfl, rfl⟩ := Prod.mk.inj (Option.some.inj (hsome.symm.trans h))
    rfl

variable (p mode)

/-- The lines of an input that are selected. -/
def chosen (input : List UInt8) : List (List UInt8) :=
  (lines newline input).filter (mode.selects p)

@[simp] theorem chosen_nil : chosen p mode [] = [] := by
  rw [chosen, Text.lines_nil, List.filter_nil]

variable {p mode}

/-- **A selection gathers the lines that are selected**, or the first of them when it is quiet,
    behind those found before. -/
theorem gather_eq (input : List UInt8) (found : List (List UInt8)) :
    gather p mode input found =
      found.reverse ++
        if mode.quiet then (chosen p mode input).take 1 else chosen p mode input := by
  induction input, found using gather.induct p mode with
  | case1 input found hnone =>
      rw [gather_of_none hnone, Text.eq_nil_of_nextLine? hnone, chosen_nil, List.take_nil, ite_self,
        List.append_nil]
  | case2 input found line rest hline hselected hquiet =>
      rw [gather_of_some hline, if_pos hselected, if_pos hquiet, if_pos hquiet, chosen,
        Text.lines_eq_cons_of_nextLine? hline, List.filter_cons_of_pos hselected,
        List.take_succ_cons, List.take_zero, List.reverse_cons]
  | case3 input found line rest hline hselected hloud ih =>
      rw [gather_of_some hline, if_pos hselected, if_neg hloud, ih, if_neg hloud, if_neg hloud,
        chosen, chosen, Text.lines_eq_cons_of_nextLine? hline, List.filter_cons_of_pos hselected,
        List.reverse_cons, List.append_assoc, List.singleton_append]
  | case4 input found line rest hline hselected ih =>
      rw [gather_of_some hline, if_neg hselected, ih, chosen, chosen,
        Text.lines_eq_cons_of_nextLine? hline, List.filter_cons_of_neg hselected]

/-- What is written of the lines does not decide which are selected. -/
theorem gather_congr {mode' : Mode} (hinvert : mode.invert = mode'.invert)
    (hquiet : mode.quiet = mode'.quiet) (input : List UInt8) (found : List (List UInt8)) :
    gather p mode input found = gather p mode' input found := by
  have hselects : mode.selects p = mode'.selects p := by
    funext line
    rw [Mode.selects, Mode.selects, hinvert]
  rw [gather_eq, gather_eq, chosen, chosen, hselects, hquiet]

/-! ## One selection -/

/-- **The selection of an input, from its lines.** Those are selected that match, or those that do
    not. A quiet selection writes nothing and counts to one. Any other writes the lines, as they
    are, or how many there are, each time with the name of the input and a colon in front if it has
    a name. -/
theorem ofInput_eq_filter (p : Pattern) (mode : Mode) (label : Option String)
    (input : List UInt8) :
    let selected := (lines newline input).filter fun line => p.isMatchOctets line != mode.invert
    let front := match label with
      | none => []
      | some name => Text.Utf8.encode (name ++ ":").toList
    ofInput p mode label input =
      if mode.quiet then { selected := min 1 selected.length, output := [] }
      else
        { selected := selected.length
          output :=
            if mode.count then
              front ++ Text.Utf8.encode (toString selected.length).toList ++ [newline]
            else selected.flatMap fun line => front ++ line ++ [newline] } := by
  intro selected front
  have hfront : heading label = front := by
    cases label with
    | none => rfl
    | some name =>
        show _ = Text.Utf8.encode (name ++ ":").toList
        rw [String.toList_append]
        rfl
  have hnumber : Nat.toDigits 10 selected.length = (toString selected.length).toList :=
    String.toList_ofList.symm
  have hgather : gather p mode input [] = if mode.quiet then selected.take 1 else selected :=
    gather_eq input []
  rw [ofInput, hgather]
  by_cases hquiet : mode.quiet = true
  · rw [if_pos hquiet, if_pos hquiet, write, if_pos hquiet, List.length_take]
  · rw [if_neg hquiet, if_neg hquiet, write, if_neg hquiet, hfront, hnumber]

/-! ## What is written is an input again -/

/-- What is written of the lines of an input that match or, inverted, do not. -/
def written (p : Pattern) (invert : Bool) (input : List UInt8) : List UInt8 :=
  (ofInput p { invert } none input).output

section

variable (p : Pattern) (invert : Bool)

theorem selected_ofInput (input : List UInt8) :
    (ofInput p { invert } none input).selected = (chosen p { invert } input).length :=
  congrArg List.length (gather_eq input [])

theorem written_eq_flatMap (input : List UInt8) :
    written p invert input = (chosen p { invert } input).flatMap (· ++ [newline]) :=
  congrArg (fun ls => List.flatMap (· ++ [newline]) ls) (gather_eq input [])

/-- **The lines written are the lines selected.** -/
theorem lines_written (input : List UInt8) :
    lines newline (written p invert input) = chosen p { invert } input := by
  rw [written_eq_flatMap, Text.lines_flatMap]
  intro line hline
  exact Text.notMem_of_mem_lines (List.mem_of_mem_filter hline)

/-- Among the lines that match all match, and none does not. -/
theorem chosen_written (again : Bool) (input : List UInt8) :
    chosen p { invert := again } (written p invert input) =
      if again = invert then chosen p { invert } input else [] := by
  rw [chosen, lines_written]
  have hmatch {line : List UInt8} (hline : line ∈ chosen p { invert } input) :
      p.isMatchOctets line = !invert := by
    have hselected : Mode.selects { invert } p line = true := (List.mem_filter.mp hline).2
    exact Bool.eq_not.mpr (bne_iff_ne.mp hselected)
  split
  next heq =>
    rw [List.filter_eq_self]
    intro line hline
    rw [Mode.selects, hmatch hline, heq]
    cases invert <;> rfl
  next hne =>
    obtain rfl := Bool.eq_not.mpr hne
    rw [List.filter_eq_nil_iff]
    intro line hline
    rw [Mode.selects, hmatch hline, bne_self_eq_false]
    exact Bool.false_ne_true

/-- **What was written is selected again**, all of it or nothing. -/
theorem written_written (again : Bool) (input : List UInt8) :
    written p again (written p invert input) =
      if again = invert then written p invert input else [] := by
  rw [written_eq_flatMap, chosen_written, written_eq_flatMap]
  split <;> rfl

/-- Inputs one behind the other are selected from one by one, if the first ends with a line. -/
theorem written_append {front : List UInt8} (h : front = [] ∨ front.getLast? = some newline)
    (behind : List UInt8) :
    written p invert (front ++ behind) = written p invert front ++ written p invert behind := by
  simp only [written_eq_flatMap, chosen, Text.lines_append h, List.filter_append,
    List.flatMap_append]

end

end Selection

/-! ## Several selections -/

/-- A list is merged from two others: each of its members comes from one of them, and all of
    theirs come in their order. -/
inductive Merges {α : Type} : List α → List α → List α → Prop where
  | nil : Merges [] [] []
  | left {x : α} {xs ys zs : List α} (h : Merges xs ys zs) : Merges (x :: xs) ys (x :: zs)
  | right {y : α} {xs ys zs : List α} (h : Merges xs ys zs) : Merges xs (y :: ys) (y :: zs)

theorem merges_filter {α : Type} {f g : α → Bool} (h : ∀ x, g x = !f x) (xs : List α) :
    Merges (xs.filter f) (xs.filter g) xs := by
  induction xs with
  | nil => exact .nil
  | cons x xs ih =>
      cases hx : f x with
      | true =>
          rw [List.filter_cons_of_pos hx, List.filter_cons_of_neg (by simp [h, hx])]
          exact ih.left
      | false =>
          rw [List.filter_cons_of_neg (by simp [hx]), List.filter_cons_of_pos (by simp [h, hx])]
          exact ih.right

theorem Merges.length_eq {α : Type} {xs ys zs : List α} (h : Merges xs ys zs) :
    xs.length + ys.length = zs.length := by
  induction h with
  | nil => rfl
  | left _ ih =>
      rw [List.length_cons, List.length_cons, Nat.add_right_comm, ih]
  | right _ ih => rw [List.length_cons, List.length_cons, ← Nat.add_assoc, ih]

namespace Selection

/-- Whether a line is selected the other way round. -/
theorem selects_invert (p : Pattern) (line : List UInt8) :
    Mode.selects { invert := true } p line = !Mode.selects {} p line := by
  rw [Mode.selects, Mode.selects]
  cases p.isMatchOctets line <;> rfl

/-- **The laws of selecting.** The lines that match and those that do not are together the lines of
    the input, each of them on one side only. What was selected once is selected again, and the
    other selection finds nothing in it. Inputs one behind the other are selected from one by one,
    unless the first ends in the middle of a line. -/
theorem written_laws (p : Pattern) :
    let keep input := (ofInput p {} none input).output
    let drop input := (ofInput p { invert := true } none input).output
    (∀ input,
      (ofInput p {} none input).selected + (ofInput p { invert := true } none input).selected =
        (lines newline input).length ∧
      Merges (lines newline (keep input)) (lines newline (drop input)) (lines newline input) ∧
      (lines newline (keep input)).Disjoint (lines newline (drop input))) ∧
    (∀ input, keep (keep input) = keep input ∧ keep (drop input) = [] ∧
      drop (drop input) = drop input ∧ drop (keep input) = []) ∧
    ∀ front behind, front = [] ∨ front.getLast? = some newline →
      keep (front ++ behind) = keep front ++ keep behind ∧
      drop (front ++ behind) = drop front ++ drop behind := by
  intro keep drop
  have hkeep (input : List UInt8) : lines newline (keep input) = chosen p {} input :=
    lines_written p false input
  have hdrop (input : List UInt8) :
      lines newline (drop input) = chosen p { invert := true } input :=
    lines_written p true input
  have hmerges (input : List UInt8) :
      Merges (chosen p {} input) (chosen p { invert := true } input) (lines newline input) :=
    merges_filter (selects_invert p) _
  refine ⟨?_, ?_, ?_⟩
  · intro input
    refine ⟨?_, ?_, ?_⟩
    · rw [selected_ofInput, selected_ofInput, (hmerges input).length_eq]
    · rw [hkeep, hdrop]
      exact hmerges input
    · rw [hkeep, hdrop]
      intro line hmatch hnot
      have hselects := List.of_mem_filter hnot
      rw [selects_invert, List.of_mem_filter hmatch] at hselects
      exact Bool.noConfusion hselects
  · intro input
    refine ⟨?_, ?_, ?_, ?_⟩
    · exact written_written p false false input
    · exact written_written p true false input
    · exact written_written p true true input
    · exact written_written p false true input
  · intro front behind h
    constructor
    · exact written_append p false h behind
    · exact written_append p true h behind

/-- Looks for an `a`. -/
def forA : Pattern := ⟨['a'], [[.one (.literal 'a')]]⟩

/-- Two lines, the second one empty. -/
def wholeLines : List UInt8 := Text.Utf8.encode "a\n\n".toList

/-- A line that is no text, and one without an end. -/
def oddLines : List UInt8 := [0xFF, 97, newline, 98]

/-- Behind the two lines the odd ones are selected from by themselves. The octet that is no text is
    written as it was, and the last line gets its end. -/
theorem written_oddLines :
    Pattern.compile ['a'] = .ok forA ∧ wholeLines.getLast? = some newline ∧
    (ofInput forA {} none (wholeLines ++ oddLines)).output = [97, newline, 0xFF, 97, newline] ∧
    (ofInput forA { invert := true } none (wholeLines ++ oddLines)).output =
      [newline, 98, newline] := by
  have hend : wholeLines.getLast? = some newline := by decide
  obtain ⟨hkeep, hdrop⟩ := (written_laws forA).2.2 wholeLines oddLines (Or.inr hend)
  refine ⟨by cbv, hend, hkeep.trans ?_, hdrop.trans ?_⟩
  · decide +kernel
  · decide +kernel

end Selection

end LineSieve
