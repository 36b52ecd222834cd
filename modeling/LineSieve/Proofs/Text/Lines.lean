import LineSieve.Text.Octets
import Mathlib.Data.List.Basic
import Mathlib.Data.List.TakeWhile

/-!
# The lines of a text

A text can be taken apart into its lines at once: they are what stands between the line ends, and
the nothing behind a line end that comes last is no line. Reading line by line gives the same lines.

* **`lines`**: the lines of a text, of octets or of characters, by what ends a line.
* **`linesInduction`**: each text is empty, or a line that the text ends with, or a line with its
  end and a further text behind it. Whatever is proved of lines is proved along these three.
* **`lines_eq_cons_of_nextLine?`**: reading a line takes the first one.
* **`lines_append`** and **`lines_flatMap`**: lines that are put together are found again.
-/

namespace LineSieve.Text

variable {α : Type} [DecidableEq α] {stop : α} {text line : List α}

/-- The pieces of a text between its line ends. The piece behind the last line end counts only if
    there is anything in it. -/
def lines (stop : α) (text : List α) : List (List α) :=
  let pieces := text.splitOn stop
  if pieces.getLast? = some [] then pieces.dropLast else pieces

@[simp] theorem lines_nil : lines stop [] = [] := by
  simp [lines]

/-- A line need not have an end if the text ends with it. -/
theorem lines_of_notMem (h : stop ∉ line) (hne : line ≠ []) : lines stop line = [line] := by
  rw [lines, List.splitOn_eq_singleton h, List.getLast?_singleton, if_neg]
  exact fun heq => hne (Option.some.inj heq)

/-- **What stands before the first line end is the first line.** -/
theorem lines_append_cons (h : stop ∉ line) (rest : List α) :
    lines stop (line ++ stop :: rest) = line :: lines stop rest := by
  have hne := List.splitOn_ne_nil stop rest
  rw [lines, lines, List.splitOn_append_cons_self_of_not_mem h,
    show (line :: rest.splitOn stop).getLast? = (rest.splitOn stop).getLast? from
      List.getLast?_cons_of_ne_nil hne,
    List.dropLast_cons_of_ne_nil hne]
  split <;> rfl

/-- A text is empty, or a line without an end, or a line with its end and more behind it. -/
@[elab_as_elim]
theorem linesInduction (stop : α) {motive : List α → Prop} (nil : motive [])
    (last : ∀ line, line ≠ [] → stop ∉ line → motive line)
    (cons : ∀ line rest, stop ∉ line → motive rest → motive (line ++ stop :: rest))
    (text : List α) : motive text := by
  by_cases hmem : stop ∈ text
  · obtain ⟨line, rest, rfl, hline⟩ := List.eq_append_cons_of_mem hmem
    exact cons line rest hline (linesInduction stop nil last cons rest)
  · by_cases hnil : text = []
    · exact hnil ▸ nil
    · exact last text hnil hmem
termination_by text.length
decreasing_by
  subst text
  rw [List.length_append, List.length_cons]
  omega

/-- No line has a line end in it. -/
theorem notMem_of_mem_lines (h : line ∈ lines stop text) : stop ∉ line := by
  induction text using linesInduction stop with
  | nil => exact absurd h (by simp)
  | last whole hne hstop =>
      rw [lines_of_notMem hstop hne] at h
      exact List.mem_singleton.mp h ▸ hstop
  | cons first rest hfirst ih =>
      rw [lines_append_cons hfirst] at h
      rcases List.mem_cons.mp h with rfl | h
      · exact hfirst
      · exact ih h

/-- **Behind a whole line, new lines begin.** -/
theorem lines_append {front : List α} (h : front = [] ∨ front.getLast? = some stop)
    (behind : List α) : lines stop (front ++ behind) = lines stop front ++ lines stop behind := by
  induction front using linesInduction stop with
  | nil => rw [lines_nil, List.nil_append, List.nil_append]
  | last line hne hstop =>
      rcases h with h | h
      · exact absurd h hne
      · exact absurd (List.mem_of_getLast? h) hstop
  | cons line rest hline ih =>
      have hrest : rest = [] ∨ rest.getLast? = some stop := by
        refine or_iff_not_imp_left.mpr fun hne => ?_
        rcases h with h | h
        · exact absurd h (List.append_ne_nil_of_right_ne_nil line (List.cons_ne_nil _ _))
        · rwa [List.getLast?_append_of_ne_nil _ (List.cons_ne_nil _ _),
            List.getLast?_cons_of_ne_nil hne] at h
      rw [List.append_assoc, List.cons_append, lines_append_cons hline, lines_append_cons hline,
        ih hrest, List.cons_append]

/-- **Lines that are written with their ends are read again.** -/
theorem lines_flatMap {ls : List (List α)} (h : ∀ line ∈ ls, stop ∉ line) :
    lines stop (ls.flatMap (· ++ [stop])) = ls := by
  induction ls with
  | nil => exact lines_nil
  | cons line ls ih =>
      obtain ⟨hline, hls⟩ := List.forall_mem_cons.mp h
      rw [List.flatMap_cons, List.append_assoc, List.singleton_append, lines_append_cons hline,
        ih hls]

/-! ## Reading line by line -/

/-- **Reading a line takes the first one** and leaves the others. -/
theorem lines_eq_cons_of_nextLine? {input line rest : List UInt8}
    (h : nextLine? input = some (line, rest)) :
    lines newline input = line :: lines newline rest := by
  have hother {front : List UInt8} (hfront : newline ∉ front) :
      ∀ b ∈ front, (b != newline) = true :=
    fun b hb => bne_iff_ne.mpr fun heq => hfront (heq ▸ hb)
  induction input using linesInduction newline with
  | nil => exact nomatch h
  | last whole hne hstop =>
      obtain ⟨b, bs, rfl⟩ := List.exists_cons_of_ne_nil hne
      rw [nextLine?_cons, List.takeWhile_eq_self_iff.mpr (hother hstop),
        List.dropWhile_eq_nil_iff.mpr (hother hstop)] at h
      obtain ⟨rfl, rfl⟩ := Prod.mk.inj (Option.some.inj h)
      rw [lines_of_notMem hstop hne, List.drop_nil, lines_nil]
  | cons first behind hfirst _ =>
      have hread : nextLine? (first ++ newline :: behind) = some (first, behind) := by
        obtain ⟨b, bs, hcons⟩ := List.exists_cons_of_ne_nil
          (List.append_ne_nil_of_right_ne_nil first (List.cons_ne_nil newline behind))
        rw [hcons, nextLine?_cons, ← hcons, List.takeWhile_append_of_pos (hother hfirst),
          List.dropWhile_append_of_pos (hother hfirst)]
        simp
      obtain ⟨rfl, rfl⟩ := Prod.mk.inj (Option.some.inj (hread.symm.trans h))
      exact lines_append_cons hfirst behind

theorem eq_nil_of_nextLine? {input : List UInt8} (h : nextLine? input = none) : input = [] := by
  cases input with
  | nil => rfl
  | cons b bs => exact nomatch h

end LineSieve.Text
