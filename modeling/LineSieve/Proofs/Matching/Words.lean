import LineSieve.Proofs.Alternatives.Brackets
import LineSieve.Proofs.Matching.Meaning
import LineSieve.Proofs.Text.Encoding
import Mathlib.Data.List.Infix

/-!
# Words

A pattern that is a word asks for the word. It may be any text in which no character is special and
no `)` stands behind a `(`: a `]`, a bar and parentheses that do not pair up are looked for like
letters. With `^` in front the word has to be where the line begins, with `$` behind it where the
line ends.

* **`holdsAt_ofWord`**: the atoms of a word hold where the text goes on with it.
* **`occursIn_ofWord`**: so they occur in a text if the word does, with nothing in front or nothing
  behind where an anchor asks for that.
* **`compile_ofWord`**: a word is compiled to its atoms, whatever anchors it has.
* **`matchLine_word`**: a word means a part of the line, its beginning, its end, or all of it.
-/

namespace LineSieve

namespace Sequence

/-- The atoms that ask for the characters of a word, between the anchors that are wanted. -/
def ofWord (starts ends : Bool) (word : List Char) : Sequence :=
  (if starts then [.lineStart] else []) ++ word.map (fun c => .one (.literal c)) ++
    if ends then [.lineEnd] else []

theorem render_ofWord (starts ends : Bool) (word : List Char) :
    (ofWord starts ends word).render =
      (if starts then ['^'] else []) ++ word ++ if ends then ['$'] else [] := by
  have hword : (word.map fun c => Atom.one (.literal c)).flatMap Atom.render = word := by
    rw [List.flatMap_map]
    exact List.flatMap_singleton' word
  rw [render, ofWord, List.flatMap_append, List.flatMap_append, hword]
  cases starts <;> cases ends <;> rfl

/-! ## Where a word is found -/

/-- A text goes on with a word if it goes on with the first character and then with the others. -/
theorem cons_prefix_drop_iff {text word : List Char} {c : Char} {i : Nat} :
    c :: word <+: text.drop i ↔
      (CharClass.literal c).AcceptsAt text i ∧ word <+: text.drop (i + 1) := by
  by_cases hlt : i < text.length
  · have haccepts : (CharClass.literal c).AcceptsAt text i ↔ c = text[i] :=
      ⟨fun ⟨_, h⟩ => beq_iff_eq.mp h, fun h => ⟨hlt, beq_iff_eq.mpr h⟩⟩
    rw [List.drop_eq_getElem_cons hlt, List.cons_prefix_cons, haccepts]
  · rw [List.drop_eq_nil_of_le (Nat.le_of_not_lt hlt)]
    exact iff_of_false (fun h => nomatch List.prefix_nil.mp h) fun h => hlt h.1.1

/-- The characters of a word are taken one by one, and what follows comes behind the word. -/
theorem holdsAt_word (text : List Char) (i : Nat) (word : List Char) (rest : Sequence) :
    HoldsAt text i (word.map (fun c => .one (.literal c)) ++ rest) ↔
      word <+: text.drop i ∧ HoldsAt text (i + word.length) rest := by
  induction word generalizing i with
  | nil => exact (and_iff_right List.nil_prefix).symm
  | cons c word ih =>
      rw [List.map_cons, List.cons_append, HoldsAt, ih, cons_prefix_drop_iff, and_assoc,
        List.length_cons, Nat.add_assoc, Nat.add_comm 1]

variable (starts ends : Bool) (word text : List Char)

/-- **The atoms of a word hold where the text goes on with it**, at the position that its anchors
    ask for. -/
theorem holdsAt_ofWord (i : Nat) :
    HoldsAt text i (ofWord starts ends word) ↔
      (starts = true → i = 0) ∧ word <+: text.drop i ∧
        (ends = true → i + word.length = text.length) := by
  have hend (j : Nat) : HoldsAt text j (if ends then [.lineEnd] else []) ↔
      (ends = true → j = text.length) := by
    cases ends with
    | false => exact iff_of_true trivial nofun
    | true => exact ⟨fun h _ => h.1, fun h => ⟨h rfl, trivial⟩⟩
  rw [← hend, ← holdsAt_word, ofWord, List.append_assoc]
  cases starts with
  | false => exact (and_iff_right nofun).symm
  | true => exact and_congr_left fun _ => ⟨fun h _ => h, fun h => h rfl⟩

/-- **The atoms of a word occur in a text if the word does**, with nothing in front of it, or
    nothing behind it, where an anchor asks for that. -/
theorem occursIn_ofWord :
    occursIn text (ofWord starts ends word) = true ↔
      ∃ front behind, front ++ word ++ behind = text ∧
        (starts = true → front = []) ∧ (ends = true → behind = []) := by
  simp only [occursIn_iff_holdsAt, holdsAt_ofWord]
  constructor
  · rintro ⟨i, hi, hstart, ⟨behind, hbehind⟩, hend⟩
    refine ⟨text.take i, behind, ?_, fun h => ?_, fun h => ?_⟩
    · rw [List.append_assoc, hbehind, List.take_append_drop]
    · rw [hstart h, List.take_zero]
    · have hlength := congrArg List.length hbehind
      rw [List.length_append, List.length_drop, ← hend h] at hlength
      exact List.length_eq_zero_iff.mp (by omega)
  · rintro ⟨front, behind, rfl, hstart, hend⟩
    refine ⟨front.length, ?_, fun h => ?_, ⟨behind, ?_⟩, fun h => ?_⟩
    · rw [List.append_assoc, List.length_append]
      exact Nat.le_add_right _ _
    · rw [hstart h, List.length_nil]
    · rw [List.append_assoc, List.drop_left]
    · rw [hend h, List.append_nil, List.length_append]

/-! The four ways to anchor a word. -/

variable {word text}

theorem occursIn_ofWord_iff_isInfix :
    occursIn text (ofWord false false word) = true ↔ word <:+: text := by
  rw [occursIn_ofWord]
  constructor
  · rintro ⟨front, behind, h, -⟩
    exact ⟨front, behind, h⟩
  · rintro ⟨front, behind, h⟩
    exact ⟨front, behind, h, nofun, nofun⟩

theorem occursIn_ofWord_iff_isPrefix :
    occursIn text (ofWord true false word) = true ↔ word <+: text := by
  rw [occursIn_ofWord]
  constructor
  · rintro ⟨front, behind, h, hstart, -⟩
    obtain rfl := hstart rfl
    exact ⟨behind, h⟩
  · rintro ⟨behind, h⟩
    exact ⟨[], behind, h, fun _ => rfl, nofun⟩

theorem occursIn_ofWord_iff_isSuffix :
    occursIn text (ofWord false true word) = true ↔ word <:+ text := by
  rw [occursIn_ofWord]
  constructor
  · rintro ⟨front, behind, h, -, hend⟩
    obtain rfl := hend rfl
    exact ⟨front, (List.append_nil _).symm.trans h⟩
  · rintro ⟨front, h⟩
    exact ⟨front, [], (List.append_nil _).trans h, nofun, fun _ => rfl⟩

theorem occursIn_ofWord_iff_eq :
    occursIn text (ofWord true true word) = true ↔ text = word := by
  rw [occursIn_ofWord]
  constructor
  · rintro ⟨front, behind, rfl, hstart, hend⟩
    rw [hstart rfl, hend rfl, List.nil_append, List.append_nil]
  · rintro rfl
    exact ⟨[], [], List.append_nil _, fun _ => rfl, fun _ => rfl⟩

end Sequence

/-! ## What a word is compiled to -/

section

variable {word : List Char} (hordinary : ∀ c ∈ word, c ∉ Parser.special)
include hordinary

/-- A word without special characters reads well, whatever anchors it has. -/
theorem Sequence.wellFormed_ofWord (starts ends : Bool) :
    (ofWord starts ends word).WellFormed := by
  have hend (word : List Char) :
      .lineEnd ∉ (if starts then [.lineStart] else []) ++
        word.map fun c => Atom.one (.literal c) := by
    cases starts <;> simp
  have hfront : WellFormed ((if starts then [.lineStart] else []) ++
      word.map fun c => Atom.one (.literal c)) := by
    induction word using List.reverseRecOn with
    | nil =>
        cases starts with
        | false => exact wellFormed_nil
        | true =>
            show WellFormed ([] ++ [.lineStart])
            exact wellFormed_concat.mpr ⟨wellFormed_nil, List.not_mem_nil, fun _ => rfl, nofun⟩
    | append_singleton word c ih =>
        obtain ⟨hword, hc⟩ := List.forall_mem_append.mp hordinary
        rw [List.map_append, ← List.append_assoc]
        refine wellFormed_concat.mpr ⟨ih hword, hend word, nofun, ?_⟩
        rintro _ _ ⟨⟩
        exact hc c (List.mem_singleton_self c)
  cases ends with
  | false =>
      rw [ofWord, if_neg Bool.false_ne_true, List.append_nil]
      exact hfront
  | true => exact wellFormed_concat.mpr ⟨hfront, hend word, nofun, nofun⟩

namespace Pattern

open Sequence (ofWord)

variable (hunpaired : ¬ ['(', ')'].Sublist word) (starts ends : Bool)
include hunpaired

/-- **A word is compiled to its atoms**, whatever anchors it has. -/
theorem compile_ofWord (hne : ofWord starts ends word ≠ []) :
    compile (ofWord starts ends word).render =
      .ok ⟨(ofWord starts ends word).render, [ofWord starts ends word]⟩ := by
  have hread := Sequence.parse_of_spelledBy (Sequence.wellFormed_ofWord hordinary starts ends)
    (Sequence.spelledBy_render _)
  refine compile_of_not_sublist hread hne fun hpair => hunpaired ?_
  -- anchors are no parentheses, so a pair is one of the word
  have hparens := hpair.filter fun c => c = '(' ∨ c = ')'
  rw [Sequence.render_ofWord, List.filter_append, List.filter_append] at hparens
  have hword : ['(', ')'].Sublist (word.filter fun c => c = '(' ∨ c = ')') := by
    cases starts <;> cases ends <;> simpa using hparens
  exact hword.trans List.filter_sublist

/-- What looking for a word with its anchors finds out, from what its atoms mean. -/
theorem matchLine_of_occursIn_iff {pattern : List Char}
    (hpattern : (ofWord starts ends word).render = pattern) (hne : pattern ≠ [])
    {text : List Char} {P : Prop} [Decidable P]
    (h : Sequence.occursIn text (ofWord starts ends word) = true ↔ P) :
    matchLine (Text.Utf8.encode text) pattern = .ok (decide P) := by
  subst hpattern
  have hatoms : ofWord starts ends word ≠ [] := fun hnil => hne (congrArg Sequence.render hnil)
  have hmatch : Sequence.occursIn text (ofWord starts ends word) = decide P :=
    Bool.eq_iff_iff.mpr (h.trans decide_eq_true_iff.symm)
  rw [matchLine, compile_ofWord hordinary hunpaired starts ends hatoms, Except.map,
    isMatchOctets, Text.Utf8.decode_encode, isMatch_of_candidates_eq rfl, hmatch]

end Pattern

end

namespace Pattern

/-- **A word means a part of the line, its beginning, its end, or all of it**, for any word without
    special characters in which no `)` stands behind a `(`. The empty word is no pattern by itself,
    but with an anchor it is one like any other. -/
theorem matchLine_word {word : List Char} (hordinary : ∀ c ∈ word, c ∉ Parser.special)
    (hunpaired : ¬ ['(', ')'].Sublist word) (text : List Char) :
    let line := Text.Utf8.encode text
    (word ≠ [] → matchLine line word = .ok (decide (word <:+: text))) ∧
    matchLine line ('^' :: word) = .ok (decide (word <+: text)) ∧
    matchLine line (word ++ ['$']) = .ok (decide (word <:+ text)) ∧
    matchLine line ('^' :: word ++ ['$']) = .ok (decide (text = word)) := by
  intro line
  have hrender (starts ends : Bool) := Sequence.render_ofWord starts ends word
  refine ⟨fun hne => ?_, ?_, ?_, ?_⟩
  · exact matchLine_of_occursIn_iff hordinary hunpaired false false
      ((hrender false false).trans (List.append_nil word)) hne
      Sequence.occursIn_ofWord_iff_isInfix
  · exact matchLine_of_occursIn_iff hordinary hunpaired true false
      ((hrender true false).trans (List.append_nil _)) (List.cons_ne_nil _ _)
      Sequence.occursIn_ofWord_iff_isPrefix
  · exact matchLine_of_occursIn_iff hordinary hunpaired false true (hrender false true)
      (List.append_ne_nil_of_right_ne_nil word (List.cons_ne_nil _ _))
      Sequence.occursIn_ofWord_iff_isSuffix
  · exact matchLine_of_occursIn_iff hordinary hunpaired true true (hrender true true)
      (List.cons_ne_nil _ _) Sequence.occursIn_ofWord_iff_eq

/-- A word of parentheses that do not pair up, a bar, and a letter of two octets. -/
def strays : List Char :=
  [')', '|', 'é', '(']

/-- Behind an `x` the word is found, and the line ends with it but does not begin with it. -/
theorem matchLine_strays :
    (∀ c ∈ strays, c ∉ Parser.special) ∧ ¬ ['(', ')'].Sublist strays ∧ strays ≠ [] ∧
    let line := Text.Utf8.encode ('x' :: strays)
    matchLine line strays = .ok true ∧ matchLine line ('^' :: strays) = .ok false ∧
    matchLine line (strays ++ ['$']) = .ok true ∧
    matchLine line ('^' :: strays ++ ['$']) = .ok false := by
  have hordinary : ∀ c ∈ strays, c ∉ Parser.special := by simp [strays, Parser.special]
  have hunpaired : ¬ ['(', ')'].Sublist strays := by decide
  have hne : strays ≠ [] := List.cons_ne_nil _ _
  obtain ⟨hpart, hstart, hend, hall⟩ := matchLine_word hordinary hunpaired ('x' :: strays)
  refine ⟨hordinary, hunpaired, hne, (hpart hne).trans ?_, hstart.trans ?_, hend.trans ?_,
    hall.trans ?_⟩ <;> exact congrArg Except.ok (by decide)

end Pattern

end LineSieve
