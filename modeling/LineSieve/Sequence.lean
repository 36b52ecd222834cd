import LineSieve.Text.Category

/-!
# Sequences of atoms

A pattern without alternatives is a sequence of atoms: anchors, which take no character, and
character classes, each with the number of times it may be repeated. A class says which single
characters it accepts (`CharClass.accepts`). Classes, atoms and sequences know how a pattern writes
them (`render`).
-/

namespace LineSieve

/-! ## Character classes -/

/-- A set of characters that a pattern can ask for. -/
inductive CharClass
  /-- One given character. -/
  | literal (c : Char)
  /-- A decimal digit of any script. -/
  | digit
  /-- A letter or decimal digit of any script, or the underscore. -/
  | word
  /-- Any character at all. -/
  | any
  /-- One of the members or, when negated, any character but those. -/
  | group (members : List Char) (negated : Bool)
  deriving DecidableEq

namespace CharClass

/-- Whether the class has the character in it. -/
def accepts : CharClass → Char → Bool
  | .literal c, x => c == x
  | .digit, x => Text.isDecimalDigit x
  | .word, x => x == '_' || Text.isDecimalDigit x || Text.isLetter x
  | .any, _ => true
  | .group members negated, x => members.contains x != negated

/-- The class as a pattern writes it. -/
def render : CharClass → List Char
  | .literal c => [c]
  | .digit => ['\\', 'd']
  | .word => ['\\', 'w']
  | .any => ['.']
  | .group members negated => '[' :: ((if negated then ['^'] else []) ++ members ++ [']'])

end CharClass

/-! ## Atoms -/

/-- How often a class is repeated. -/
inductive Repetition
  /-- Exactly once. -/
  | once
  /-- As often as possible, and at least once. -/
  | oneOrMore
  /-- Once where possible. -/
  | optional
  deriving DecidableEq

/-- The mark that a pattern puts behind a class. -/
def Repetition.render : Repetition → List Char
  | .once => []
  | .oneOrMore => ['+']
  | .optional => ['?']

/-- One step of a pattern. -/
inductive Atom
  /-- The start of the line. -/
  | lineStart
  /-- The end of the line. -/
  | lineEnd
  /-- Characters of one class. -/
  | chars (cls : CharClass) (times : Repetition)
  deriving DecidableEq

namespace Atom

/-- A class that is not repeated. -/
abbrev one (cls : CharClass) : Atom := .chars cls .once

/-- How often the atom is repeated; anchors are not. -/
def repetition? : Atom → Option Repetition
  | .lineStart | .lineEnd => none
  | .chars _ times => some times

/-- The atom as a pattern writes it. -/
def render : Atom → List Char
  | .lineStart => ['^']
  | .lineEnd => ['$']
  | .chars cls times => cls.render ++ times.render

end Atom

/-- Atoms that have to match one after the other. -/
abbrev Sequence := List Atom

/-- The sequence as a pattern writes it. -/
def Sequence.render (atoms : Sequence) : List Char :=
  atoms.flatMap Atom.render

end LineSieve
