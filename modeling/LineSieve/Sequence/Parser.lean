import LineSieve.Pattern.Places
import LineSieve.Sequence

/-!
# Reading a sequence of atoms

A pattern without alternatives is read one character at a time, and parentheses and bars are
ordinary characters here. What the reader has seen so far is a `Parser`: the atoms it has
finished and what it is in the middle of. `Parser.step` takes the next character, `Parser.finish`
the end, and each complaint carries the place of the character it is about.
-/

namespace LineSieve

/-- What a reader of a pattern is in the middle of. -/
inductive Parser.Mode
  /-- Between two atoms. -/
  | between
  /-- Behind the backslash at `start`. -/
  | escape (start : Nat)
  /-- Right behind the bracket at `opened`. -/
  | opening (opened : Nat)
  /-- Further inside the group opened at `opened`; its members so far, the latest first. -/
  | inside (opened : Nat) (negated : Bool) (members : List Char)
  /-- Behind the `$` at `dollar`, which has to be the last character. -/
  | ended (dollar : Nat)

/-- What has been read of a pattern: its finished atoms, the latest first, and what is under way. -/
structure Parser where
  atoms : List Atom := []
  mode : Parser.Mode := .between

namespace Parser

/-- Adds a finished atom and goes on behind it. -/
def push (p : Parser) (atom : Atom) (mode : Mode := .between) : Parser :=
  ⟨atom :: p.atoms, mode⟩

/-- Puts the quantifier `c`, standing for `times`, on the class just read. It takes the place of
    one that is already there. -/
def quantify (p : Parser) (times : Repetition) (c : Placed) : Except ParseError Parser :=
  match p.atoms with
  | .chars cls _ :: atoms => .ok ⟨.chars cls times :: atoms, .between⟩
  | _ => .error (.danglingQuantifier c.char c.pos)

/-- Takes a character that stands between two atoms. -/
def stepBetween (p : Parser) (c : Placed) : Except ParseError Parser :=
  match c.char with
  | '\\' => .ok ⟨p.atoms, .escape c.pos⟩
  | '[' => .ok ⟨p.atoms, .opening c.pos⟩
  | '^' => if p.atoms.isEmpty then .ok (p.push .lineStart)
      else .error (.misplacedAnchor '^' c.pos)
  | '$' => .ok (p.push .lineEnd (.ended c.pos))
  | '+' => p.quantify .oneOrMore c
  | '?' => p.quantify .optional c
  | '.' => .ok (p.push (.one .any))
  | x => .ok (p.push (.one (.literal x)))

/-- Takes the next character. -/
def step (p : Parser) (c : Placed) : Except ParseError Parser :=
  match p.mode with
  | .between => p.stepBetween c
  | .escape start =>
      match c.char with
      | 'd' => .ok (p.push (.one .digit))
      | 'w' => .ok (p.push (.one .word))
      | x => .error (.unknownEscape x start)
  | .opening opened =>
      match c.char with
      | ']' => .error (.emptyGroup opened)
      | '^' => .ok ⟨p.atoms, .inside opened true []⟩
      | x => .ok ⟨p.atoms, .inside opened false [x]⟩
  | .inside opened negated members =>
      match c.char with
      | ']' => if members.isEmpty then .error (.emptyGroup opened)
          else .ok (p.push (.one (.group members.reverse negated)))
      | '^' => .error (.misplacedCaret c.pos)
      | x => .ok ⟨p.atoms, .inside opened negated (x :: members)⟩
  | .ended dollar => .error (.misplacedAnchor '$' dollar)

/-- What the pattern was, once it has ended. -/
def finish (p : Parser) : Except ParseError Sequence :=
  match p.mode with
  | .between | .ended _ => .ok p.atoms.reverse
  | .escape _ => .error .trailingEscape
  | .opening opened | .inside opened _ _ => .error (.unclosedGroup opened)

end Parser

namespace Sequence

/-- The atoms that placed characters spell. -/
def ofPlaced (chars : List Placed) : Except ParseError Sequence := do
  (← chars.foldlM Parser.step {}).finish

/-- The atoms that a pattern without alternatives spells. -/
def parse (pattern : List Char) : Except ParseError Sequence :=
  ofPlaced (Placed.ofText pattern)

end Sequence

end LineSieve
