import LineSieve.Pattern.Places
import LineSieve.Sequence

/-!
# Matching a sequence of atoms

A match starts at one position of the text and takes the atoms in order. A class repeated one or
more times takes the longest run that it accepts and gives characters back, one at a time, as
long as the rest does not match. An optional class takes a character whenever it can and never
gives it back.

The text is followed by position and remaining characters together: `matchesFrom` is told the
length of the whole text, the position it is at and the characters from there on.
-/

namespace LineSieve

/-- Whether an atom can do with no character at position `pos`, which has none left. -/
def Atom.holdsAtEnd (pos : Nat) : Atom → Bool
  | .lineStart => pos == 0
  | .lineEnd => true
  | .chars _ times => times == .optional

/-- The ways to leave behind a run of accepted characters, at least one, the longest run first:
    the position behind the run and what remains of the text. `found` holds the shorter runs. -/
def CharClass.runs (cls : CharClass) :
    Nat → List Char → List (Nat × List Char) → List (Nat × List Char)
  | _, [], found => found
  | pos, c :: rest, found =>
      if cls.accepts c then cls.runs (pos + 1) rest ((pos + 1, rest) :: found) else found

namespace Sequence

/-- Whether the atoms match from position `pos` on in a text of the given length, of which
    `rest` remains there. -/
def matchesFrom (length : Nat) : Sequence → Nat → List Char → Bool
  | [], _, _ => true
  | .lineEnd :: [], pos, _ => pos == length
  | atom :: atoms, pos, [] => (atom :: atoms).all (·.holdsAtEnd pos)
  | .lineStart :: atoms, pos, c :: rest => pos == 0 && matchesFrom length atoms pos (c :: rest)
  | .lineEnd :: _ :: _, _, _ :: _ => false
  | .chars cls .once :: atoms, pos, c :: rest =>
      cls.accepts c && matchesFrom length atoms (pos + 1) rest
  | .chars cls .optional :: atoms, pos, c :: rest =>
      if cls.accepts c then matchesFrom length atoms (pos + 1) rest
      else matchesFrom length atoms pos (c :: rest)
  | .chars cls .oneOrMore :: atoms, pos, c :: rest =>
      (cls.runs pos (c :: rest) []).any fun (after, rest) => matchesFrom length atoms after rest

/-- Whether the atoms match starting exactly at the offset, which may lie beyond the text. -/
def matchesAt (text : List Char) (offset : Nat) (atoms : Sequence) : Bool :=
  matchesFrom text.length atoms offset (text.drop offset)

/-- Whether the atoms match starting at `pos` or later, up to the end of the text. -/
def matchesBeyond (length : Nat) (atoms : Sequence) : Nat → List Char → Bool
  | pos, [] => matchesFrom length atoms pos []
  | pos, c :: rest =>
      matchesFrom length atoms pos (c :: rest) || matchesBeyond length atoms (pos + 1) rest

/-- Whether the atoms match somewhere in the text. Atoms that begin with the start of the line are
    tried there only. -/
def occursIn (text : List Char) : Sequence → Bool
  | .lineStart :: atoms => matchesAt text 0 atoms
  | atoms => matchesBeyond text.length atoms 0 text

/-- Whether the atoms match somewhere in the text; without any atom there is nothing to look
    for. -/
def search (text : List Char) (atoms : Sequence) : Except PatternError Bool :=
  if atoms.isEmpty then .error .emptyExpression else .ok (occursIn text atoms)

end Sequence

end LineSieve
