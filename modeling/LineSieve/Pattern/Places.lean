/-!
# Places in a pattern

Taking a pattern apart keeps, with each character, where it stood in the pattern as typed, so
that a complaint about any part of it can point there. Places are counted in characters, from 0.
-/

namespace LineSieve

/-! ## Characters with their places -/

/-- A character and the place in the pattern that it comes from, counted in characters from 0. -/
structure Placed where
  pos : Nat
  char : Char
  deriving DecidableEq

namespace Placed

/-- The characters of a text, each at its own place. -/
def ofText (text : List Char) : List Placed :=
  text.mapIdx Placed.mk

/-- The text that placed characters spell. -/
def text (chars : List Placed) : List Char :=
  chars.map Placed.char

@[simp] theorem text_nil : text [] = [] := rfl

@[simp] theorem text_cons (c : Placed) (cs : List Placed) : text (c :: cs) = c.char :: text cs :=
  rfl

@[simp] theorem text_append (cs ds : List Placed) : text (cs ++ ds) = text cs ++ text ds := by
  simp [text]

@[simp] theorem text_ofText (s : List Char) : text (ofText s) = s := by
  simp [text, ofText, List.mapIdx_eq_zipIdx_map, Function.comp_def, List.zipIdx_map_fst]

end Placed

/-! ## What is wrong with a pattern -/

/-- Why a sequence of characters is no sequence of atoms. -/
inductive ParseError
  /-- The group opened at `pos` has no members. -/
  | emptyGroup (pos : Nat)
  /-- A `^` inside a group, at `pos`, is not its first character. -/
  | misplacedCaret (pos : Nat)
  /-- The quantifier at `pos` has no class before it. -/
  | danglingQuantifier (quantifier : Char) (pos : Nat)
  /-- The backslash at `pos` is followed by a character that names no class. -/
  | unknownEscape (escaped : Char) (pos : Nat)
  /-- The last character is a backslash with nothing to escape. -/
  | trailingEscape
  /-- The group opened at `pos` goes on to the end. -/
  | unclosedGroup (pos : Nat)
  /-- The anchor at `pos` is neither first, for `^`, nor last, for `$`. -/
  | misplacedAnchor (anchor : Char) (pos : Nat)
  deriving DecidableEq

/-- The complaint in words. -/
def ParseError.message : ParseError → String
  | .emptyGroup pos => s!"empty character group '[]' at position {pos}"
  | .misplacedCaret pos => s!"'^' at position {pos} is only allowed first in a character group"
  | .danglingQuantifier quantifier pos =>
      s!"quantifier '{quantifier}' at position {pos} has nothing to repeat"
  | .unknownEscape escaped pos => s!"unknown escape '\\{escaped}' at position {pos}"
  | .trailingEscape => "pattern ends with an unfinished escape '\\'"
  | .unclosedGroup pos => s!"character group opened at position {pos} is never closed"
  | .misplacedAnchor anchor pos =>
      s!"anchor '{anchor}' at position {pos} must be at the start ('^') or end ('$') of the pattern"

/-- Why a pattern cannot be searched for. -/
inductive PatternError
  /-- One of its alternatives is malformed. -/
  | malformed (cause : ParseError)
  /-- One of its alternatives has no atoms. -/
  | emptyExpression
  deriving DecidableEq

/-- The complaint in words. -/
def PatternError.message : PatternError → String
  | .malformed cause => cause.message
  | .emptyExpression => "pattern expands to an empty expression"

end LineSieve
