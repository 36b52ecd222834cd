import LineSieve.Pattern
import LineSieve.Text.Octets

/-!
# Selecting lines

The lines of an input that match a pattern are selected or, inverted, those that do not. They are
written out one by one, or only their number is, or nothing is written and the first selected
line settles the matter.
-/

namespace LineSieve

/-- What is wanted of an input. -/
structure Selection.Mode where
  /-- Select the lines that do not match. -/
  invert : Bool := false
  /-- Write the number of selected lines in place of the lines. -/
  count : Bool := false
  /-- Write nothing, and stop at the first selected line. -/
  quiet : Bool := false
  deriving DecidableEq

/-- What became of an input: how many lines were selected and what was written. -/
structure Selection where
  selected : Nat
  output : List UInt8
  deriving DecidableEq

namespace Selection

/-- Whether a line is among those to select. -/
def Mode.selects (mode : Mode) (p : Pattern) (line : List UInt8) : Bool :=
  p.isMatchOctets line != mode.invert

/-- Reads lines until the input ends or, when quiet, until one is selected. Gives the selected
    lines; `found` holds those found before, the latest first. -/
def gather (p : Pattern) (mode : Mode) (input : List UInt8) (found : List (List UInt8)) :
    List (List UInt8) :=
  match _ : Text.nextLine? input with
  | none => found.reverse
  | some (line, rest) =>
      if mode.selects p line then
        if mode.quiet then (line :: found).reverse else gather p mode rest (line :: found)
      else gather p mode rest found
termination_by input.length
decreasing_by all_goals exact Text.length_lt_of_nextLine? ‹_›

/-- The label of an input in front of what is written of it, with a colon behind it. -/
def heading (label : Option String) : List UInt8 :=
  match label with
  | none => []
  | some name => Text.Utf8.encode (name.toList ++ [':'])

/-- What is written for the selected lines. -/
def write (mode : Mode) (label : Option String) (lines : List (List UInt8)) : List UInt8 :=
  if mode.quiet then []
  else if mode.count then
    heading label ++ Text.Utf8.encode (Nat.toDigits 10 lines.length) ++ [Text.newline]
  else lines.flatMap fun line => heading label ++ line ++ [Text.newline]

/-- Selects the lines of an input. -/
def ofInput (p : Pattern) (mode : Mode) (label : Option String) (input : List UInt8) :
    Selection :=
  let lines := gather p mode input []
  { selected := lines.length, output := write mode label lines }

end Selection

end LineSieve
