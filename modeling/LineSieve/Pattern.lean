import LineSieve.Candidate
import LineSieve.Sequence.Matching
import LineSieve.Sequence.Parser
import LineSieve.Text.Octets

/-!
# Compiled patterns

A pattern is compiled into one sequence of atoms for each of its candidates, all of them or none:
a fault in any alternative is a fault of the pattern. So a compiled pattern can be matched
against any text without further complaint.
-/

namespace LineSieve

/-- A pattern ready to be matched. -/
structure Pattern where
  /-- The pattern as typed. -/
  source : List Char
  /-- What its alternatives ask for, in ascending order of the texts that spell them. -/
  candidates : List Sequence

namespace Pattern

/-- The atoms of one candidate. -/
def readCandidate (candidate : Candidate) : Except PatternError Sequence :=
  (Sequence.ofPlaced candidate).mapError .malformed

/-- Compiles a pattern. The first candidate that is malformed is reported; that one is empty
    counts only if none is malformed. -/
def compile (source : List Char) : Except PatternError Pattern := do
  let candidates ← (Candidate.ofPattern source).mapM readCandidate
  if candidates.any List.isEmpty then throw .emptyExpression
  return { source, candidates }

/-- Whether some alternative occurs in the text. -/
def isMatch (p : Pattern) (text : List Char) : Bool :=
  p.candidates.any (Sequence.occursIn text)

/-- Whether some alternative occurs in the text that the octets spell. -/
def isMatchOctets (p : Pattern) (octets : List UInt8) : Bool :=
  p.isMatch (Text.Utf8.decode octets)

end Pattern

/-- Whether a pattern occurs in a line. The pattern is compiled first, so a fault in it is
    reported whatever the line holds. -/
def matchLine (line : List UInt8) (source : List Char) : Except PatternError Bool :=
  (Pattern.compile source).map (·.isMatchOctets line)

end LineSieve
