import LineSieve.Main
import LineSieve.Proofs.Arguments
import LineSieve.Proofs.Alternatives.Choices
import LineSieve.Proofs.Alternatives.Pairing
import LineSieve.Proofs.Alternatives.Passes
import LineSieve.Proofs.Alternatives.Settling
import LineSieve.Proofs.Alternatives.Tree
import LineSieve.Proofs.Compiling
import LineSieve.Proofs.Matching.Backtracking
import LineSieve.Proofs.Matching.BeyondEnd
import LineSieve.Proofs.Matching.Meaning
import LineSieve.Proofs.Places
import LineSieve.Proofs.Reading.Gluing
import LineSieve.Proofs.Reading.Leftmost
import LineSieve.Proofs.Reading.Steps
import LineSieve.Proofs.Reading.Spelling
import LineSieve.Proofs.Alternatives.Independence
import LineSieve.Proofs.Complaints
import LineSieve.Proofs.Escapes
import LineSieve.Proofs.Alternatives.Brackets
import LineSieve.Proofs.Searching.Sources
import LineSieve.Proofs.Text.Encoding
import LineSieve.Proofs.Searching.Composition
import LineSieve.Proofs.Searching.Status
import LineSieve.Proofs.Alternatives.Rendering
import LineSieve.Proofs.Matching.Words
import LineSieve.Proofs.Matching.Context
import LineSieve.Proofs.Text.Lines
import LineSieve.Proofs.Selecting.Filtering
import LineSieve.Proofs.Text.Decoding
import LineSieve.Proofs.Selecting.Decoded
