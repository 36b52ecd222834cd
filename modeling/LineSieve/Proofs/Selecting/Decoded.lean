import LineSieve.Proofs.Selecting.Filtering
import LineSieve.Proofs.Text.Decoding
import Mathlib.Data.List.Forall2

/-!
# Octets and what they stand for

Lines are told by octets and matched by characters. It makes no difference where the two meet. A
pattern matches octets if it matches the text that they stand for, and an input has the same lines
selected whether its lines are decoded one by one or all of it at once. Not even a newline in the
middle of a character changes this, since the part before it is replaced in both ways.

* **`ofInput_eq_numbered`**: what a selection writes and counts are the lines selected, which have
  their numbers in the input.
* **`numbers_eq`**: these numbers, from the text that the input stands for.
* **`isMatchOctets_and_numbers`**: matching and selecting depend on this text only.
-/

namespace LineSieve

open Text (lines newline)
open Text.Utf8 (Decodes decode encode)

/-- The octets of a string, as they are kept in memory, encode its characters. -/
theorem Text.Utf8.encode_toList (s : String) : encode s.toList = s.toUTF8.data.toList := by
  show _ = s.toByteArray.data.toList
  rw [← String.utf8Encode_toList, List.utf8Encode, List.toList_data_toByteArray]
  rfl

theorem Pattern.isMatchOctets_of_decodes (p : Pattern) {octets : List UInt8} {text : List Char}
    (h : Decodes octets text) : p.isMatchOctets octets = p.isMatch text := by
  rw [isMatchOctets, Text.Utf8.decodes_iff.mp h]

namespace Selection

/-- The lines that are selected, with their numbers in the input, counted from zero. -/
def numbered (p : Pattern) (mode : Mode) (input : List UInt8) : List (Nat × List UInt8) :=
  (lines newline input).findIdxsValues (mode.selects p)

variable (p : Pattern) (mode : Mode)

theorem unzip_numbered (input : List UInt8) :
    (numbered p mode input).unzip =
      ((lines newline input).findIdxs (mode.selects p), chosen p mode input) :=
  List.unzip_findIdxsValues

theorem map_fst_numbered (input : List UInt8) :
    (numbered p mode input).map Prod.fst = (lines newline input).findIdxs (mode.selects p) := by
  rw [← List.unzip_fst, unzip_numbered]

theorem map_snd_numbered (input : List UInt8) :
    (numbered p mode input).map Prod.snd = chosen p mode input := by
  rw [← List.unzip_snd, unzip_numbered]

variable {mode}

/-- **A selection that is not quiet** counts the lines with these numbers, or writes them. -/
theorem ofInput_eq_numbered (hloud : mode.quiet = false) (label : Option String)
    (input : List UInt8) :
    ofInput p mode label input =
      { selected := (numbered p mode input).length
        output := write mode label ((numbered p mode input).map Prod.snd) } := by
  have hgather : gather p mode input [] = (numbered p mode input).map Prod.snd := by
    rw [gather_eq, if_neg (Bool.eq_false_iff.mp hloud), map_snd_numbered]
    rfl
  rw [ofInput, hgather, List.length_map]

variable (mode)

/-- **The numbers of the lines selected**, from the text that the input stands for. -/
theorem numbers_eq {octets : List UInt8} {text : List Char} (h : Decodes octets text) :
    (numbered p mode octets).map Prod.fst =
      (lines '\n' text).findIdxs fun line => p.isMatch line != mode.invert := by
  obtain rfl := Text.Utf8.decodes_iff.mp h
  rw [map_fst_numbered, Text.Utf8.lines_decode, List.findIdxs_map]
  rfl

/-- **Matching and selecting depend only on the text that octets stand for.** There is such a text,
    with each ill-formed part replaced, and for the octets of a string it is the string. Where it is
    split into lines these are what the lines of the octets stand for. So in the octets the same
    lines are selected, by their numbers, as in the octets that encode their text. -/
theorem isMatchOctets_and_numbers (p : Pattern) :
    (∀ octets, Decodes octets (decode octets)) ∧
    (∀ s : String, p.isMatchOctets s.toUTF8.data.toList = p.isMatch s.toList) ∧
    (∀ mode : Mode, mode.quiet = false → ∀ label input,
      ofInput p mode label input =
        { selected := (numbered p mode input).length
          output := write mode label ((numbered p mode input).map Prod.snd) }) ∧
    ∀ octets text, Decodes octets text →
      p.isMatchOctets octets = p.isMatch text ∧
      List.Forall₂ Decodes (lines newline octets) (lines '\n' text) ∧
      ∀ mode : Mode, (numbered p mode octets).map Prod.fst =
        (numbered p mode (encode text)).map Prod.fst := by
  have hdecodes (octets : List UInt8) : Decodes octets (decode octets) :=
    (Text.Utf8.decodes_decode octets).1
  refine ⟨hdecodes, ?_, ?_, ?_⟩
  · intro s
    rw [← Text.Utf8.encode_toList]
    exact p.isMatchOctets_of_decodes (Text.Utf8.decodes_encode s.toList)
  · intro mode hloud label input
    exact ofInput_eq_numbered p hloud label input
  · intro octets text h
    refine ⟨p.isMatchOctets_of_decodes h, ?_, ?_⟩
    · obtain rfl := Text.Utf8.decodes_iff.mp h
      rw [Text.Utf8.lines_decode, List.forall₂_map_right_iff, List.forall₂_same]
      intro line _
      exact hdecodes line
    · intro mode
      rw [numbers_eq p mode h, numbers_eq p mode (Text.Utf8.decodes_encode text)]

/-- Looks for the character that stands for what is none. -/
def forReplaced : Pattern := ⟨['\ufffd'], [[.one (.literal '\ufffd')]]⟩

/-- The first two octets of `€`, cut short by a newline, and one that no character begins with. -/
def cutShort : List UInt8 := [0xE2, 0x82, newline, 97, newline, 0xFF]

/-- The part that is cut short is replaced as a whole. It is found on the first line, and the octet
    by itself on the third, and so they are when the whole text is encoded again. -/
theorem numbered_cutShort :
    Pattern.compile ['\ufffd'] = .ok forReplaced ∧
    Decodes cutShort "\ufffd\na\n\ufffd".toList ∧
    forReplaced.isMatchOctets cutShort = true ∧
    (numbered forReplaced {} (encode "\ufffd\na\n\ufffd".toList)).map Prod.fst = [0, 2] ∧
    (ofInput forReplaced {} none cutShort).selected = 2 := by
  have htext : decode cutShort = "\ufffd\na\n\ufffd".toList := by decide
  obtain ⟨hdecodes, -, hselection, hoctets⟩ := isMatchOctets_and_numbers forReplaced
  have h : Decodes cutShort "\ufffd\na\n\ufffd".toList := htext ▸ hdecodes cutShort
  obtain ⟨hmatch, -, hnumbers⟩ := hoctets cutShort _ h
  refine ⟨by cbv, h, hmatch.trans (by decide), (hnumbers {}).symm.trans (by decide), ?_⟩
  rw [hselection {} rfl none cutShort]
  decide

end Selection

end LineSieve
