/-!
# The octets of an input

An input is read a line at a time. A line ends before a newline octet or at the end of the
input; the newline belongs to no line, and a newline at the very end starts no further one.

A line spells characters in UTF-8, which is read leniently. Octets are decoded one at a time by a
small machine. Between characters it is at the `start`; inside a character it knows the bits so
far, the range that the next octet has to lie in and how many more follow that one. The ranges are
those of the standard's table of well-formed sequences, so overlong forms, surrogates and values
beyond the last code point are refused at the first octet that rules them out.

An octet that cannot continue ends the character there: what was read of it becomes one
replacement character, and the octet is looked at afresh. So each maximal ill-formed part gives
exactly one replacement character, and well-formed parts are kept.
-/

namespace LineSieve.Text

/-! ## Lines -/

/-- The octet that ends a line. -/
def newline : UInt8 := 10

/-- The first line of an input and what follows its newline; nothing once the input is used up. -/
def nextLine? : List UInt8 → Option (List UInt8 × List UInt8)
  | [] => none
  | b :: bs =>
      let input := b :: bs
      some (input.takeWhile (· != newline), (input.dropWhile (· != newline)).drop 1)

@[simp] theorem nextLine?_nil : nextLine? [] = none := rfl

theorem nextLine?_cons (b : UInt8) (bs : List UInt8) :
    nextLine? (b :: bs) = some ((b :: bs).takeWhile (· != newline),
      ((b :: bs).dropWhile (· != newline)).drop 1) := rfl

/-- Reading a line uses up some of the input. -/
theorem length_lt_of_nextLine? {input line rest : List UInt8}
    (h : nextLine? input = some (line, rest)) : rest.length < input.length := by
  cases input with
  | nil => simp at h
  | cons b bs =>
      obtain ⟨-, rfl⟩ := by simpa only [nextLine?_cons, Option.some.injEq, Prod.mk.injEq] using h
      have := (List.dropWhile_sublist (· != newline) (l := b :: bs)).length_le
      simp only [List.length_drop, List.length_cons] at this ⊢
      omega

/-! ## Characters -/

namespace Utf8

/-- Stands for a part of the input that is no character. -/
def replacement : Char := '\ufffd'

/-- Where the decoder stands between two octets. -/
inductive State
  /-- Between characters. -/
  | start
  /-- Inside a character: `bits` were read, the next octet must lie between `low` and `high`, and
      `more` octets follow that one. -/
  | within (bits : Nat) (low high : UInt8) (more : Nat)
  deriving DecidableEq

/-- Reads the first octet of a character: the characters it completes and the state after it. -/
def lead (b : UInt8) : List Char × State :=
  if b < 0x80 then ([Char.ofNat b.toNat], .start)
  else if 0xC2 ≤ b ∧ b ≤ 0xDF then ([], .within (b.toNat - 0xC0) 0x80 0xBF 0)
  else if b = 0xE0 then ([], .within 0x0 0xA0 0xBF 1)
  else if b = 0xED then ([], .within 0xD 0x80 0x9F 1)
  else if 0xE1 ≤ b ∧ b ≤ 0xEF then ([], .within (b.toNat - 0xE0) 0x80 0xBF 1)
  else if b = 0xF0 then ([], .within 0x0 0x90 0xBF 2)
  else if b = 0xF4 then ([], .within 0x4 0x80 0x8F 2)
  else if 0xF1 ≤ b ∧ b ≤ 0xF3 then ([], .within (b.toNat - 0xF0) 0x80 0xBF 2)
  else ([replacement], .start)

/-- Reads one octet: the characters it completes and the state after it. -/
def step : State → UInt8 → List Char × State
  | .start, b => lead b
  | .within bits low high more, b =>
      if low ≤ b ∧ b ≤ high then
        let bits := bits * 64 + (b.toNat - 0x80)
        match more with
        | 0 => ([Char.ofNat bits], .start)
        | more + 1 => ([], .within bits 0x80 0xBF more)
      else (replacement :: (lead b).1, (lead b).2)

/-- What the end of the input completes: a character cut short is replaced. -/
def State.atEnd : State → List Char
  | .start => []
  | .within .. => [replacement]

/-- The characters that the octets complete from the given state on. -/
def decodeFrom : State → List UInt8 → List Char
  | s, [] => s.atEnd
  | s, b :: bs => (step s b).1 ++ decodeFrom (step s b).2 bs

/-- The text that the octets spell, with a replacement character for each maximal part that is
    ill-formed. -/
def decode (bs : List UInt8) : List Char :=
  decodeFrom .start bs

/-- The octets that spell a text. -/
def encode (text : List Char) : List UInt8 :=
  text.flatMap String.utf8EncodeChar

@[simp] theorem decode_nil : decode [] = [] := rfl

/-- From the start, an ASCII octet is a character by itself. -/
theorem decode_cons_of_lt {b : UInt8} (h : b < 0x80) (bs : List UInt8) :
    decode (b :: bs) = Char.ofNat b.toNat :: decode bs := by
  simp [decode, decodeFrom, step, lead, h]

@[simp] theorem encode_nil : encode [] = [] := rfl

@[simp] theorem encode_append (s t : List Char) : encode (s ++ t) = encode s ++ encode t := by
  simp [encode]

end Utf8

end LineSieve.Text
