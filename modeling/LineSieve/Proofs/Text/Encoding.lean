import LineSieve.Text.Octets
import Mathlib.Tactic.Common

/-!
# Encoding and decoding

A text that is encoded and decoded again is the same text, though the decoder is lenient and never
fails. The decoder sees one octet at a time. From the start the first octet of a character tells
how many follow and, at the edges of the code space, a narrower range for the next one; each octet
that follows adds six bits.

* **`lead_two`**, **`lead_three`**, **`lead_four`**: the state behind a first octet.
* **`decode_utf8EncodeChar_append`**: the octets of a character are decoded as this character,
  whatever follows them.
* **`decode_encode`**: so decoding undoes encoding.
* **`count_newline_encode`**: encoding neither makes newlines nor hides any.
-/

namespace LineSieve.Text.Utf8

theorem toNat_ofNat {k : Nat} (h : k < 256) : (UInt8.ofNat k).toNat = k :=
  UInt8.toNat_ofNat_of_lt h

/-! ## First octets -/

variable {bits n : Nat} {low high b : UInt8}

theorem lead_two (hb : b.toNat = n + 0xC0) (hlow : 2 ≤ n) (hhigh : n < 32) :
    lead b = ([], .within n 0x80 0xBF 0) := by
  have hlead : ¬ b < 0x80 ∧ 0xC2 ≤ b ∧ b ≤ 0xDF := by
    simp only [UInt8.lt_iff_toNat_lt, UInt8.le_iff_toNat_le, hb, UInt8.reduceToNat]
    omega
  rw [lead, if_neg hlead.1, if_pos hlead.2, hb, Nat.add_sub_cancel]

/-- Three octets are too many below `0xA0` behind a zero, and there are no characters from `0xA0`
    on behind a `0xD`: these are the surrogates. -/
theorem lead_three (hb : b.toNat = n + 0xE0) (hhigh : n < 16) :
    lead b = ([], .within n (if n = 0 then 0xA0 else 0x80) (if n = 0xD then 0x9F else 0xBF) 1) := by
  simp only [lead, UInt8.lt_iff_toNat_lt, UInt8.le_iff_toNat_le, ← UInt8.toNat_inj, hb,
    UInt8.reduceToNat]
  grind

/-- Four octets are too many below `0x90` behind a zero, and the code space ends behind a `4`. -/
theorem lead_four (hb : b.toNat = n + 0xF0) (hhigh : n ≤ 4) :
    lead b = ([], .within n (if n = 0 then 0x90 else 0x80) (if n = 4 then 0x8F else 0xBF) 2) := by
  simp only [lead, UInt8.lt_iff_toNat_lt, UInt8.le_iff_toNat_le, ← UInt8.toNat_inj, hb,
    UInt8.reduceToNat]
  grind

theorem decode_cons_of_lead {s : State} (h : lead b = ([], s)) (bs : List UInt8) :
    decode (b :: bs) = decodeFrom s bs := by
  rw [decode, decodeFrom, step, h]
  rfl

/-! ## The octets that follow -/

theorem within_tail (hb : b.toNat = n + 0x80) (hn : n < 64) : 0x80 ≤ b ∧ b ≤ 0xBF := by
  simp only [UInt8.le_iff_toNat_le, hb, UInt8.reduceToNat]
  omega

theorem decodeFrom_within (hb : b.toNat = n + 0x80) (hrange : low ≤ b ∧ b ≤ high) (more : Nat)
    (bs : List UInt8) :
    decodeFrom (.within bits low high (more + 1)) (b :: bs) =
      decodeFrom (.within (bits * 64 + n) 0x80 0xBF more) bs := by
  rw [decodeFrom, step, if_pos hrange, hb, Nat.add_sub_cancel]
  rfl

theorem decodeFrom_within_last (hb : b.toNat = n + 0x80) (hrange : low ≤ b ∧ b ≤ high)
    (bs : List UInt8) :
    decodeFrom (.within bits low high 0) (b :: bs) = Char.ofNat (bits * 64 + n) :: decode bs := by
  rw [decodeFrom, step, if_pos hrange, hb, Nat.add_sub_cancel]
  rfl

/-! ## Characters of two, three and four octets -/

variable {v : Nat}

theorem decode_two (hlow : 0x7F < v) (hhigh : v ≤ 0x7FF) (bs : List UInt8) :
    decode (UInt8.ofNat (v / 64 % 32 + 0xC0) :: UInt8.ofNat (v % 64 + 0x80) :: bs) =
      Char.ofNat v :: decode bs := by
  have hlead := lead_two (toNat_ofNat (k := v / 64 % 32 + 0xC0) (by omega)) (by omega) (by omega)
  have hlast := toNat_ofNat (k := v % 64 + 0x80) (by omega)
  have hbits : v / 64 % 32 * 64 + v % 64 = v := by omega
  rw [decode_cons_of_lead hlead, decodeFrom_within_last hlast (within_tail hlast (by omega)), hbits]

theorem decode_three (hlow : 0x7FF < v) (hhigh : v ≤ 0xFFFF) (hvalid : v < 0xD800 ∨ 0xDFFF < v)
    (bs : List UInt8) :
    decode (UInt8.ofNat (v / 4096 % 16 + 0xE0) :: UInt8.ofNat (v / 64 % 64 + 0x80) ::
        UInt8.ofNat (v % 64 + 0x80) :: bs) =
      Char.ofNat v :: decode bs := by
  have hlead := lead_three (toNat_ofNat (k := v / 4096 % 16 + 0xE0) (by omega)) (by omega)
  have hnext := toNat_ofNat (k := v / 64 % 64 + 0x80) (by omega)
  have hlast := toNat_ofNat (k := v % 64 + 0x80) (by omega)
  have hbits : (v / 4096 % 16 * 64 + v / 64 % 64) * 64 + v % 64 = v := by omega
  rw [decode_cons_of_lead hlead, decodeFrom_within hnext ?_,
    decodeFrom_within_last hlast (within_tail hlast (by omega)), hbits]
  simp only [UInt8.le_iff_toNat_le, hnext, apply_ite UInt8.toNat, UInt8.reduceToNat]
  split_ifs <;> omega

theorem decode_four (hlow : 0xFFFF < v) (hhigh : v < 0x110000) (bs : List UInt8) :
    decode (UInt8.ofNat (v / 262144 % 8 + 0xF0) :: UInt8.ofNat (v / 4096 % 64 + 0x80) ::
        UInt8.ofNat (v / 64 % 64 + 0x80) :: UInt8.ofNat (v % 64 + 0x80) :: bs) =
      Char.ofNat v :: decode bs := by
  have hlead := lead_four (toNat_ofNat (k := v / 262144 % 8 + 0xF0) (by omega)) (by omega)
  have hsecond := toNat_ofNat (k := v / 4096 % 64 + 0x80) (by omega)
  have hthird := toNat_ofNat (k := v / 64 % 64 + 0x80) (by omega)
  have hlast := toNat_ofNat (k := v % 64 + 0x80) (by omega)
  have hbits : ((v / 262144 % 8 * 64 + v / 4096 % 64) * 64 + v / 64 % 64) * 64 + v % 64 = v := by
    omega
  rw [decode_cons_of_lead hlead, decodeFrom_within hsecond ?_,
    decodeFrom_within hthird (within_tail hthird (by omega)),
    decodeFrom_within_last hlast (within_tail hlast (by omega)), hbits]
  simp only [UInt8.le_iff_toNat_le, hsecond, apply_ite UInt8.toNat, UInt8.reduceToNat]
  split_ifs <;> omega

/-! ## Texts -/

/-- The surrogates and what lies beyond the code space are no characters. -/
theorem toNat_val_valid (c : Char) :
    c.val.toNat < 0xD800 ∨ 0xDFFF < c.val.toNat ∧ c.val.toNat < 0x110000 :=
  c.valid

/-- **The octets of a character are decoded as this character**, whatever follows. -/
theorem decode_utf8EncodeChar_append (c : Char) (bs : List UInt8) :
    decode (String.utf8EncodeChar c ++ bs) = c :: decode bs := by
  have hvalid := toNat_val_valid c
  have hc : Char.ofNat c.val.toNat = c := Char.ofNat_toNat c
  simp only [String.utf8EncodeChar]
  split
  next hone =>
    have hb := toNat_ofNat (k := c.val.toNat) (by omega)
    have hlt : UInt8.ofNat c.val.toNat < 0x80 := by
      rw [UInt8.lt_iff_toNat_lt, hb]
      exact Nat.lt_succ_of_le hone
    rw [List.singleton_append, decode_cons_of_lt hlt, hb, hc]
  next hone =>
    split
    next htwo =>
      rw [List.cons_append, List.singleton_append, decode_two (by omega) htwo, hc]
    next htwo =>
      split
      next hthree =>
        rw [List.cons_append, List.cons_append, List.singleton_append,
          decode_three (by omega) hthree (by omega), hc]
      next hthree =>
        rw [List.cons_append, List.cons_append, List.cons_append, List.singleton_append,
          decode_four (by omega) (by omega), hc]

/-- **Decoding undoes encoding.** -/
theorem decode_encode (text : List Char) : decode (encode text) = text := by
  induction text with
  | nil => rfl
  | cons c text ih =>
      rw [encode, List.flatMap_cons, decode_utf8EncodeChar_append]
      exact congrArg (c :: ·) ih

/-- A newline is one octet, and no octet of another character is a newline. -/
theorem count_newline_utf8EncodeChar (c : Char) :
    (String.utf8EncodeChar c).count newline = [c].count '\n' := by
  have hvalid := toNat_val_valid c
  have hc : c = '\n' ↔ c.val.toNat = 10 := by
    rw [← Char.toNat_inj]
    rfl
  have hoctet {k : Nat} (hk : k < 256) : UInt8.ofNat k = newline ↔ k = 10 := by
    rw [← UInt8.toNat_inj, toNat_ofNat hk]
    rfl
  simp only [String.utf8EncodeChar]
  grind

/-- **A text is encoded with as many newlines as it has.** -/
theorem count_newline_encode (text : List Char) :
    (encode text).count newline = text.count '\n' := by
  induction text with
  | nil => rfl
  | cons c text ih =>
      rw [encode, List.flatMap_cons, List.count_append, count_newline_utf8EncodeChar]
      show _ + (encode text).count newline = ([c] ++ text).count '\n'
      rw [ih, List.count_append]

end LineSieve.Text.Utf8
