import LineSieve.Proofs.Text.Encoding
import LineSieve.Proofs.Text.Lines
import Mathlib.Algebra.Group.Nat.Defs
import Mathlib.Data.List.Infix

/-!
# What octets are decoded as

Octets are any, and so the decoder has to make do with parts that spell nothing. `Decodes` says what
they stand for without any machine. Where a character is spelled it is taken. Where none is, the
longest part that could still become one is replaced as a whole, or a single octet if none could
begin there.

* **`Within`**: what the decoder knows inside a character. Each way to go on that its range allows
  spells a character, and any other octet is none that a character goes on with.
* **`decodes_iff`**: the machine decodes octets as `Decodes` says, and there is no other way.
* **`Decodes.append_newline`**: a newline ends whatever is under way, so what stands before it and
  behind it is decoded by itself.
-/

namespace LineSieve.Text.Utf8

/-! ## Ill-formed parts -/

/-- Some character is spelled with these octets first. -/
def Begins (octets : List UInt8) : Prop :=
  ∃ c : Char, octets <+: String.utf8EncodeChar c

/-- The octets of `part` spell nothing and are to be replaced as a whole, with `rest` behind them:
    no character is spelled here, and they are the most octets with which one begins, or a single
    octet with which none does. -/
structure IllFormed (part rest : List UInt8) : Prop where
  no_char : ∀ c : Char, ¬ String.utf8EncodeChar c <+: part ++ rest
  begins : (∃ b, part = [b]) ∨ part ≠ [] ∧ Begins part
  longest : ∀ longer, longer <+: part ++ rest → Begins longer → longer.length ≤ part.length

/-- The text that octets stand for. -/
inductive Decodes : List UInt8 → List Char → Prop where
  | nil : Decodes [] []
  | char (c : Char) {rest : List UInt8} {text : List Char} (h : Decodes rest text) :
      Decodes (String.utf8EncodeChar c ++ rest) (c :: text)
  | replaced {part rest : List UInt8} {text : List Char} (hpart : IllFormed part rest)
      (h : Decodes rest text) : Decodes (part ++ rest) (replacement :: text)

theorem IllFormed.ne_nil {part rest : List UInt8} (h : IllFormed part rest) : part ≠ [] := by
  rcases h.begins with ⟨b, rfl⟩ | ⟨hne, -⟩
  · exact List.cons_ne_nil b []
  · exact hne

theorem Begins.of_append {octets more : List UInt8} (h : Begins (octets ++ more)) :
    Begins octets := by
  obtain ⟨c, hc⟩ := h
  exact ⟨c, (List.prefix_append octets more).trans hc⟩

/-- Characters are spelled so that none goes on where another ends. -/
theorem utf8EncodeChar_append_inj {c c' : Char} {bs bs' : List UInt8}
    (h : String.utf8EncodeChar c ++ bs = String.utf8EncodeChar c' ++ bs') : c = c' ∧ bs = bs' := by
  have hdecode := congrArg decode h
  rw [decode_utf8EncodeChar_append, decode_utf8EncodeChar_append] at hdecode
  obtain rfl := (List.cons.inj hdecode).1
  exact ⟨rfl, List.append_cancel_left h⟩

/-- Octets with which a character begins are decoded as this one character when the rest of it
    follows. -/
theorem Begins.exists_decode {octets : List UInt8} (h : Begins octets) :
    ∃ c bs, octets ++ bs = String.utf8EncodeChar c ∧ decode (octets ++ bs) = [c] := by
  obtain ⟨c, bs, hc⟩ := h
  refine ⟨c, bs, hc, ?_⟩
  rw [hc, ← List.append_nil (String.utf8EncodeChar c), decode_utf8EncodeChar_append, decode_nil]

/-- Octets with which a character begins do not reach beyond an octet that no character goes on
    with. -/
theorem Begins.prefix_front {front rest octets : List UInt8} (h : Begins octets)
    (hpre : octets <+: front ++ rest) (hnext : ∀ b ∈ rest.head?, ¬ Begins (front ++ [b])) :
    octets <+: front := by
  rcases List.prefix_or_prefix_of_prefix hpre (List.prefix_append front rest) with h' | h'
  · exact h'
  · obtain ⟨more, rfl⟩ := h'
    cases more with
    | nil => exact (List.append_nil front).symm ▸ List.prefix_rfl
    | cons b more =>
        obtain ⟨behind, rfl⟩ := (List.prefix_append_right_inj front).mp hpre
        rw [← List.singleton_append, ← List.append_assoc] at h
        exact absurd h.of_append (hnext b rfl)

/-- A part is ill-formed if nothing in it is a character, and no character goes on with the octet
    behind it. -/
theorem illFormed_of_not_begins {part rest : List UInt8} (hne : part ≠ [])
    (hbegins : (∃ b, part = [b]) ∨ Begins part)
    (hchar : ∀ c : Char, ¬ String.utf8EncodeChar c <+: part)
    (hnext : ∀ b ∈ rest.head?, ¬ Begins (part ++ [b])) : IllFormed part rest := by
  refine ⟨?_, hbegins.imp_right (⟨hne, ·⟩), ?_⟩
  · intro c hc
    exact hchar c (Begins.prefix_front ⟨c, List.prefix_rfl⟩ hc hnext)
  · intro longer hpre h
    exact (h.prefix_front hpre hnext).length_le

/-! ## Inside a character -/

/-- The octets that follow the first one: six bits of the value each. -/
def trail (v : Nat) : Nat → List UInt8
  | 0 => []
  | k + 1 => UInt8.ofNat (v / 64 ^ k % 64 + 0x80) :: trail v k

/-- What the decoder knows when it has read `part` and is inside a character: who goes on with an
    octet of the range, and then with any others that may follow, spells a character. -/
structure Within (part : List UInt8) (bits : Nat) (low high : UInt8) (more : Nat) : Prop where
  run : ∀ bs, decode (part ++ bs) = decodeFrom (.within bits low high more) bs
  spells : ∀ v, v / 64 ^ (more + 1) = bits → low.toNat ≤ v / 64 ^ more % 64 + 0x80 →
    v / 64 ^ more % 64 + 0x80 ≤ high.toNat →
    v.isValidChar ∧ String.utf8EncodeChar (Char.ofNat v) = part ++ trail v (more + 1)
  range : 0x80 ≤ low.toNat ∧ low.toNat ≤ high.toNat ∧ high.toNat ≤ 0xBF

section

variable {v : Nat}

theorem toNat_val_ofNat (h : v.isValidChar) : (Char.ofNat v).val.toNat = v := by
  rw [Char.ofNat, dif_pos h]
  rfl

theorem utf8EncodeChar_one {b : UInt8} (h : b.toNat < 0x80) :
    String.utf8EncodeChar (Char.ofNat b.toNat) = [b] := by
  have hvalid : b.toNat.isValidChar := Or.inl (by omega)
  rw [String.utf8EncodeChar, toNat_val_ofNat hvalid, if_pos (Nat.le_of_lt_succ h),
    UInt8.ofNat_toNat]

theorem utf8EncodeChar_two (hlow : 0x7F < v) (hhigh : v ≤ 0x7FF) :
    v.isValidChar ∧ String.utf8EncodeChar (Char.ofNat v) =
      UInt8.ofNat (v / 64 % 32 + 0xC0) :: trail v 1 := by
  have hvalid : v.isValidChar := Or.inl (by omega)
  refine ⟨hvalid, ?_⟩
  rw [String.utf8EncodeChar, toNat_val_ofNat hvalid, if_neg (Nat.not_le.mpr hlow), if_pos hhigh]
  simp only [trail, Nat.pow_zero, Nat.div_one]

theorem utf8EncodeChar_three (hlow : 0x7FF < v) (hhigh : v ≤ 0xFFFF)
    (hvalid : v < 0xD800 ∨ 0xDFFF < v) :
    v.isValidChar ∧ String.utf8EncodeChar (Char.ofNat v) =
      UInt8.ofNat (v / 4096 % 16 + 0xE0) :: trail v 2 := by
  have hvalid : v.isValidChar := hvalid.imp_right (⟨·, by omega⟩)
  refine ⟨hvalid, ?_⟩
  rw [String.utf8EncodeChar, toNat_val_ofNat hvalid, if_neg (by omega), if_neg (by omega),
    if_pos hhigh]
  simp only [trail, Nat.pow_zero, Nat.pow_one, Nat.div_one]

theorem utf8EncodeChar_four (hlow : 0xFFFF < v) (hhigh : v < 0x110000) :
    v.isValidChar ∧ String.utf8EncodeChar (Char.ofNat v) =
      UInt8.ofNat (v / 262144 % 8 + 0xF0) :: trail v 3 := by
  have hvalid : v.isValidChar := Or.inr ⟨by omega, hhigh⟩
  refine ⟨hvalid, ?_⟩
  rw [String.utf8EncodeChar, toNat_val_ofNat hvalid, if_neg (by omega), if_neg (by omega),
    if_neg (by omega)]
  simp only [trail, Nat.reducePow, Nat.div_one]

end

section

variable {b : UInt8} {n : Nat}

theorem ofNat_eq_of_toNat_eq {k : Nat} (h : b.toNat = k) : UInt8.ofNat k = b := by
  rw [← h, UInt8.ofNat_toNat]

theorem within_two (hb : b.toNat = n + 0xC0) (hlow : 2 ≤ n) (hhigh : n < 32) :
    Within [b] n 0x80 0xBF 0 where
  run := decode_cons_of_lead (lead_two hb hlow hhigh)
  spells v hv _ _ := by
    have hfirst : UInt8.ofNat (v / 64 % 32 + 0xC0) = b :=
      ofNat_eq_of_toNat_eq (by omega)
    rw [← hfirst]
    exact utf8EncodeChar_two (by omega) (by omega)
  range := by decide

theorem within_three (hb : b.toNat = n + 0xE0) (hhigh : n < 16) :
    Within [b] n (if n = 0 then 0xA0 else 0x80) (if n = 0xD then 0x9F else 0xBF) 1 where
  run := decode_cons_of_lead (lead_three hb hhigh)
  spells v hv hleast hmost := by
    have hfirst : UInt8.ofNat (v / 4096 % 16 + 0xE0) = b :=
      ofNat_eq_of_toNat_eq (by omega)
    rw [← hfirst]
    simp only [apply_ite UInt8.toNat, UInt8.reduceToNat] at hleast hmost
    refine utf8EncodeChar_three ?_ ?_ ?_ <;> split_ifs at hleast hmost <;> omega
  range := by
    simp only [apply_ite UInt8.toNat, UInt8.reduceToNat]
    split_ifs <;> omega

theorem within_four (hb : b.toNat = n + 0xF0) (hhigh : n ≤ 4) :
    Within [b] n (if n = 0 then 0x90 else 0x80) (if n = 4 then 0x8F else 0xBF) 2 where
  run := decode_cons_of_lead (lead_four hb hhigh)
  spells v hv hleast hmost := by
    have hfirst : UInt8.ofNat (v / 262144 % 8 + 0xF0) = b :=
      ofNat_eq_of_toNat_eq (by omega)
    rw [← hfirst]
    simp only [apply_ite UInt8.toNat, UInt8.reduceToNat] at hleast hmost
    refine utf8EncodeChar_four ?_ ?_ <;> split_ifs at hleast hmost <;> omega
  range := by
    simp only [apply_ite UInt8.toNat, UInt8.reduceToNat]
    split_ifs <;> omega

/-- **A first octet** is a character, or leads into one, or is replaced. -/
theorem lead_cases (b : UInt8) :
    b < 0x80 ∨ (∃ bits low high more, Within [b] bits low high more) ∨
      lead b = ([replacement], .start) := by
  have hb := b.toNat_lt
  by_cases hone : b.toNat < 0x80
  · exact Or.inl (UInt8.lt_iff_toNat_lt.mpr hone)
  by_cases htwo : 0xC2 ≤ b.toNat ∧ b.toNat < 0xE0
  · exact Or.inr (Or.inl ⟨_, _, _, _, within_two (n := b.toNat - 0xC0) (by omega) (by omega)
      (by omega)⟩)
  by_cases hthree : 0xE0 ≤ b.toNat ∧ b.toNat < 0xF0
  · exact Or.inr (Or.inl ⟨_, _, _, _, within_three (n := b.toNat - 0xE0) (by omega) (by omega)⟩)
  by_cases hfour : 0xF0 ≤ b.toNat ∧ b.toNat ≤ 0xF4
  · exact Or.inr (Or.inl ⟨_, _, _, _, within_four (n := b.toNat - 0xF0) (by omega) (by omega)⟩)
  refine Or.inr (Or.inr ?_)
  simp only [lead, UInt8.lt_iff_toNat_lt, UInt8.le_iff_toNat_le, ← UInt8.toNat_inj,
    UInt8.reduceToNat]
  grind

end

namespace Within

variable {part : List UInt8} {bits more : Nat} {low high b : UInt8}

/-- An octet of the range adds six bits. -/
theorem exists_six_bits (h : Within part bits low high more) (hb : low ≤ b ∧ b ≤ high) :
    ∃ n, b.toNat = n + 0x80 ∧ n < 64 := by
  obtain ⟨hlow, -, hhigh⟩ := h.range
  rw [UInt8.le_iff_toNat_le, UInt8.le_iff_toNat_le] at hb
  exact ⟨b.toNat - 0x80, by omega, by omega⟩

/-- Who goes on with an octet of the range, and then with any others, spells a character. -/
theorem spells_octet (h : Within part bits low high more) (hb : low ≤ b ∧ b ≤ high) {n v : Nat}
    (hn : b.toNat = n + 0x80) (hv : v / 64 ^ more = bits * 64 + n) :
    v.isValidChar ∧ String.utf8EncodeChar (Char.ofNat v) = part ++ b :: trail v more := by
  obtain ⟨n', hn', hlt⟩ := h.exists_six_bits hb
  have hdiv : v / 64 ^ (more + 1) = bits := by
    rw [Nat.pow_succ, ← Nat.div_div_eq_div_mul, hv]
    omega
  have hmod : v / 64 ^ more % 64 + 0x80 = b.toNat := by
    rw [hv]
    omega
  have hspells := h.spells v hdiv (hmod ▸ UInt8.le_iff_toNat_le.mp hb.1)
    (hmod ▸ UInt8.le_iff_toNat_le.mp hb.2)
  rwa [trail, hmod, UInt8.ofNat_toNat] at hspells

/-- **Going on** inside a character, if more octets follow. -/
theorem step (h : Within part bits low high (more + 1)) (hb : low ≤ b ∧ b ≤ high) {n : Nat}
    (hn : b.toNat = n + 0x80) : Within (part ++ [b]) (bits * 64 + n) 0x80 0xBF more where
  run bs := by
    rw [List.append_assoc, h.run, List.singleton_append, decodeFrom_within hn hb]
  spells v hv _ _ := by
    rw [List.append_assoc, List.singleton_append]
    exact h.spells_octet hb hn hv
  range := by decide

/-- **The last octet** completes a character. -/
theorem last (h : Within part bits low high 0) (hb : low ≤ b ∧ b ≤ high) {n : Nat}
    (hn : b.toNat = n + 0x80) :
    String.utf8EncodeChar (Char.ofNat (bits * 64 + n)) = part ++ [b] :=
  (h.spells_octet hb hn (Nat.div_one _)).2

/-- What was read is the beginning of a character, and not all of it. -/
theorem exists_char (h : Within part bits low high more) :
    ∃ (c : Char) (bs : List UInt8), bs ≠ [] ∧ String.utf8EncodeChar c = part ++ bs := by
  have hlow : low ≤ low ∧ low ≤ high :=
    ⟨UInt8.le_refl low, UInt8.le_iff_toNat_le.mpr h.range.2.1⟩
  obtain ⟨n, hn, -⟩ := h.exists_six_bits hlow
  -- the least octet of the range may follow, and then any others
  have hmore : (bits * 64 + n) * 64 ^ more / 64 ^ more = bits * 64 + n :=
    Nat.mul_div_cancel _ (Nat.pow_pos (by decide))
  exact ⟨_, _, List.cons_ne_nil _ _, (h.spells_octet hlow hn hmore).2⟩

end Within

/-! ## The machine -/

theorem step_snd_ne_start {s : State} {b : UInt8} (h : (step s b).1 = []) :
    (step s b).2 ≠ .start := by
  cases s with
  | start => grind [step, lead]
  | within bits low high more =>
      rw [step] at h ⊢
      split_ifs at h ⊢
      cases more with
      | zero => simp at h
      | succ more => simp

/-- **No octet is passed over**: what is not a character is replaced by one. -/
theorem decodeFrom_eq_nil {s : State} {bs : List UInt8} (h : decodeFrom s bs = []) :
    s = .start ∧ bs = [] := by
  induction bs generalizing s with
  | nil =>
      cases s with
      | start => exact ⟨rfl, rfl⟩
      | within bits low high more => exact nomatch h
  | cons b bs ih =>
      obtain ⟨hstep, hrest⟩ := List.append_eq_nil_iff.mp h
      exact absurd (ih hrest).1 (step_snd_ne_start hstep)

theorem decodeFrom_within_refused {bits more : Nat} {low high b : UInt8}
    (hb : ¬ (low ≤ b ∧ b ≤ high)) (bs : List UInt8) :
    decodeFrom (.within bits low high more) (b :: bs) = replacement :: decode (b :: bs) := by
  rw [decodeFrom, step, if_neg hb]
  rfl

theorem decode_cons_of_refused {b : UInt8} (h : lead b = ([replacement], .start))
    (bs : List UInt8) : decode (b :: bs) = replacement :: decode bs := by
  rw [decode, decodeFrom, step, h]
  rfl

theorem decode_eq_nil {bs : List UInt8} (h : decode bs = []) : bs = [] :=
  (decodeFrom_eq_nil h).2

namespace Within

variable {part : List UInt8} {bits more : Nat} {low high b : UInt8}

/-- No character goes on with an octet that is not of the range: it would be decoded as more than
    one. -/
theorem not_begins (h : Within part bits low high more) (hb : ¬ (low ≤ b ∧ b ≤ high)) :
    ¬ Begins (part ++ [b]) := by
  intro hbegins
  obtain ⟨c, bs, -, hchar⟩ := hbegins.exists_decode
  rw [List.append_assoc, h.run, List.singleton_append, decodeFrom_within_refused hb] at hchar
  exact nomatch decode_eq_nil (List.cons.inj hchar).2

/-- **What is under way is ill-formed** if the next octet is not of the range, or there is none. -/
theorem illFormed (h : Within part bits low high more) {rest : List UInt8}
    (hnext : ∀ b ∈ rest.head?, ¬ (low ≤ b ∧ b ≤ high)) : IllFormed part rest := by
  obtain ⟨c, bs, hne, hc⟩ := h.exists_char
  refine illFormed_of_not_begins ?_ (Or.inr ⟨c, bs, hc.symm⟩) ?_ ?_
  · rintro rfl
    exact nomatch h.run []
  · -- one character would go on where the other ends
    rintro c' ⟨more, rfl⟩
    have hinj := utf8EncodeChar_append_inj
      ((List.append_nil _).trans (hc.trans (List.append_assoc ..)))
    exact hne (List.append_eq_nil_iff.mp hinj.2.symm).2
  · intro b hb
    exact h.not_begins (hnext b hb)

end Within

/-- An octet with which no character begins is ill-formed by itself. -/
theorem illFormed_of_lead {b : UInt8} (h : lead b = ([replacement], .start)) (rest : List UInt8) :
    IllFormed [b] rest := by
  have hnot : ¬ Begins [b] := by
    intro hbegins
    obtain ⟨c, bs, hc, hchar⟩ := hbegins.exists_decode
    rw [List.singleton_append, decode_cons_of_refused h] at hchar
    obtain ⟨rfl, hrest⟩ := List.cons.inj hchar
    obtain rfl := decode_eq_nil hrest
    have hlength : 1 = (String.utf8EncodeChar replacement).length := congrArg List.length hc
    exact absurd hlength (by decide)
  refine illFormed_of_not_begins (List.cons_ne_nil b []) (Or.inl ⟨b, rfl⟩) ?_ ?_
  · intro c hc
    obtain ⟨first, bs, hbs⟩ := List.exists_cons_of_ne_nil (String.utf8EncodeChar_ne_nil (c := c))
    obtain ⟨rfl, -⟩ := List.cons_prefix_cons.mp (hbs ▸ hc)
    exact hnot ⟨c, bs, hbs.symm⟩
  · intro next _ h
    exact hnot h.of_append

/-- **The machine decodes octets as what they stand for.** The induction is on the octets, from the
    start and from inside a character. -/
theorem decodes_decode (bs : List UInt8) :
    Decodes bs (decode bs) ∧ ∀ part bits low high more, Within part bits low high more →
      Decodes (part ++ bs) (decodeFrom (.within bits low high more) bs) := by
  induction bs with
  | nil => exact ⟨.nil, fun part bits low high more h => .replaced (h.illFormed nofun) .nil⟩
  | cons b bs ih =>
      obtain ⟨hstart, hwithin⟩ := ih
      have hfirst : Decodes (b :: bs) (decode (b :: bs)) := by
        rcases lead_cases b with hone | ⟨bits, low, high, more, h⟩ | hlead
        · rw [decode_cons_of_lt hone, show b :: bs = [b] ++ bs from rfl,
            ← utf8EncodeChar_one (UInt8.lt_iff_toNat_lt.mp hone)]
          exact .char _ hstart
        · rw [show b :: bs = [b] ++ bs from rfl, h.run]
          exact hwithin _ _ _ _ _ h
        · rw [decode_cons_of_refused hlead]
          exact .replaced (illFormed_of_lead hlead bs) hstart
      refine ⟨hfirst, fun part bits low high more h => ?_⟩
      by_cases hb : low ≤ b ∧ b ≤ high
      · obtain ⟨n, hn, -⟩ := h.exists_six_bits hb
        rw [← List.singleton_append, ← List.append_assoc]
        cases more with
        | zero =>
            rw [List.singleton_append, decodeFrom_within_last hn hb, ← h.last hb hn]
            exact .char _ hstart
        | succ more =>
            rw [List.singleton_append, decodeFrom_within hn hb]
            exact hwithin _ _ _ _ _ (h.step hb hn)
      · rw [decodeFrom_within_refused hb]
        refine .replaced (h.illFormed ?_) hfirst
        rintro _ ⟨⟩
        exact hb

/-! ## There is no other way -/

theorem IllFormed.length_le {part rest part' rest' : List UInt8} (h : IllFormed part rest)
    (h' : IllFormed part' rest') (heq : part ++ rest = part' ++ rest') :
    part.length ≤ part'.length := by
  rcases h.begins with ⟨b, rfl⟩ | ⟨-, hbegins⟩
  · exact List.length_pos_iff.mpr h'.ne_nil
  · exact h'.longest part (heq ▸ List.prefix_append part rest) hbegins

/-- **Octets stand for one text only.** -/
theorem Decodes.unique {bs : List UInt8} {text text' : List Char} (h : Decodes bs text)
    (h' : Decodes bs text') : text = text' := by
  induction h generalizing text' with
  | nil =>
      generalize hbs : [] = bs at h'
      cases h' with
      | nil => rfl
      | char c _ => exact absurd (List.append_eq_nil_iff.mp hbs.symm).1 String.utf8EncodeChar_ne_nil
      | replaced hpart _ => exact absurd (List.append_eq_nil_iff.mp hbs.symm).1 hpart.ne_nil
  | @char c rest text _ ih =>
      generalize hbs : String.utf8EncodeChar c ++ rest = bs at h'
      cases h' with
      | nil => exact absurd (List.append_eq_nil_iff.mp hbs).1 String.utf8EncodeChar_ne_nil
      | char c' h' =>
          obtain ⟨rfl, rfl⟩ := utf8EncodeChar_append_inj hbs
          rw [ih h']
      | replaced hpart _ => exact absurd (hbs ▸ List.prefix_append _ rest) (hpart.no_char c)
  | @replaced part rest text hpart _ ih =>
      generalize hbs : part ++ rest = bs at h'
      cases h' with
      | nil => exact absurd (List.append_eq_nil_iff.mp hbs).1 hpart.ne_nil
      | char c _ => exact absurd (hbs ▸ List.prefix_append _ _) (hpart.no_char c)
      | replaced hpart' h' =>
          obtain ⟨rfl, rfl⟩ := List.append_inj hbs
            (Nat.le_antisymm (hpart.length_le hpart' hbs) (hpart'.length_le hpart hbs.symm))
          rw [ih h']

/-- **Decoding finds the one text that octets stand for.** -/
theorem decodes_iff {bs : List UInt8} {text : List Char} : Decodes bs text ↔ decode bs = text := by
  constructor
  · exact fun h => (decodes_decode bs).1.unique h
  · rintro rfl
    exact (decodes_decode bs).1

theorem decodes_encode (text : List Char) : Decodes (encode text) text :=
  decodes_iff.mpr (decode_encode text)

/-! ## Lines -/

theorem newline_mem_utf8EncodeChar {c : Char} (h : newline ∈ String.utf8EncodeChar c) :
    c = '\n' := by
  have hcount := List.count_pos_iff.mpr h
  rw [count_newline_utf8EncodeChar] at hcount
  exact (List.mem_singleton.mp (List.count_pos_iff.mp hcount)).symm

/-- No character goes on with a newline. -/
theorem not_begins_newline {front : List UInt8} (hne : front ≠ []) :
    ¬ Begins (front ++ [newline]) := by
  rintro ⟨c, hc⟩
  obtain rfl := newline_mem_utf8EncodeChar
    (hc.subset (List.mem_append_right front (List.mem_singleton_self newline)))
  have hlength : (front ++ [newline]).length ≤ 1 := hc.length_le
  rw [List.length_append] at hlength
  exact hne (List.length_eq_zero_iff.mp (Nat.le_zero.mp (Nat.le_of_succ_le_succ hlength)))

theorem IllFormed.append_newline {part rest : List UInt8} (h : IllFormed part rest)
    (behind : List UInt8) : IllFormed part (rest ++ newline :: behind) := by
  have hcut {octets : List UInt8} (hpre : octets <+: part ++ (rest ++ newline :: behind))
      (hbegins : Begins octets) : octets <+: part ++ rest := by
    rw [← List.append_assoc] at hpre
    refine hbegins.prefix_front hpre ?_
    rintro _ ⟨⟩
    exact not_begins_newline (List.append_ne_nil_of_left_ne_nil h.ne_nil rest)
  refine ⟨?_, h.begins, ?_⟩
  · intro c hc
    exact h.no_char c (hcut hc ⟨c, List.prefix_rfl⟩)
  · intro longer hpre hbegins
    exact h.longest longer (hcut hpre hbegins) hbegins

/-- **A newline ends whatever is under way.** -/
theorem Decodes.append_newline {front behind : List UInt8} {text text' : List Char}
    (h : Decodes front text) (h' : Decodes behind text') :
    Decodes (front ++ newline :: behind) (text ++ '\n' :: text') := by
  induction h with
  | nil => exact .char '\n' h'
  | char c _ ih =>
      rw [List.append_assoc]
      exact .char c ih
  | replaced hpart _ ih =>
      rw [List.append_assoc]
      exact .replaced (hpart.append_newline behind) ih

/-- Nothing but a newline is decoded as one. -/
theorem Decodes.newline_mem {bs : List UInt8} {text : List Char} (h : Decodes bs text)
    (hmem : '\n' ∈ text) : newline ∈ bs := by
  induction h with
  | nil => exact absurd hmem List.not_mem_nil
  | char c _ ih =>
      rcases List.mem_cons.mp hmem with rfl | hmem
      · exact List.mem_append_left _ (List.mem_singleton_self newline)
      · exact List.mem_append_right _ (ih hmem)
  | replaced _ _ ih =>
      rcases List.mem_cons.mp hmem with heq | hmem
      · exact absurd heq (by decide)
      · exact List.mem_append_right _ (ih hmem)

/-- **Lines can be told before or after decoding.** -/
theorem lines_decode (bs : List UInt8) :
    lines '\n' (decode bs) = (lines newline bs).map decode := by
  have hnone {line : List UInt8} (h : newline ∉ line) : '\n' ∉ decode line :=
    fun hmem => h ((decodes_decode line).1.newline_mem hmem)
  induction bs using linesInduction newline with
  | nil => rw [decode_nil, lines_nil, lines_nil, List.map_nil]
  | last line hne hline =>
      rw [lines_of_notMem hline hne, lines_of_notMem (hnone hline) (fun h => hne (decode_eq_nil h)),
        List.map_singleton]
  | cons line rest hline ih =>
      have happend := (decodes_decode line).1.append_newline (decodes_decode rest).1
      rw [decodes_iff.mp happend, lines_append_cons (hnone hline), ih, lines_append_cons hline,
        List.map_cons]

end LineSieve.Text.Utf8
