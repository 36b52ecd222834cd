import LineSieve.Proofs.Matching.Meaning

/-!
# Possessive and backtracking matching

A textbook engine may leave an optional class out although the class accepts the character at
hand. This matcher never does: what an optional class can take, it takes and keeps. So it is the
weaker of the two, and `^a?a$` does not match `a`.

* **`CanHoldAt`** is the textbook meaning; `canHoldAt_of_holdsAt` says that the matcher only finds
  what a textbook engine finds.
* **`LeavesNoChoice`** is the condition under which nothing is lost: nobody who could take the
  character after an optional class accepts what that class accepts. Then leaving a character
  to the atoms behind helps only if they need none at all, and such atoms never fail
  (`holdsAt_of_canHoldAt`).
-/

namespace LineSieve

/-- No character is in both classes. -/
def CharClass.Disjoint (cls other : CharClass) : Prop :=
  ∀ c, cls.accepts c = true → other.accepts c = false

theorem CharClass.Disjoint.not_acceptsAt {cls other : CharClass} (h : cls.Disjoint other)
    {text : List Char} {i : Nat} (hi : cls.AcceptsAt text i) : ¬ other.AcceptsAt text i := by
  rintro ⟨_, hother⟩
  obtain ⟨_, hcls⟩ := hi
  rw [h _ hcls] at hother
  exact Bool.noConfusion hother

namespace Sequence

/-- The textbook meaning of a sequence at position `i`: a `?` may also be left out where its class
    accepts the character. -/
def CanHoldAt (text : List Char) : Nat → Sequence → Prop
  | _, [] => True
  | i, .lineStart :: rest => i = 0 ∧ CanHoldAt text i rest
  | i, .lineEnd :: rest => i = text.length ∧ CanHoldAt text i rest
  | i, .chars cls .once :: rest => cls.AcceptsAt text i ∧ CanHoldAt text (i + 1) rest
  | i, .chars cls .optional :: rest =>
      CanHoldAt text i rest ∨ cls.AcceptsAt text i ∧ CanHoldAt text (i + 1) rest
  | i, .chars cls .oneOrMore :: rest =>
      ∃ j ≤ text.length, cls.Run text i j ∧ CanHoldAt text j rest

/-- `^` comes first only and `$` last only. -/
def AnchorsAtEnds (atoms : Sequence) : Prop :=
  .lineStart ∉ atoms.tail ∧ .lineEnd ∉ atoms.dropLast

instance (atoms : Sequence) : Decidable (AnchorsAtEnds atoms) :=
  inferInstanceAs (Decidable (_ ∧ _))

/-- The classes that could take the first character: the optional ones in front, and the first
    one that is not optional. -/
def takers : Sequence → List CharClass
  | [] => []
  | .lineStart :: rest => takers rest
  | .lineEnd :: rest => takers rest
  | .chars cls .optional :: rest => cls :: takers rest
  | .chars cls _ :: _ => [cls]

/-- What an optional class accepts, none of the classes that could take it instead accepts. -/
def LeavesNoChoice (atoms : Sequence) : Prop :=
  ∀ front cls behind, atoms = front ++ .chars cls .optional :: behind →
    ∀ other ∈ takers behind, cls.Disjoint other

theorem leavesNoChoice_nil : LeavesNoChoice [] := by
  intro front cls behind heq
  exact absurd heq.symm (by simp)

/-- The condition, one atom at a time. -/
theorem leavesNoChoice_cons {atom : Atom} {rest : Sequence} :
    LeavesNoChoice (atom :: rest) ↔
      (∀ cls, atom = .chars cls .optional → ∀ other ∈ takers rest, cls.Disjoint other) ∧
        LeavesNoChoice rest := by
  constructor
  · intro h
    refine ⟨fun cls hatom => ?_, fun front cls behind hrest => ?_⟩
    · exact h [] cls rest (by rw [hatom, List.nil_append])
    · exact h (atom :: front) cls behind (by rw [hrest, List.cons_append])
  · rintro ⟨hhead, hrest⟩ front cls behind heq
    cases front with
    | nil =>
        obtain ⟨hatom, rfl⟩ := List.cons.inj heq
        exact hhead cls hatom
    | cons _ front => exact hrest front cls behind (List.cons.inj heq).2

/-! ## Soundness -/

/-- **What the matcher finds, a textbook engine finds**, at the same position. -/
theorem canHoldAt_of_holdsAt {text : List Char} {atoms : Sequence} {i : Nat}
    (h : HoldsAt text i atoms) : CanHoldAt text i atoms := by
  induction atoms generalizing i with
  | nil => trivial
  | cons atom rest ih =>
      cases atom with
      | lineStart => exact ⟨h.1, ih h.2⟩
      | lineEnd => exact ⟨h.1, ih h.2⟩
      | chars cls times =>
          cases times with
          | once => exact ⟨h.1, ih h.2⟩
          | optional =>
              rw [HoldsAt] at h
              by_cases hc : cls.AcceptsAt text i
              · rw [if_pos hc] at h
                exact Or.inr ⟨hc, ih h⟩
              · rw [if_neg hc] at h
                exact Or.inl (ih h)
          | oneOrMore =>
              obtain ⟨j, hj, hrun, hrest⟩ := h
              exact ⟨j, hj, hrun, ih hrest⟩

/-! ## Completeness -/

/-- Atoms that are all optional hold everywhere. -/
theorem holdsAt_of_all_optional {text : List Char} {atoms : Sequence}
    (h : ∀ atom ∈ atoms, ∃ cls, atom = .chars cls .optional) (i : Nat) :
    HoldsAt text i atoms := by
  induction atoms generalizing i with
  | nil => trivial
  | cons atom rest ih =>
      obtain ⟨cls, rfl⟩ := h _ List.mem_cons_self
      have hrest := ih fun atom hmem => h atom (List.mem_cons_of_mem _ hmem)
      rw [HoldsAt]
      split
      · exact hrest (i + 1)
      · exact hrest i

/-- Atoms that hold in front of a character, though none that could take it accepts it, are all
    optional: the first other class would have to take it, and `$` would have to be behind it. -/
theorem all_optional_of_canHoldAt {text : List Char} {cls : CharClass} {i : Nat}
    (hi : cls.AcceptsAt text i) {atoms : Sequence} (hstart : .lineStart ∉ atoms)
    (hdisjoint : ∀ other ∈ takers atoms, cls.Disjoint other) (h : CanHoldAt text i atoms) :
    ∀ atom ∈ atoms, ∃ cls, atom = .chars cls .optional := by
  induction atoms with
  | nil => exact fun _ hmem => absurd hmem List.not_mem_nil
  | cons atom rest ih =>
      cases atom with
      | lineStart => exact absurd List.mem_cons_self hstart
      | lineEnd => exact absurd h.1 (Nat.ne_of_lt hi.1)
      | chars other times =>
          have hnot : ¬ other.AcceptsAt text i := by
            refine (hdisjoint other ?_).not_acceptsAt hi
            cases times <;> exact List.mem_cons_self
          cases times with
          | once => exact absurd h.1 hnot
          | oneOrMore =>
              obtain ⟨_, _, ⟨hlt, hrun⟩, _⟩ := h
              exact absurd (hrun i hlt (Nat.le_refl i)) hnot
          | optional =>
              rcases h with hrest | ⟨htake, -⟩
              · have hrest' := ih (fun hmem => hstart (List.mem_cons_of_mem _ hmem))
                  (fun d hd => hdisjoint d (List.mem_cons_of_mem _ hd)) hrest
                intro atom hmem
                rcases List.mem_cons.mp hmem with rfl | hmem
                · exact ⟨other, rfl⟩
                · exact hrest' atom hmem
              · exact absurd htake hnot

/-- **Nothing is lost where no choice is left.** The induction is on the atoms; only an optional
    class that is left out in front of a character of its own is of interest. -/
theorem holdsAt_of_canHoldAt {text : List Char} {atoms : Sequence} {i : Nat}
    (hstart : .lineStart ∉ atoms) (hchoice : LeavesNoChoice atoms)
    (h : CanHoldAt text i atoms) : HoldsAt text i atoms := by
  induction atoms generalizing i with
  | nil => trivial
  | cons atom rest ih =>
      obtain ⟨hhead, hchoice⟩ := leavesNoChoice_cons.mp hchoice
      have hstart' : .lineStart ∉ rest := fun hmem => hstart (List.mem_cons_of_mem _ hmem)
      have ih {i : Nat} : CanHoldAt text i rest → HoldsAt text i rest := ih hstart' hchoice
      cases atom with
      | lineStart => exact absurd List.mem_cons_self hstart
      | lineEnd => exact ⟨h.1, ih h.2⟩
      | chars cls times =>
          cases times with
          | once => exact ⟨h.1, ih h.2⟩
          | oneOrMore =>
              obtain ⟨j, hj, hrun, hrest⟩ := h
              exact ⟨j, hj, hrun, ih hrest⟩
          | optional =>
              rw [HoldsAt]
              by_cases hc : cls.AcceptsAt text i
              · rw [if_pos hc]
                rcases h with hskip | ⟨-, htake⟩
                · exact holdsAt_of_all_optional
                    (all_optional_of_canHoldAt hc hstart' (hhead cls rfl) hskip) (i + 1)
                · exact ih htake
              · rw [if_neg hc]
                rcases h with hskip | ⟨htake, -⟩
                · exact ih hskip
                · exact absurd htake hc

/-- A leading `^` means the same to both. -/
theorem holdsAt_iff_canHoldAt {text : List Char} {atoms : Sequence} (hends : AnchorsAtEnds atoms)
    (hchoice : LeavesNoChoice atoms) (i : Nat) :
    HoldsAt text i atoms ↔ CanHoldAt text i atoms := by
  refine ⟨canHoldAt_of_holdsAt, fun h => ?_⟩
  cases atoms with
  | nil => trivial
  | cons atom rest =>
      have hstart : .lineStart ∉ rest := hends.1
      by_cases hatom : atom = .lineStart
      · subst hatom
        exact ⟨h.1, holdsAt_of_canHoldAt hstart (leavesNoChoice_cons.mp hchoice).2 h.2⟩
      · refine holdsAt_of_canHoldAt (fun hmem => ?_) hchoice h
        rcases List.mem_cons.mp hmem with heq | hmem
        · exact hatom heq.symm
        · exact hstart hmem

/-- Looking for a sequence succeeds exactly if the sequence holds at some offset. -/
theorem search_eq_ok_true {text : List Char} {atoms : Sequence} (hne : atoms ≠ []) :
    search text atoms = .ok true ↔ ∃ offset ≤ text.length, HoldsAt text offset atoms := by
  rw [search_of_ne_nil text hne, Except.ok.injEq]
  exact occursIn_iff_holdsAt text atoms

/-- **Possessive and backtracking search.** Take a sequence whose anchors are at its ends. Where
    the matcher finds it, a textbook engine does. Where no optional class leaves a choice, and
    so in particular where there is none, the two agree on every text. -/
theorem search_iff_canHoldAt (text : List Char) (atoms : Sequence) (hne : atoms ≠ [])
    (hends : AnchorsAtEnds atoms) :
    (search text atoms = .ok true → ∃ offset ≤ text.length, CanHoldAt text offset atoms) ∧
    (LeavesNoChoice atoms →
      (search text atoms = .ok true ↔ ∃ offset ≤ text.length, CanHoldAt text offset atoms)) ∧
    ((∀ cls, .chars cls .optional ∉ atoms) →
      (search text atoms = .ok true ↔ ∃ offset ≤ text.length, CanHoldAt text offset atoms)) := by
  rw [search_eq_ok_true hne]
  have agree (hchoice : LeavesNoChoice atoms) :
      (∃ offset ≤ text.length, HoldsAt text offset atoms) ↔
        ∃ offset ≤ text.length, CanHoldAt text offset atoms :=
    exists_congr fun offset => and_congr_right fun _ =>
      holdsAt_iff_canHoldAt hends hchoice offset
  refine ⟨?_, agree, fun hnone => agree ?_⟩
  · rintro ⟨offset, h, hholds⟩
    exact ⟨offset, h, canHoldAt_of_holdsAt hholds⟩
  · intro front cls behind heq
    refine absurd ?_ (hnone cls)
    rw [heq]
    exact List.mem_append_right front List.mem_cons_self

/-- The atoms of `^a?b$`. -/
def optionalInFront : Sequence :=
  [.lineStart, .chars (.literal 'a') .optional, .one (.literal 'b'), .lineEnd]

/-- The atoms of `a+b`. -/
def runInFront : Sequence :=
  [.chars (.literal 'a') .oneOrMore, .one (.literal 'b')]

/-- `^a?b$` leaves no choice and `a+b` has nothing optional, so a textbook engine, too, finds the
    first of them in `ab` and the second one not in `a`. -/
theorem canHoldAt_optionalInFront :
    ((optionalInFront ≠ [] ∧ AnchorsAtEnds optionalInFront ∧ LeavesNoChoice optionalInFront ∧
        search ['a', 'b'] optionalInFront = .ok true) ∧
      ∃ offset ≤ 2, CanHoldAt ['a', 'b'] offset optionalInFront) ∧
    ((runInFront ≠ [] ∧ AnchorsAtEnds runInFront ∧
        (∀ cls, .chars cls .optional ∉ runInFront) ∧ search ['a'] runInFront = .ok false) ∧
      ¬ ∃ offset ≤ 1, CanHoldAt ['a'] offset runInFront) := by
  have hchoice : LeavesNoChoice optionalInFront := by
    have disjoint : (CharClass.literal 'a').Disjoint (.literal 'b') := by
      intro c hc
      obtain rfl : 'a' = c := by simpa [CharClass.accepts] using hc
      rfl
    simp [optionalInFront, leavesNoChoice_cons, leavesNoChoice_nil, takers, disjoint]
  have hnone : ∀ cls, .chars cls .optional ∉ runInFront := by
    simp [runInFront]
  refine ⟨⟨⟨by decide, by decide, hchoice, rfl⟩, ?_⟩, ⟨by decide, by decide, hnone, rfl⟩, ?_⟩
  · exact ((search_iff_canHoldAt ['a', 'b'] optionalInFront (by decide) (by decide)).2.1
      hchoice).mp rfl
  · refine mt ((search_iff_canHoldAt ['a'] runInFront (by decide) (by decide)).2.2 hnone).mpr ?_
    exact fun h => Bool.noConfusion (Except.ok.inj h)

end Sequence

end LineSieve
