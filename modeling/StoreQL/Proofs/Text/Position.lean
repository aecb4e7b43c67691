/-
# Lines and columns

The place where a text ends, in closed form: the line counts the newlines of the text, and the
column counts the characters after the last of them.

If other text comes before a text, its places are counted anew. `Position.shift` says how: every
line number grows by the newlines that came before, and on the first line the columns go on from
where the other text ended. `Position.Precedes` is the order of places in a text, by the line and
then by the column.

Main statements: `after_start`, the closed form; `shift_after`, that counting on from a shifted
place is counting on and then shifting; and `placeAt_injective`, that no two offsets of a text are at
the same place.
-/
import Mathlib.Data.List.DropRight
import StoreQL.Text.Position

namespace StoreQL.Text

/-- The characters after the last newline, and all of them if there is none. -/
def lastLine (cs : List Char) : List Char := cs.rtakeWhile (· != '\n')

namespace Position

/-! ## 1. Where a text ends -/

@[simp] theorem advance_newline (p : Position) : p.advance '\n' = ⟨p.line + 1, 1⟩ := rfl

theorem advance_of_ne {c : Char} (h : c ≠ '\n') (p : Position) :
    p.advance c = ⟨p.line, p.column + 1⟩ := if_neg h

theorem line_le_advance (p : Position) (c : Char) : p.line ≤ (p.advance c).line := by
  by_cases h : c = '\n'
  · subst h
    exact Nat.le_succ _
  · rw [advance_of_ne h]

theorem line_le_after (p : Position) (cs : List Char) : p.line ≤ (p.after cs).line := by
  induction cs generalizing p with
  | nil => exact Nat.le_refl _
  | cons c cs ih => exact Nat.le_trans (line_le_advance p c) (ih (p.advance c))

/-- **The end of a text**: its newlines, and what comes after the last of them, are counted. -/
theorem after_start (cs : List Char) :
    start.after cs = ⟨1 + cs.count '\n', 1 + (lastLine cs).length⟩ := by
  induction cs using List.reverseRecOn with
  | nil => rfl
  | append_singleton cs c ih =>
    rw [after_append, ih, after_cons, after_nil, lastLine, lastLine, List.rtakeWhile_concat]
    by_cases h : c = '\n'
    · subst h
      simp [Nat.add_assoc]
    · simp [advance_of_ne h, h, Nat.add_assoc]

/-! ## 2. Places counted anew -/

/-- A place of a text before which other text is put: `lines` newlines, and `columns` characters
after the last of them. -/
def shift (lines columns : Nat) (p : Position) : Position :=
  ⟨p.line + lines, if p.line = 1 then p.column + columns else p.column⟩

/-- The beginning of a text stands where the text before it ends. -/
theorem after_start_eq_shift (cs : List Char) :
    start.after cs = start.shift (cs.count '\n') (lastLine cs).length := after_start cs

theorem shift_advance {p : Position} (hp : 1 ≤ p.line) (lines columns : Nat) (c : Char) :
    (p.shift lines columns).advance c = (p.advance c).shift lines columns := by
  by_cases h : c = '\n'
  · subst h
    -- A new line is never the first, so its columns are not counted on.
    have hnew : ¬ p.line + 1 = 1 := by omega
    simp only [advance_newline, shift, hnew, if_false, Position.mk.injEq, and_true]
    omega
  · simp only [advance_of_ne h, shift, Position.mk.injEq, true_and]
    split <;> omega

/-- **Counting on from a shifted place** is counting on from the place, then shifting. -/
theorem shift_after {p : Position} (hp : 1 ≤ p.line) (lines columns : Nat) (cs : List Char) :
    (p.shift lines columns).after cs = (p.after cs).shift lines columns := by
  induction cs generalizing p with
  | nil => rfl
  | cons c cs ih =>
    have hnext : 1 ≤ (p.advance c).line := Nat.le_trans hp (line_le_advance p c)
    rw [after_cons, after_cons, shift_advance hp, ih hnext]

/-! ## 3. The order of places -/

/-- The place comes before another: on an earlier line, or on the same line and further left. -/
def Precedes (p q : Position) : Prop := p.line < q.line ∨ p.line = q.line ∧ p.column < q.column

theorem Precedes.trans {p q r : Position} (h : p.Precedes q) (h' : q.Precedes r) :
    p.Precedes r := by
  unfold Precedes at *
  omega

theorem Precedes.ne {p q : Position} (h : p.Precedes q) : p ≠ q := by
  rintro rfl
  unfold Precedes at h
  omega

theorem precedes_advance (p : Position) (c : Char) : p.Precedes (p.advance c) := by
  by_cases h : c = '\n'
  · subst h
    exact .inl (Nat.lt_succ_self _)
  · rw [advance_of_ne h]
    exact .inr ⟨rfl, Nat.lt_succ_self _⟩

/-- Each character takes the place further. -/
theorem precedes_after (p : Position) {cs : List Char} (hne : cs ≠ []) : p.Precedes (p.after cs) := by
  induction cs generalizing p with
  | nil => exact absurd rfl hne
  | cons c cs ih =>
    have hfirst : p.Precedes (p.advance c) := precedes_advance p c
    cases cs with
    | nil => exact hfirst
    | cons d cs => exact hfirst.trans (ih (p.advance c) (List.cons_ne_nil d cs))

/-- What comes before a place comes before all that is read on from it. -/
theorem Precedes.after {p q : Position} (h : p.Precedes q) (cs : List Char) :
    p.Precedes (q.after cs) := by
  cases cs with
  | nil => exact h
  | cons c cs => exact h.trans (precedes_after q (List.cons_ne_nil c cs))

end Position

/-! ## 4. Places and offsets -/

/-- The place at an offset of a text: the newlines before it are counted, and the characters between
the last of them, or the beginning of the text, and it. -/
def placeAt (cs : List Char) (n : Nat) : Position :=
  ⟨1 + (cs.take n).count '\n', 1 + (lastLine (cs.take n)).length⟩

theorem placeAt_eq (cs : List Char) (n : Nat) : placeAt cs n = Position.start.after (cs.take n) :=
  (Position.after_start (cs.take n)).symm

theorem placeAt_length (cs rest : List Char) :
    placeAt (cs ++ rest) cs.length = Position.start.after cs := by
  rw [placeAt_eq, List.take_left]

/-- An offset further on in a text is at a later place. -/
theorem placeAt_precedes {cs : List Char} {m n : Nat} (hmn : m < n) (hn : n ≤ cs.length) :
    (placeAt cs m).Precedes (placeAt cs n) := by
  have hsplit : cs.take m ++ (cs.take n).drop m = cs.take n := by
    have h := List.take_append_drop m (cs.take n)
    rwa [List.take_take, Nat.min_eq_left hmn.le] at h
  have hne : (cs.take n).drop m ≠ [] := by
    rw [Ne, List.drop_eq_nil_iff, List.length_take, Nat.min_eq_left hn]
    omega
  rw [placeAt_eq, placeAt_eq, ← hsplit, Position.after_append]
  exact Position.precedes_after _ hne

/-- **A place belongs to one offset of a text.** -/
theorem placeAt_injective {cs : List Char} {m n : Nat} (hm : m ≤ cs.length) (hn : n ≤ cs.length)
    (h : placeAt cs m = placeAt cs n) : m = n := by
  rcases Nat.lt_trichotomy m n with hlt | heq | hlt
  · exact absurd h (placeAt_precedes hlt hn).ne
  · exact heq
  · exact absurd h.symm (placeAt_precedes hlt hm).ne

end StoreQL.Text
