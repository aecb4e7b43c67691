/-
# Lines

A text of lines has a newline behind each of them and none inside. `LinesOf text lines` says that
these are the lines of a text. Some pieces of text with a newline behind each are lines only if no
piece has a newline of its own: one that has becomes more lines than one.

Main statements: `LinesOf.unique`, that a text has its lines in one way; and
`exists_linesOf_terminated_iff`, when pieces of text become as many lines.
-/
import StoreQL.Proofs.Run

namespace StoreQL.Text

/-- Some pieces of text, each with a newline behind it. -/
def terminated (pieces : List (List Char)) : List Char := pieces.flatMap (· ++ ['\n'])

/-- The text consists of these lines. -/
def LinesOf (text : List Char) (lines : List (List Char)) : Prop :=
  text = terminated lines ∧ ∀ l ∈ lines, '\n' ∉ l

variable {text : List Char} {lines lines' pieces : List (List Char)}

theorem terminated_cons (l : List Char) (ls : List (List Char)) :
    terminated (l :: ls) = l ++ '\n' :: terminated ls := by
  simp [terminated]

/-- A text with a mark behind it, and none inside, ends at the first mark. -/
theorem mark_unique {mark : Char} {l l' rest rest' : List Char} (hl : mark ∉ l) (hl' : mark ∉ l')
    (heq : l ++ mark :: rest = l' ++ mark :: rest') : l = l' ∧ rest = rest' := by
  have hrun {l : List Char} (hl : mark ∉ l) : ∀ c ∈ l, (c != mark) = true := by
    intro c hc
    rw [bne_iff_ne]
    rintro rfl
    exact hl hc
  have hnext (rest : List Char) : ¬ Next (fun c => (c != mark) = true) (mark :: rest) := by simp
  obtain ⟨hlines, hrest⟩ := run_unique (hrun hl) (hnext rest) (hrun hl') (hnext rest') heq
  exact ⟨hlines, (List.cons.inj hrest).2⟩

/-- **A text has its lines in one way.** -/
theorem LinesOf.unique (h : LinesOf text lines) (h' : LinesOf text lines') : lines = lines' := by
  obtain ⟨rfl, hlines⟩ := h
  obtain ⟨heq, hlines'⟩ := h'
  induction lines generalizing lines' with
  | nil =>
    cases lines' with
    | nil => rfl
    | cons l' ls' => simp [terminated] at heq
  | cons l ls ih =>
    cases lines' with
    | nil => simp [terminated] at heq
    | cons l' ls' =>
      rw [List.forall_mem_cons] at hlines hlines'
      rw [terminated_cons, terminated_cons] at heq
      obtain ⟨rfl, hrest⟩ := mark_unique hlines.1 hlines'.1 heq
      rw [ih hlines.2 hrest hlines'.2]

/-- There are as many newlines as pieces, and those that the pieces have themselves. -/
theorem count_terminated (pieces : List (List Char)) :
    (terminated pieces).count '\n' = pieces.length + pieces.flatten.count '\n' := by
  induction pieces with
  | nil => rfl
  | cons l ls ih =>
    rw [terminated_cons, List.count_append, List.count_cons_self, ih, List.flatten_cons,
      List.count_append, List.length_cons]
    omega

theorem LinesOf.count_newline (h : LinesOf text lines) : text.count '\n' = lines.length := by
  obtain ⟨rfl, hlines⟩ := h
  have hnone : '\n' ∉ lines.flatten := by
    rw [List.mem_flatten]
    rintro ⟨l, hl, hmem⟩
    exact hlines l hl hmem
  rw [count_terminated, List.count_eq_zero.mpr hnone, Nat.add_zero]

/-- **Pieces of text become as many lines** exactly if none of them has a newline. -/
theorem exists_linesOf_terminated_iff :
    (∃ ls, LinesOf (terminated pieces) ls ∧ ls.length = pieces.length) ↔
      ∀ l ∈ pieces, '\n' ∉ l := by
  constructor
  · rintro ⟨ls, hls, hlength⟩ l hl hmem
    have hcount := hls.count_newline
    rw [count_terminated, hlength, Nat.add_eq_left, List.count_eq_zero] at hcount
    exact hcount (List.mem_flatten_of_mem hl hmem)
  · intro hpieces
    exact ⟨pieces, ⟨rfl, hpieces⟩, rfl⟩

/-- Lists whose members are mapped to the same by some functions are mapped to the same by any other
functions that those determine. -/
theorem map_eq_map_of_determined {α β γ : Type} {f f' : α → β} {g g' : α → γ} {l l' : List α}
    (hfg : ∀ a ∈ l, ∀ b ∈ l', f a = f' b → g a = g' b) (h : l.map f = l'.map f') :
    l.map g = l'.map g' := by
  induction l generalizing l' with
  | nil =>
    obtain rfl := List.map_eq_nil_iff.mp h.symm
    rfl
  | cons a l ih =>
    cases l' with
    | nil => cases h
    | cons b l' =>
      rw [List.map_cons, List.map_cons, List.cons.injEq] at h
      have hrest := ih (fun a ha b hb => hfg a (List.mem_cons_of_mem _ ha) b
        (List.mem_cons_of_mem _ hb)) h.2
      rw [List.map_cons, List.map_cons, hrest,
        hfg a List.mem_cons_self b List.mem_cons_self h.1]

end StoreQL.Text
