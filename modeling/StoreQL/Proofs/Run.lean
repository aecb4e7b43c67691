/-
# Runs

The longest stretch of a list whose members all have a property. Where a list is parted into a run
and a rest that does not continue it, `takeWhile` gives the run and `dropWhile` the rest, and there
is no other way to part the list so.

`Next p l` says that `l` begins with a member that has the property `p`.
-/
namespace StoreQL

universe u

variable {α : Type u}

/-- The list begins with a member that has the property. -/
def Next (p : α → Prop) : List α → Prop
  | [] => False
  | a :: _ => p a

instance Next.decidable (p : α → Prop) [DecidablePred p] : DecidablePred (Next p)
  | [] => inferInstanceAs (Decidable False)
  | a :: _ => inferInstanceAs (Decidable (p a))

@[simp] theorem next_nil (p : α → Prop) : ¬ Next p [] := id

@[simp] theorem next_cons (p : α → Prop) (a : α) (l : List α) : Next p (a :: l) ↔ p a := Iff.rfl

/-- Whether a member comes next that has the property depends on the head alone. -/
theorem next_congr {p : α → Prop} : ∀ {l l' : List α}, l.head? = l'.head? → (Next p l ↔ Next p l')
  | [], [], _ => Iff.rfl
  | [], _ :: _, h => by simp at h
  | _ :: _, [], h => by simp at h
  | a :: _, b :: _, h => by
    simp only [List.head?_cons, Option.some.injEq] at h
    rw [next_cons, next_cons, h]

/-- What comes next has every property that its own entails. -/
theorem Next.mono {p q : α → Prop} (hpq : ∀ a, p a → q a) : ∀ {l : List α}, Next p l → Next q l
  | [], h => h
  | a :: _, h => hpq a h

/-- What comes next does not have a property that its own excludes. -/
theorem Next.not_next {p q : α → Prop} (hpq : ∀ a, p a → ¬ q a) :
    ∀ {l : List α}, Next p l → ¬ Next q l
  | [], h => h.elim
  | a :: _, h => hpq a h

/-- What is left after the run does not continue it. -/
theorem not_next_dropWhile (p : α → Bool) (l : List α) :
    ¬ Next (fun a => p a = true) (l.dropWhile p) := by
  have h := List.head?_dropWhile_not p l
  cases hl : l.dropWhile p with
  | nil => exact next_nil _
  | cons a rest =>
    rw [hl] at h
    simpa using h

section Split

variable {p : α → Bool} {run rest : List α}

/-- A run is what `takeWhile` takes. -/
theorem takeWhile_run (hrun : ∀ a ∈ run, p a = true)
    (hrest : ¬ Next (fun a => p a = true) rest) : (run ++ rest).takeWhile p = run := by
  rw [List.takeWhile_append_of_pos hrun]
  cases rest with
  | nil => simp
  | cons a rest => rw [List.takeWhile_cons_of_neg hrest, List.append_nil]

/-- The rest is what `dropWhile` leaves. -/
theorem dropWhile_run (hrun : ∀ a ∈ run, p a = true)
    (hrest : ¬ Next (fun a => p a = true) rest) : (run ++ rest).dropWhile p = rest := by
  rw [List.dropWhile_append_of_pos hrun]
  cases rest with
  | nil => rfl
  | cons a rest => exact List.dropWhile_cons_of_neg hrest

/-- **There is one way to part a list** into a run and what does not continue it. -/
theorem run_unique {run' rest' : List α} (hrun : ∀ a ∈ run, p a = true)
    (hrest : ¬ Next (fun a => p a = true) rest) (hrun' : ∀ a ∈ run', p a = true)
    (hrest' : ¬ Next (fun a => p a = true) rest') (h : run ++ rest = run' ++ rest') :
    run = run' ∧ rest = rest' := by
  constructor
  · rw [← takeWhile_run hrun hrest, h, takeWhile_run hrun' hrest']
  · rw [← dropWhile_run hrun hrest, h, dropWhile_run hrun' hrest']

end Split
end StoreQL
