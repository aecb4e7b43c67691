/-
# Items with a separator between them

Items are written one after the other with a separator in between, and the question is whether they
can be told from the text. `Told write fit follow` says that an item can be told from what is
written of it, and where it ends, if what is behind it has the property `follow`. Items that can be
told where the separator follows can be told in a row, and a row is an item of a longer row with
another separator.

Main statement: `told_separated`, that items in a row can be told if each of them can.
-/
import Mathlib.Data.List.Basic

namespace StoreQL.Text

/-! ## 1. Rows of items -/

variable {α : Type} {write : α → List Char} {sep : List Char}

/-- Some items, each of them behind a separator. -/
def eachBehind (sep : List Char) (write : α → List Char) (items : List α) : List Char :=
  items.flatMap fun a => sep ++ write a

/-- Some items with a separator between them. -/
def separated (sep : List Char) (write : α → List Char) (items : List α) : List Char :=
  sep.intercalate (items.map write)

@[simp] theorem eachBehind_nil : eachBehind sep write [] = [] := rfl

@[simp] theorem eachBehind_cons (a : α) (items : List α) :
    eachBehind sep write (a :: items) = sep ++ (write a ++ eachBehind sep write items) := by
  simp [eachBehind]

@[simp] theorem separated_nil : separated sep write [] = [] := rfl

@[simp] theorem separated_cons (a : α) (items : List α) :
    separated sep write (a :: items) = write a ++ eachBehind sep write items := by
  induction items generalizing a with
  | nil => simp [separated]
  | cons b items ih =>
    rw [eachBehind_cons, ← ih, ← List.append_assoc]
    exact List.intercalate_cons_cons

theorem eachBehind_eq {items : List α} (hne : items ≠ []) :
    eachBehind sep write items = sep ++ separated sep write items := by
  obtain ⟨a, items, rfl⟩ := List.exists_cons_of_ne_nil hne
  rw [eachBehind_cons, separated_cons]

theorem notMem_separated {c : Char} (hsep : c ∉ sep) (items : List α) :
    c ∉ separated sep write items ↔ ∀ a ∈ items, c ∉ write a := by
  cases items with
  | nil => simp
  | cons a items => simp [eachBehind, hsep]

/-! ## 2. Items that can be told -/

/-- Of the items that are `fit`, what is written of one tells which it is and where it ends, if what
follows has the property `follow`. -/
def Told (write : α → List Char) (fit : α → Prop) (follow : List Char → Prop) : Prop :=
  ∀ a a' rest rest', fit a → fit a' → follow rest → follow rest' →
    write a ++ rest = write a' ++ rest' → a = a' ∧ rest = rest'

section Separator

/- Items can be told where the separator follows. What ends a row of them ends the last item, and
does not begin like another one. -/
variable {fit : α → Prop} {inner outer : List Char → Prop} (htold : Told write fit inner)
  (hsep : ∀ rest, inner (sep ++ rest)) (hend : ∀ rest, outer rest → inner rest)
  (hmore : ∀ a rest, fit a → ¬ outer (sep ++ (write a ++ rest)))

include htold hsep hend hmore

/-- Items that are each behind a separator can be told. -/
theorem told_eachBehind :
    Told (eachBehind sep write) (fun items => ∀ a ∈ items, fit a) outer := by
  have hfollow (items : List α) {rest : List Char} (hrest : outer rest) :
      inner (eachBehind sep write items ++ rest) := by
    cases items with
    | nil => exact hend rest hrest
    | cons a items =>
      rw [eachBehind_cons, List.append_assoc]
      exact hsep _
  -- A row that has ended and one that goes on are not followed by the same.
  have hends {a : α} (ha : fit a) (items : List α) {rest rest' : List Char} (hrest : outer rest) :
      rest ≠ eachBehind sep write (a :: items) ++ rest' := by
    rintro rfl
    rw [eachBehind_cons, List.append_assoc, List.append_assoc] at hrest
    exact hmore a _ ha hrest
  intro items
  induction items with
  | nil =>
    intro items' rest rest' _ hfit' hrest _ heq
    cases items' with
    | nil => exact ⟨rfl, heq⟩
    | cons a' items' => exact absurd heq (hends (hfit' a' List.mem_cons_self) items' hrest)
  | cons a items ih =>
    intro items' rest rest' hfit hfit' hrest hrest' heq
    cases items' with
    | nil => exact absurd heq.symm (hends (hfit a List.mem_cons_self) items hrest')
    | cons a' items' =>
      obtain ⟨hfit, hfits⟩ := List.forall_mem_cons.mp hfit
      obtain ⟨hfit', hfits'⟩ := List.forall_mem_cons.mp hfit'
      simp only [eachBehind_cons, List.append_assoc, List.append_cancel_left_eq] at heq
      obtain ⟨rfl, hbehind⟩ :=
        htold a a' _ _ hfit hfit' (hfollow items hrest) (hfollow items' hrest') heq
      obtain ⟨rfl, rfl⟩ := ih items' rest rest' hfits hfits' hrest hrest' hbehind
      exact ⟨rfl, rfl⟩

/-- **Items with a separator between them can be told**, as long as there are any. -/
theorem told_separated : Told (separated sep write)
    (fun items => items ≠ [] ∧ ∀ a ∈ items, fit a) outer := by
  rintro items items' rest rest' ⟨hne, hfit⟩ ⟨hne', hfit'⟩ hrest hrest' heq
  have hbehind : eachBehind sep write items ++ rest = eachBehind sep write items' ++ rest' := by
    rw [eachBehind_eq hne, eachBehind_eq hne', List.append_assoc, heq, List.append_assoc]
  exact told_eachBehind htold hsep hend hmore items items' rest rest' hfit hfit' hrest hrest' hbehind

/-- If what ends a row does not begin like a first item either, a row of no items can be told too. -/
theorem told_separated_any (hfirst : ∀ a rest, fit a → ¬ outer (write a ++ rest)) :
    Told (separated sep write) (fun items => ∀ a ∈ items, fit a) outer := by
  have hends {a : α} (ha : fit a) (items : List α) {rest rest' : List Char} (hrest : outer rest) :
      rest ≠ separated sep write (a :: items) ++ rest' := by
    rintro rfl
    rw [separated_cons, List.append_assoc] at hrest
    exact hfirst a _ ha hrest
  intro items items' rest rest' hfit hfit' hrest hrest' heq
  cases items with
  | nil =>
    cases items' with
    | nil => exact ⟨rfl, heq⟩
    | cons a' items' => exact absurd heq (hends (hfit' a' List.mem_cons_self) items' hrest)
  | cons a items =>
    cases items' with
    | nil => exact absurd heq.symm (hends (hfit a List.mem_cons_self) items hrest')
    | cons a' items' =>
      exact told_separated htold hsep hend hmore _ _ rest rest' ⟨List.cons_ne_nil _ _, hfit⟩
        ⟨List.cons_ne_nil _ _, hfit'⟩ hrest hrest' heq

end Separator

end StoreQL.Text
