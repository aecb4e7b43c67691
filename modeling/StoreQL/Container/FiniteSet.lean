/-
# Finite sets

A set keeps its members in a list, each once. Adding and removing say whether the membership
changed; the set operations build a new set and leave the two they are given alone.

Main statements: `mem_insert`, what is a member once an item is added, and `nodup_insert`, that
adding lists no member twice.
-/
namespace StoreQL

/-- A set, by the list of its members. -/
structure FiniteSet (α : Type u) where
  members : List α
deriving DecidableEq, Repr

namespace FiniteSet

variable {α : Type u} [DecidableEq α]

/-- The set without members. -/
def empty : FiniteSet α := ⟨[]⟩

/-- Whether `item` is a member. -/
def contains (s : FiniteSet α) (item : α) : Bool := decide (item ∈ s.members)

/-- The number of members. -/
def size (s : FiniteSet α) : Nat := s.members.length

/-- Whether there are no members. -/
def isEmpty (s : FiniteSet α) : Bool := s.members.isEmpty

/-- The set with one more member, unless it has it. -/
def insert (s : FiniteSet α) (item : α) : FiniteSet α :=
  if s.contains item then s else ⟨s.members ++ [item]⟩

/-- Add a member, and say whether it was not one before. -/
def add (s : FiniteSet α) (item : α) : Bool × FiniteSet α := (!s.contains item, s.insert item)

/-- Remove a member, and say whether it was one before. -/
def remove (s : FiniteSet α) (item : α) : Bool × FiniteSet α :=
  (s.contains item, ⟨s.members.filter (fun x => x ≠ item)⟩)

/-- Remove all members. -/
def clear (_ : FiniteSet α) : FiniteSet α := empty

/-- The set of some items. -/
def ofList (items : List α) : FiniteSet α := items.foldl insert empty

/-- The members of either set. -/
def union (s t : FiniteSet α) : FiniteSet α := t.members.foldl insert s

/-- What is a member once an item is added: the item, and what was one before. -/
@[simp] theorem mem_insert {s : FiniteSet α} {item x : α} :
    x ∈ (s.insert item).members ↔ x ∈ s.members ∨ x = item := by
  unfold insert contains
  split
  · rename_i h
    refine ⟨Or.inl, fun hx => hx.elim id fun he => ?_⟩
    exact he ▸ of_decide_eq_true h
  · simp

/-- Adding an item lists no member twice. -/
theorem nodup_insert {s : FiniteSet α} (h : s.members.Nodup) (item : α) :
    (s.insert item).members.Nodup := by
  unfold insert contains
  split
  · exact h
  · rename_i hi
    rw [decide_eq_true_eq] at hi
    refine List.nodup_append.mpr ⟨h, by simp, fun x hx y hy => ?_⟩
    rw [List.mem_singleton.mp hy]
    exact fun he => hi (he ▸ hx)

/-- The members of both sets. -/
def intersection (s t : FiniteSet α) : FiniteSet α := ⟨s.members.filter t.contains⟩

/-- The members of the first set that are not in the second. -/
def difference (s t : FiniteSet α) : FiniteSet α :=
  ⟨s.members.filter (fun x => !t.contains x)⟩

end FiniteSet
end StoreQL
