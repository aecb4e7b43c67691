/-
# The algebra of sets

Sets are made, changed and combined in any order, and each is known by its place among those that
there are. A union, an intersection or a difference is a new set, and the two that it is made of,
which may be one and the same, stay as they are. A set may list its members in any order, and in
another one the next time: `Arises sets` leaves room for this wherever it could happen.

What carries the equations of sizes is that no set ever lists a member twice (`Arises.nodup`). Main
statements: `mem_union` and its likes, what the members are; `size_union_add_size_intersection` and
`size_difference_add_size_intersection`; and `arises_algebra`, which says all this of any sets that
can come about.
-/
import Mathlib.Data.Finset.Card
import Mathlib.Data.List.Basic
import StoreQL.Container.FiniteSet

namespace StoreQL
namespace FiniteSet

universe u

variable {α : Type u} [DecidableEq α] {s t : FiniteSet α} {item x : α} {items : List α}

/-! ## 1. Members -/

theorem contains_iff : s.contains x = true ↔ x ∈ s.members := decide_eq_true_iff

/-- Items that are added one after the other. -/
theorem mem_foldl_insert :
    x ∈ (items.foldl insert s).members ↔ x ∈ s.members ∨ x ∈ items := by
  induction items generalizing s with
  | nil => simp
  | cons item items ih => rw [List.foldl_cons, ih, mem_insert, List.mem_cons, or_assoc]

theorem mem_ofList : x ∈ (ofList items).members ↔ x ∈ items := by
  simp [ofList, mem_foldl_insert, empty]

theorem mem_union : x ∈ (s.union t).members ↔ x ∈ s.members ∨ x ∈ t.members := mem_foldl_insert

theorem mem_intersection : x ∈ (s.intersection t).members ↔ x ∈ s.members ∧ x ∈ t.members := by
  simp [intersection, contains_iff]

theorem mem_difference : x ∈ (s.difference t).members ↔ x ∈ s.members ∧ x ∉ t.members := by
  simp [difference, contains]

theorem mem_remove : x ∈ (s.remove item).2.members ↔ x ∈ s.members ∧ x ≠ item := by
  simp [remove]

/-! ## 2. No member twice -/

theorem nodup_foldl_insert (h : s.members.Nodup) (items : List α) :
    (items.foldl insert s).members.Nodup := by
  induction items generalizing s with
  | nil => exact h
  | cons item items ih => exact ih (nodup_insert h item)

theorem nodup_ofList (items : List α) : (ofList items).members.Nodup :=
  nodup_foldl_insert List.nodup_nil items

theorem nodup_remove (h : s.members.Nodup) (item : α) : (s.remove item).2.members.Nodup :=
  h.filter _

theorem nodup_union (h : s.members.Nodup) (t : FiniteSet α) : (s.union t).members.Nodup :=
  nodup_foldl_insert h t.members

theorem nodup_intersection (h : s.members.Nodup) (t : FiniteSet α) :
    (s.intersection t).members.Nodup := h.filter _

theorem nodup_difference (h : s.members.Nodup) (t : FiniteSet α) :
    (s.difference t).members.Nodup := h.filter _

/-! ## 3. Sizes -/

/-- An item makes a set larger by one exactly if it is new. -/
theorem size_insert (s : FiniteSet α) (item : α) :
    (s.insert item).size = s.size + (!s.contains item).toNat := by
  unfold insert
  cases s.contains item <;> simp [size]

/-- A member that is removed makes a set smaller by one. -/
theorem size_remove (h : s.members.Nodup) (item : α) :
    (s.remove item).2.size + (s.contains item).toNat = s.size := by
  have herase : (s.remove item).2.members = s.members.erase item := by
    rw [h.erase_eq_filter]
    simp [remove, bne, beq_eq_decide]
  rw [size, herase, size]
  by_cases hmem : item ∈ s.members
  · rw [contains_iff.mpr hmem, List.length_erase_of_mem hmem]
    exact Nat.sub_add_cancel (List.length_pos_of_mem hmem)
  · rw [Bool.eq_false_iff.mpr (mt contains_iff.mp hmem), List.erase_of_not_mem hmem]
    rfl

/-- **The members of both sets are counted twice.** -/
theorem size_union_add_size_intersection (hs : s.members.Nodup) (ht : t.members.Nodup) :
    (s.union t).size + (s.intersection t).size = s.size + t.size := by
  have hcard {r : FiniteSet α} (hr : r.members.Nodup) : r.size = r.members.toFinset.card :=
    (List.toFinset_card_of_nodup hr).symm
  have hunion : (s.union t).members.toFinset = s.members.toFinset ∪ t.members.toFinset := by
    ext x
    simp [mem_union]
  have hintersection :
      (s.intersection t).members.toFinset = s.members.toFinset ∩ t.members.toFinset := by
    ext x
    simp [mem_intersection]
  rw [hcard (nodup_union hs t), hcard (nodup_intersection hs t), hcard hs, hcard ht, hunion,
    hintersection]
  exact Finset.card_union_add_card_inter _ _

/-- **A member of the first set is in the second or not.** -/
theorem size_difference_add_size_intersection (s t : FiniteSet α) :
    (s.difference t).size + (s.intersection t).size = s.size := by
  rw [size, size, size, Nat.add_comm]
  exact (List.length_eq_length_filter_add t.contains).symm

/-! ## 4. Sets that come about -/

/-- What is asked of some sets, each of them known by its place. -/
inductive Request (α : Type u) where
  | create
  | collect (items : List α)
  | add (place : Nat) (item : α)
  | remove (place : Nat) (item : α)
  | clear (place : Nat)
  | union (left right : Nat)
  | intersection (left right : Nat)
  | difference (left right : Nat)
deriving Repr

/-- The sets with a new one at the end that is made of two of them. -/
def combine (sets : List (FiniteSet α)) (left right : Nat)
    (f : FiniteSet α → FiniteSet α → FiniteSet α) : List (FiniteSet α) :=
  match sets[left]?, sets[right]? with
  | some s, some t => sets ++ [f s t]
  | _, _ => sets

/-- The answer to a request if it has one, and the sets afterwards. -/
def perform (sets : List (FiniteSet α)) : Request α → Option Bool × List (FiniteSet α)
  | .create => (none, sets ++ [empty])
  | .collect items => (none, sets ++ [ofList items])
  | .add i item => (sets[i]?.map fun s => (s.add item).1, sets.modify i fun s => (s.add item).2)
  | .remove i item =>
    (sets[i]?.map fun s => (s.remove item).1, sets.modify i fun s => (s.remove item).2)
  | .clear i => (none, sets.modify i clear)
  | .union i j => (none, combine sets i j union)
  | .intersection i j => (none, combine sets i j intersection)
  | .difference i j => (none, combine sets i j difference)

/-- The sets can come about: by requests, and by listing the members of a set in another order. -/
inductive Arises : List (FiniteSet α) → Prop where
  | nothing : Arises []
  | asked {sets : List (FiniteSet α)} (r : Request α) : Arises sets → Arises (perform sets r).2
  | relist {sets : List (FiniteSet α)} {i : Nat} {s t : FiniteSet α} : Arises sets →
      sets[i]? = some s → s.members.Perm t.members → Arises (sets.set i t)

variable {sets : List (FiniteSet α)}

omit [DecidableEq α] in
theorem forall_mem_modify {P : FiniteSet α → Prop} {f : FiniteSet α → FiniteSet α}
    (h : ∀ s ∈ sets, P s) (hf : ∀ s, P s → P (f s)) (i : Nat) : ∀ s ∈ sets.modify i f, P s := by
  intro s hs
  obtain ⟨k, hk⟩ := List.mem_iff_getElem?.mp hs
  rw [List.getElem?_modify] at hk
  obtain ⟨s', hs', rfl⟩ := Option.map_eq_some_iff.mp hk
  have hold : P s' := h s' (List.mem_of_getElem? hs')
  split
  · exact hf s' hold
  · exact hold

omit [DecidableEq α] in
theorem forall_mem_combine {P : FiniteSet α → Prop}
    {f : FiniteSet α → FiniteSet α → FiniteSet α} (h : ∀ s ∈ sets, P s)
    (hf : ∀ s t, P s → P (f s t)) (i j : Nat) : ∀ s ∈ combine sets i j f, P s := by
  unfold combine
  split
  · rename_i s t hs ht
    rw [List.forall_mem_append, List.forall_mem_singleton]
    exact ⟨h, hf s t (h s (List.mem_of_getElem? hs))⟩
  · exact h

/-- A request lets no set list a member twice. -/
theorem nodup_perform (h : ∀ s ∈ sets, s.members.Nodup) (r : Request α) :
    ∀ s ∈ (perform sets r).2, s.members.Nodup := by
  cases r with
  | create =>
    rw [perform, List.forall_mem_append, List.forall_mem_singleton]
    exact ⟨h, List.nodup_nil⟩
  | collect items =>
    rw [perform, List.forall_mem_append, List.forall_mem_singleton]
    exact ⟨h, nodup_ofList items⟩
  | add i item => exact forall_mem_modify h (fun _ hs => nodup_insert hs item) i
  | remove i item => exact forall_mem_modify h (fun _ hs => nodup_remove hs item) i
  | clear i => exact forall_mem_modify h (fun _ _ => List.nodup_nil) i
  | union i j => exact forall_mem_combine h (fun _ t hs => nodup_union hs t) i j
  | intersection i j => exact forall_mem_combine h (fun _ t hs => nodup_intersection hs t) i j
  | difference i j => exact forall_mem_combine h (fun _ t hs => nodup_difference hs t) i j

/-- **No set that comes about lists a member twice.** -/
theorem Arises.nodup (h : Arises sets) : ∀ s ∈ sets, s.members.Nodup := by
  induction h with
  | nothing => exact fun _ hs => absurd hs List.not_mem_nil
  | asked r _ ih => exact nodup_perform ih r
  | relist _ hs hperm ih =>
    intro s' hs'
    rcases List.mem_or_eq_of_mem_set hs' with hs' | rfl
    · exact ih s' hs'
    · exact hperm.nodup_iff.mp (ih _ (List.mem_of_getElem? hs))

/-! ## 5. Their algebra -/

/-- What is known of the set `s` at the place `i`, and what requests make of it. -/
structure Single (sets : List (FiniteSet α)) (i : Nat) (s : FiniteSet α) : Prop where
  nodup : s.members.Nodup
  size_eq : s.size = s.members.length
  contains_iff : ∀ x, s.contains x = true ↔ x ∈ s.members
  add : ∀ item, perform sets (.add i item) = (some (s.add item).1, sets.set i (s.add item).2)
  contains_add : ∀ item x, (s.add item).2.contains x = (s.contains x || decide (x = item))
  added_iff : ∀ item, (s.add item).1 = true ↔ (s.add item).2.contains item ≠ s.contains item
  size_add : ∀ item, (s.add item).2.size = s.size + (s.add item).1.toNat
  remove : ∀ item,
    perform sets (.remove i item) = (some (s.remove item).1, sets.set i (s.remove item).2)
  contains_remove : ∀ item x,
    (s.remove item).2.contains x = (s.contains x && !decide (x = item))
  removed_iff : ∀ item,
    (s.remove item).1 = true ↔ (s.remove item).2.contains item ≠ s.contains item
  size_remove : ∀ item, (s.remove item).2.size + (s.remove item).1.toNat = s.size
  clear : perform sets (.clear i) = (none, sets.set i s.clear) ∧ ∀ x, s.clear.contains x = false

/-- What is known of the sets `s` at the place `i` and `t` at the place `j`, which may be the same,
and of what they are made into. -/
structure Pair (sets : List (FiniteSet α)) (i j : Nat) (s t : FiniteSet α) : Prop where
  union : perform sets (.union i j) = (none, sets ++ [s.union t])
  intersection : perform sets (.intersection i j) = (none, sets ++ [s.intersection t])
  difference : perform sets (.difference i j) = (none, sets ++ [s.difference t])
  contains_union : ∀ x, (s.union t).contains x = (s.contains x || t.contains x)
  contains_intersection : ∀ x, (s.intersection t).contains x = (s.contains x && t.contains x)
  contains_difference : ∀ x, (s.difference t).contains x = (s.contains x && !t.contains x)
  size_union : (s.union t).size + (s.intersection t).size = s.size + t.size
  size_difference : (s.difference t).size + (s.intersection t).size = s.size

omit [DecidableEq α] in
theorem modify_eq_set {i : Nat} (hs : sets[i]? = some s) (f : FiniteSet α → FiniteSet α) :
    sets.modify i f = sets.set i (f s) := by
  rw [List.modify_eq_set_getElem?, hs]
  rfl

theorem single_of_nodup {i : Nat} (hs : sets[i]? = some s) (hnodup : s.members.Nodup) :
    Single sets i s where
  nodup := hnodup
  size_eq := rfl
  contains_iff _ := FiniteSet.contains_iff
  add item := by rw [perform, hs, modify_eq_set hs]; rfl
  contains_add item x := by simp [contains, FiniteSet.add]
  added_iff item := by
    have hafter : (s.add item).2.contains item = true := by simp [FiniteSet.add, contains]
    rw [hafter]
    cases h : s.contains item <;> simp [FiniteSet.add, h]
  size_add := size_insert s
  remove item := by rw [perform, hs, modify_eq_set hs]; rfl
  contains_remove item x := by simp [contains, mem_remove]
  removed_iff item := by
    have hafter : (s.remove item).2.contains item = false := by simp [FiniteSet.remove, contains]
    rw [hafter]
    cases h : s.contains item <;> simp [FiniteSet.remove, h]
  size_remove := FiniteSet.size_remove hnodup
  clear := ⟨by rw [perform, modify_eq_set hs], fun _ => rfl⟩

theorem pair_of_nodup {i j : Nat} (hs : sets[i]? = some s) (ht : sets[j]? = some t)
    (hsnodup : s.members.Nodup) (htnodup : t.members.Nodup) : Pair sets i j s t where
  union := by rw [perform, combine, hs, ht]
  intersection := by rw [perform, combine, hs, ht]
  difference := by rw [perform, combine, hs, ht]
  contains_union x := by simp [contains, mem_union]
  contains_intersection x := by simp [contains, mem_intersection]
  contains_difference x := by simp [contains, mem_difference]
  size_union := size_union_add_size_intersection hsnodup htnodup
  size_difference := size_difference_add_size_intersection s t

/-- **The algebra of sets holds whatever has been done before.** A set lists each of its members
once and is as large as their list; adding and removing answer whether the membership of the item
changed, and with it the size by one; and a union, an intersection or a difference is a new set that
has the members it should and leaves all others as they are. The sizes of union and intersection
make up those of the two sets, and those of difference and intersection that of the first. -/
theorem arises_algebra (h : Arises sets) :
    (∀ i s, sets[i]? = some s → Single sets i s) ∧
      (∀ i j s t, sets[i]? = some s → sets[j]? = some t → Pair sets i j s t) ∧
      perform sets .create = (none, sets ++ [empty]) ∧
      (∀ x : α, (empty : FiniteSet α).contains x = false) ∧
      ∀ items, perform sets (.collect items) = (none, sets ++ [ofList items]) ∧
        ∀ x, (ofList items).contains x = decide (x ∈ items) := by
  have hnodup {i : Nat} {s : FiniteSet α} (hs : sets[i]? = some s) : s.members.Nodup :=
    h.nodup s (List.mem_of_getElem? hs)
  refine ⟨fun i s hs => single_of_nodup hs (hnodup hs),
    fun i j s t hs ht => pair_of_nodup hs ht (hnodup hs) (hnodup ht), rfl, fun _ => rfl,
    fun items => ⟨rfl, fun x => ?_⟩⟩
  simp [contains, mem_ofList]

/-- A set of three items that were collected with a repetition and are listed in another order, with
itself and with a smaller set. -/
theorem arises_algebra_three :
    let s : FiniteSet Nat := ⟨[3, 1, 2]⟩
    let t : FiniteSet Nat := ⟨[3]⟩
    Arises [s, t] ∧ Pair [s, t] 0 1 s t ∧ Pair [s, t] 0 0 s s ∧ Single [s, t] 0 s ∧
      (s.difference t).size + (s.intersection t).size = 3 := by
  intro s t
  have hfirst : Arises [ofList [1, 2, 2, 3, 1]] := .asked (.collect [1, 2, 2, 3, 1]) .nothing
  have hrelisted : Arises [s] :=
    hfirst.relist (i := 0) (s := ofList [1, 2, 2, 3, 1]) rfl (by decide)
  have hcreated : Arises [s, empty] := .asked .create hrelisted
  have hadded : Arises [s, t] := .asked (.add 1 3) hcreated
  obtain ⟨hsingle, hpair, -⟩ := arises_algebra hadded
  exact ⟨hadded, hpair 0 1 s t rfl rfl, hpair 0 0 s s rfl rfl, hsingle 0 s rfl,
    (hpair 0 1 s t rfl rfl).size_difference⟩

end FiniteSet
end StoreQL
