/-
# The pre-order of an outline

The tree of an outline has its nodes in pre-order, so that a traversal meets the handles as they
count up, and the values of the outline at their depths (`Outline.leveled`). The depths say where an
outline ends: at the next value that is not deeper than the topmost one. So nothing is lost when the
shape of an outline is kept as depths alone.

Main statements: `Represents.traverse_handles` and `Represents.traverse_leveled`, what a traversal
meets; `leveled_append_injective`, that values with their depths are those of one outline; and
`Represents.eq_of_traverse`, that two trees with the same traversal are the same.
-/
import StoreQL.Proofs.Container.Traversal
import StoreQL.Proofs.Run

namespace StoreQL

universe u

variable {α : Type u}

/-! ## 1. Handles and depths -/

namespace Outline

mutual

/-- The outline with handles, counted in pre-order from `h` on. -/
def numbered (h : Nat) : Outline α → Outline (Nat × α)
  | .node v children => .node (h, v) (numberedAll (h + 1) children)

/-- Some outlines with handles, laid out one after the other from `h` on. -/
def numberedAll (h : Nat) : List (Outline α) → List (Outline (Nat × α))
  | [] => []
  | o :: rest => o.numbered h :: numberedAll (h + o.size) rest

end

mutual

/-- The values in pre-order, each with its depth, which is `depth` for the topmost node. -/
def leveled (depth : Nat) : Outline α → List (Nat × α)
  | .node v children => (depth, v) :: leveledAll (depth + 1) children

/-- The values of some outlines with their depths, one outline after the other. -/
def leveledAll (depth : Nat) : List (Outline α) → List (Nat × α)
  | [] => []
  | o :: rest => o.leveled depth ++ leveledAll depth rest

end

theorem map_handle_numberedAll (h : Nat) (os : List (Outline α)) :
    (numberedAll h os).map handle = handles h os := by
  induction os generalizing h with
  | nil => rfl
  | cons o rest ih =>
    cases o
    rw [numberedAll, List.map_cons, ih, handles]
    rfl

mutual

/-- Handles count up in pre-order. -/
theorem preorder_numbered : ∀ (o : Outline α) (h : Nat),
    (o.numbered h).preorder = List.range' h o.size
  | .node v children, h => by
    rw [numbered, preorder, values, List.map_cons, preorder_numberedAll children, size,
      Nat.add_comm 1 (sizeAll children), List.range'_succ]

theorem preorder_numberedAll : ∀ (os : List (Outline α)) (h : Nat),
    (valuesAll (numberedAll h os)).map Prod.fst = List.range' h (sizeAll os)
  | [], _ => rfl
  | o :: rest, h => by
    rw [numberedAll, valuesAll, List.map_append, ← preorder, preorder_numbered o,
      preorder_numberedAll rest, sizeAll, List.range'_append_1]

end

mutual

/-- The visits to an outline are to its values, at their depths. -/
theorem map_visits_numbered : ∀ (o : Outline α) (h depth : Nat),
    ((o.numbered h).visits depth).map (fun v => (v.depth, v.value)) = o.leveled depth
  | .node v children, h, depth => by
    rw [numbered, visits, List.map_cons, map_visitsAll_numbered children, leveled]

theorem map_visitsAll_numbered : ∀ (os : List (Outline α)) (h depth : Nat),
    (visitsAll depth (numberedAll h os)).map (fun v => (v.depth, v.value)) = leveledAll depth os
  | [], _, _ => rfl
  | o :: rest, h, depth => by
    rw [numberedAll, visitsAll, List.map_append, map_visits_numbered o, map_visitsAll_numbered rest,
      leveledAll]

end

mutual

theorem map_snd_leveled : ∀ (o : Outline α) (depth : Nat),
    (o.leveled depth).map Prod.snd = o.values
  | .node v children, depth => by
    rw [leveled, List.map_cons, map_snd_leveledAll children, values]

theorem map_snd_leveledAll : ∀ (os : List (Outline α)) (depth : Nat),
    (leveledAll depth os).map Prod.snd = valuesAll os
  | [], _ => rfl
  | o :: rest, depth => by
    rw [leveledAll, List.map_append, map_snd_leveled o, map_snd_leveledAll rest, valuesAll]

end

/-! ## 2. Depths determine an outline -/

/-- Behind an outline come its siblings, none of which begins deeper than it. -/
theorem not_next_deeper {depth : Nat} {os : List (Outline α)} {rest : List (Nat × α)}
    (hrest : ¬ Next (fun l => depth ≤ l.1) rest) :
    ¬ Next (fun l => depth < l.1) (leveledAll depth os ++ rest) := by
  cases os with
  | nil =>
    intro hnext
    rw [leveledAll, List.nil_append] at hnext
    exact hrest (hnext.mono fun _ => Nat.le_of_lt)
  | cons o os =>
    cases o
    exact Nat.lt_irrefl depth

/-- Outlines begin at their depth, so what does not cannot begin with one. -/
theorem leveledAll_cons_append_ne {depth : Nat} {o : Outline α} {os : List (Outline α)}
    {rest rest' : List (Nat × α)} (hrest : ¬ Next (fun l => depth ≤ l.1) rest) :
    rest ≠ leveledAll depth (o :: os) ++ rest' := by
  rintro rfl
  cases o
  exact hrest (Nat.le_refl depth)

mutual

/-- **Values with their depths are those of one outline**, whatever comes behind it. -/
theorem leveled_append_injective : ∀ {o o' : Outline α} {depth : Nat} {rest rest' : List (Nat × α)},
    ¬ Next (fun l => depth < l.1) rest → ¬ Next (fun l => depth < l.1) rest' →
    o.leveled depth ++ rest = o'.leveled depth ++ rest' → o = o' ∧ rest = rest'
  | .node v children, .node v' children', depth, rest, rest', hrest, hrest', heq => by
    rw [leveled, leveled, List.cons_append, List.cons_append, List.cons.injEq, Prod.mk.injEq] at heq
    obtain ⟨⟨-, rfl⟩, heq⟩ := heq
    obtain ⟨rfl, rfl⟩ := leveledAll_append_injective hrest hrest' heq
    exact ⟨rfl, rfl⟩

theorem leveledAll_append_injective : ∀ {os os' : List (Outline α)} {depth : Nat}
    {rest rest' : List (Nat × α)},
    ¬ Next (fun l => depth ≤ l.1) rest → ¬ Next (fun l => depth ≤ l.1) rest' →
    leveledAll depth os ++ rest = leveledAll depth os' ++ rest' → os = os' ∧ rest = rest'
  | [], [], _, _, _, _, _, heq => ⟨rfl, heq⟩
  | [], _ :: _, _, _, _, hrest, _, heq => absurd heq (leveledAll_cons_append_ne hrest)
  | _ :: _, [], _, _, _, _, hrest', heq => absurd heq.symm (leveledAll_cons_append_ne hrest')
  | o :: os, o' :: os', depth, rest, rest', hrest, hrest', heq => by
    rw [leveledAll, leveledAll, List.append_assoc, List.append_assoc] at heq
    obtain ⟨rfl, hsiblings⟩ :=
      leveled_append_injective (not_next_deeper hrest) (not_next_deeper hrest') heq
    obtain ⟨rfl, rfl⟩ := leveledAll_append_injective hrest hrest' hsiblings
    exact ⟨rfl, rfl⟩

end

theorem leveled_injective {o o' : Outline α} {depth : Nat}
    (h : o.leveled depth = o'.leveled depth) : o = o' := by
  have heq : o.leveled depth ++ [] = o'.leveled depth ++ [] := by rw [h]
  exact (leveled_append_injective (next_nil _) (next_nil _) heq).1

end Outline

open Outline

/-! ## 3. The traversal of the tree of an outline -/

namespace Tree

variable {t t' : Tree α} {o o' : Outline α}

mutual

/-- What a tree holds at a handle is what hangs under it. -/
theorem Holds.spans : ∀ {o : Outline α} {h : Nat} {parent : Option Nat},
    t.Holds h parent o → t.Spans (o.numbered h)
  | .node v children, h, parent, hheld => by
    simp only [Holds] at hheld
    simp only [numbered, Spans]
    refine ⟨?_, ?_, HoldsAll.spans hheld.2⟩
    · rw [Tree.get?, hheld.1, Option.map_some]
    · rw [childHandles, hheld.1, map_handle_numberedAll, Option.map_some, Option.getD_some]

theorem HoldsAll.spans : ∀ {os : List (Outline α)} {h parent : Nat},
    t.HoldsAll h parent os → t.SpansAll (numberedAll h os)
  | [], _, _, _ => trivial
  | o :: rest, h, parent, hheld => by
    simp only [HoldsAll] at hheld
    simp only [numberedAll, SpansAll]
    exact ⟨Holds.spans hheld.1, HoldsAll.spans hheld.2⟩

end

theorem Represents.traverse_eq (h : t.Represents o) : t.traverse = (o.numbered root).visits 0 := by
  have hroot : (o.numbered root).handle = root := by
    cases o
    rfl
  have hwalks : t.Walks [(root, 0)] ((o.numbered root).visits 0) := by
    have hwalks := h.holds.spans.walks 0 .done
    rwa [hroot, List.append_nil] at hwalks
  have hlength : ((o.numbered root).visits 0).length = t.size := by
    rw [← List.length_map Visit.handle, map_handle_visits, preorder_numbered, List.length_range',
      h.size_eq]
  exact hwalks.walk_eq t.size (Nat.le_of_eq hlength)

/-- **A traversal meets the handles as they count up.** -/
theorem Represents.traverse_handles (h : t.Represents o) :
    t.traverse.map Visit.handle = List.range t.size := by
  rw [h.traverse_eq, map_handle_visits, preorder_numbered, h.size_eq, root,
    List.range_eq_range']

/-- **A traversal meets the values of the outline**, at their depths. -/
theorem Represents.traverse_leveled (h : t.Represents o) :
    t.traverse.map (fun v => (v.depth, v.value)) = o.leveled 0 := by
  rw [h.traverse_eq, map_visits_numbered]

theorem Represents.value_mem (h : t.Represents o) {v : Visit α} (hv : v ∈ t.traverse) :
    v.value ∈ o.values := by
  have hmem : (v.depth, v.value) ∈ o.leveled 0 := by
    rw [← h.traverse_leveled]
    exact List.mem_map_of_mem hv
  rw [← map_snd_leveled o 0]
  exact List.mem_map_of_mem hmem

/-- **Trees with the same traversal are the same**, the handles left out of account. -/
theorem Represents.eq_of_traverse (h : t.Represents o) (h' : t'.Represents o')
    (heq : t.traverse.map (fun v => (v.depth, v.value)) =
      t'.traverse.map (fun v => (v.depth, v.value))) : t = t' := by
  rw [h.traverse_leveled, h'.traverse_leveled] at heq
  rw [represents_iff.mp h, represents_iff.mp h', leveled_injective heq]

end Tree
end StoreQL
