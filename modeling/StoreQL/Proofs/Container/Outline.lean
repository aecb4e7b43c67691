/-
# What the tree of an outline holds

An `Outline` is a tree as a value: a node with the outlines of its children. `Tree.graft` puts one
under a node of a tree, and `Tree.ofOutline` is the tree of nothing but one.

`Tree.Holds t h parent o` says that `t` holds the outline `o` at the handle `h`: the entry at `h`
has the value of `o`, the given parent and the handles of the children of `o`, and the outlines of
those stand at their own handles, one after the other. Handles count the nodes in pre-order, so the
whole of `o` takes the handles from `h` on, as many as it has nodes.

`Tree.Represents t o` says that `t` is `o` and nothing else. Main statements: `represents_iff`, that
the one tree of which this is true is `Tree.ofOutline o`; and `children_of_holds`, what is found under
a handle.
-/
import StoreQL.Container.Tree

namespace StoreQL

universe u

variable {α : Type u}

/-! ## 1. Outlines and their handles -/

/-- A tree as a value: a node and what hangs under it. -/
inductive Outline (α : Type u) where
  | node (value : α) (children : List (Outline α))
deriving Repr

namespace Outline

/-- The value of the topmost node. -/
def value : Outline α → α
  | .node v _ => v

mutual

/-- The number of nodes. -/
def size : Outline α → Nat
  | .node _ children => 1 + sizeAll children

/-- The number of nodes of some outlines. -/
def sizeAll : List (Outline α) → Nat
  | [] => 0
  | o :: rest => o.size + sizeAll rest

end

/-- The handles of some outlines that are laid out one after the other from `h` on. -/
def handles (h : Nat) : List (Outline α) → List Nat
  | [] => []
  | o :: rest => h :: handles (h + o.size) rest

mutual

/-- The values in pre-order: that of the topmost node, and then those under each of its children. -/
def values : Outline α → List α
  | .node v children => v :: valuesAll children

/-- The values of some outlines, one after the other. -/
def valuesAll : List (Outline α) → List α
  | [] => []
  | o :: rest => o.values ++ valuesAll rest

end

mutual

theorem length_values : ∀ o : Outline α, o.values.length = o.size
  | .node v children => by
    simp only [values, List.length_cons, length_valuesAll children, size]
    omega

theorem length_valuesAll : ∀ os : List (Outline α), (valuesAll os).length = sizeAll os
  | [] => rfl
  | o :: rest => by
    simp only [valuesAll, List.length_append, length_values o, length_valuesAll rest, sizeAll]

end

theorem valuesAll_eq_flatMap (os : List (Outline α)) : valuesAll os = os.flatMap values := by
  induction os with
  | nil => rfl
  | cons o rest ih => rw [valuesAll, ih, List.flatMap_cons]

theorem valuesAll_leaf_cons (v : α) (os : List (Outline α)) :
    valuesAll (.node v [] :: os) = v :: valuesAll os := rfl

theorem valuesAll_append (os os' : List (Outline α)) :
    valuesAll (os ++ os') = valuesAll os ++ valuesAll os' := by
  simp only [valuesAll_eq_flatMap, List.flatMap_append]

end Outline

open Outline

namespace Tree

mutual

/-- The tree with an outline under the node `parent`, which it has. -/
def graft (t : Tree α) (parent : Nat) : Outline α → Tree α
  | .node value children =>
    let handle := t.size
    graftAll (t.append parent value) handle children

/-- The tree with some outlines under the node `parent`, which it has. -/
def graftAll (t : Tree α) (parent : Nat) : List (Outline α) → Tree α
  | [] => t
  | o :: rest => graftAll (t.graft parent o) parent rest

end

/-- The tree of an outline, its nodes in pre-order. -/
def ofOutline : Outline α → Tree α
  | .node value children => (singleton value).graftAll root children

mutual

/-- The tree holds an outline at a handle, under a parent or none. -/
def Holds (t : Tree α) (h : Nat) (parent : Option Nat) : Outline α → Prop
  | .node v children =>
    t.entries[h]? = some ⟨v, parent, (handles (h + 1) children).toArray⟩ ∧
      HoldsAll t (h + 1) h children

/-- The tree holds some outlines one after the other from a handle on, all under one parent. -/
def HoldsAll (t : Tree α) (h parent : Nat) : List (Outline α) → Prop
  | [] => True
  | o :: rest => t.Holds h (some parent) o ∧ HoldsAll t (h + o.size) parent rest

end

/-- The tree is an outline, its nodes numbered in pre-order. -/
structure Represents (t : Tree α) (o : Outline α) : Prop where
  size_eq : t.size = o.size
  holds : t.Holds root none o

/-! ## 2. Only the entries of its own handles matter to an outline -/

mutual

theorem Holds.congr {t t' : Tree α} : ∀ {o : Outline α} {h : Nat} {parent : Option Nat},
    (∀ i, h ≤ i → i < h + o.size → t'.entries[i]? = t.entries[i]?) →
    t.Holds h parent o → t'.Holds h parent o
  | .node v children, h, parent, hsame, hheld => by
    simp only [Outline.size] at hsame
    simp only [Holds] at hheld ⊢
    refine ⟨?_, HoldsAll.congr (fun i hlo hhi => hsame i (by omega) (by omega)) hheld.2⟩
    rw [hsame h (Nat.le_refl h) (by omega)]
    exact hheld.1

theorem HoldsAll.congr {t t' : Tree α} : ∀ {os : List (Outline α)} {h parent : Nat},
    (∀ i, h ≤ i → i < h + sizeAll os → t'.entries[i]? = t.entries[i]?) →
    t.HoldsAll h parent os → t'.HoldsAll h parent os
  | [], _, _, _, _ => by simp [HoldsAll]
  | o :: rest, h, parent, hsame, hheld => by
    simp only [sizeAll] at hsame
    simp only [HoldsAll] at hheld ⊢
    exact ⟨Holds.congr (fun i hlo hhi => hsame i hlo (by omega)) hheld.1,
      HoldsAll.congr (fun i hlo hhi => hsame i (by omega) (by omega)) hheld.2⟩

end

mutual

/-- Two trees that hold the same outline at the same handle agree on all its entries. -/
theorem Holds.entries_eq {t t' : Tree α} : ∀ {o : Outline α} {h : Nat} {parent : Option Nat},
    t.Holds h parent o → t'.Holds h parent o →
    ∀ i, h ≤ i → i < h + o.size → t.entries[i]? = t'.entries[i]?
  | .node v children, h, parent, hheld, hheld', i, hlo, hhi => by
    simp only [Holds] at hheld hheld'
    simp only [Outline.size] at hhi
    rcases Nat.eq_or_lt_of_le hlo with rfl | hlt
    · rw [hheld.1, hheld'.1]
    · exact HoldsAll.entries_eq hheld.2 hheld'.2 i hlt (by omega)

theorem HoldsAll.entries_eq {t t' : Tree α} : ∀ {os : List (Outline α)} {h parent : Nat},
    t.HoldsAll h parent os → t'.HoldsAll h parent os →
    ∀ i, h ≤ i → i < h + sizeAll os → t.entries[i]? = t'.entries[i]?
  | [], h, _, _, _, i, hlo, hhi => by
    simp only [sizeAll] at hhi
    omega
  | o :: rest, h, parent, hheld, hheld', i, hlo, hhi => by
    simp only [HoldsAll] at hheld hheld'
    simp only [sizeAll] at hhi
    by_cases hi : i < h + o.size
    · exact Holds.entries_eq hheld.1 hheld'.1 i hlo hi
    · exact HoldsAll.entries_eq hheld.2 hheld'.2 i (by omega) (by omega)

end

/-! ## 3. What grafting adds -/

/-- `t'` is `t` with the nodes `new` as further children of the node `parent`, and with more
entries at the end. -/
structure Extends (t t' : Tree α) (parent : Nat) (new : List Nat) : Prop where
  others : ∀ i, i < t.size → i ≠ parent → t'.entries[i]? = t.entries[i]?
  parent : t'.entries[parent]? =
    t.entries[parent]?.map (fun e => { e with children := e.children ++ new.toArray })

theorem extends_self (t : Tree α) (parent : Nat) : t.Extends t parent [] where
  others _ _ _ := rfl
  parent := by simp

theorem Extends.trans {t t' t'' : Tree α} {parent : Nat} {new new' : List Nat}
    (h : t.Extends t' parent new) (h' : t'.Extends t'' parent new') (hsize : t.size ≤ t'.size) :
    t.Extends t'' parent (new ++ new') where
  others i hi hne := by rw [h'.others i (by omega) hne, h.others i hi hne]
  parent := by
    rw [h'.parent, h.parent, Option.map_map]
    congr 1
    funext e
    simp

/-- The new node has the entry of a leaf, its parent one child more, and the others are the same. -/
theorem entries_append (t : Tree α) (parent : Nat) (v : α) (h : Nat) :
    (t.append parent v).entries[h]? =
      if h = t.size then some ⟨v, some parent, #[]⟩
      else if h = parent then
        t.entries[h]?.map fun e => { e with children := e.children.push t.size }
      else t.entries[h]? := by
  have hsize : t.size = t.entries.size := rfl
  simp only [append, Array.getElem?_push, Array.size_modify, Array.getElem?_modify, hsize]
  by_cases hp : parent = h
  · subst hp
    simp
  · simp [hp, Ne.symm hp]

/-- The new node of `append` is a leaf, and its parent has one more child. -/
theorem append_extends {t : Tree α} {parent : Nat} (h : parent < t.size) (v : α) :
    t.Extends (t.append parent v) parent [t.size] ∧
      (t.append parent v).entries[t.size]? = some ⟨v, some parent, #[]⟩ := by
  refine ⟨⟨?_, ?_⟩, ?_⟩
  · intro i hi hne
    rw [entries_append, if_neg (Nat.ne_of_lt hi), if_neg hne]
  · rw [entries_append, if_neg (Nat.ne_of_lt h), if_pos rfl]
    simp
  · rw [entries_append, if_pos rfl]

mutual

theorem size_graft : ∀ (o : Outline α) (t : Tree α) (parent : Nat),
    (t.graft parent o).size = t.size + o.size
  | .node v children, t, parent => by
    simp only [graft, size_graftAll children, size_append, Outline.size]
    omega

theorem size_graftAll : ∀ (os : List (Outline α)) (t : Tree α) (parent : Nat),
    (t.graftAll parent os).size = t.size + sizeAll os
  | [], t, parent => by simp [graftAll, sizeAll]
  | o :: rest, t, parent => by
    simp only [graftAll, size_graftAll rest, size_graft o, sizeAll]
    omega

end

theorem graftAll_append (os os' : List (Outline α)) (t : Tree α) (parent : Nat) :
    t.graftAll parent (os ++ os') = (t.graftAll parent os).graftAll parent os' := by
  induction os generalizing t with
  | nil => simp only [graftAll, List.nil_append]
  | cons o rest ih => simp only [graftAll, List.cons_append, ih]

mutual

/-- **A grafted outline is held at the old size**, and nothing else changes but the children of
the node that it hangs under. -/
theorem graft_holds : ∀ (o : Outline α) {t : Tree α} {parent : Nat}, parent < t.size →
    t.Extends (t.graft parent o) parent [t.size] ∧
      (t.graft parent o).Holds t.size (some parent) o
  | .node v children, t, parent, h => by
    obtain ⟨hext, hnew⟩ := append_extends h v
    have hlt : t.size < (t.append parent v).size := by simp
    obtain ⟨hall, hheld⟩ := graftAll_holds children hlt
    simp only [graft, Holds, size_append] at hall hheld ⊢
    refine ⟨⟨?_, ?_⟩, ?_, hheld⟩
    · intro i hi hne
      rw [hall.others i (by simp; omega) (by omega), hext.others i hi hne]
    · rw [hall.others parent (by simp; omega) (by omega), hext.parent]
    · rw [hall.parent, hnew]
      simp

theorem graftAll_holds : ∀ (os : List (Outline α)) {t : Tree α} {parent : Nat}, parent < t.size →
    t.Extends (t.graftAll parent os) parent (handles t.size os) ∧
      (t.graftAll parent os).HoldsAll t.size parent os
  | [], t, parent, _ => by
    simp only [graftAll, HoldsAll, and_true]
    exact extends_self t parent
  | o :: rest, t, parent, h => by
    obtain ⟨hext, hheld⟩ := graft_holds o h
    have hsize := size_graft o t parent
    have hlt : parent < (t.graft parent o).size := by omega
    obtain ⟨hall, hrest⟩ := graftAll_holds rest hlt
    rw [hsize] at hall hrest
    simp only [graftAll, HoldsAll]
    refine ⟨hext.trans hall (by omega), Holds.congr (fun i hlo hhi => ?_) hheld, hrest⟩
    exact hall.others i (by omega) (by omega)

end

/-! ## 4. The tree of an outline -/

/-- **The tree of an outline is the outline.** -/
theorem ofOutline_represents : ∀ o : Outline α, (ofOutline o).Represents o
  | .node v children => by
    have hlt : root < (singleton v).size := by simp [root]
    obtain ⟨hext, hheld⟩ := graftAll_holds children hlt
    refine ⟨?_, ?_⟩
    · simp only [ofOutline, size_graftAll, size_singleton, Outline.size]
    · simp only [ofOutline, Holds]
      refine ⟨?_, hheld⟩
      rw [hext.parent]
      simp [singleton, root, size]

/-- **No other tree is.** -/
theorem represents_iff {t : Tree α} {o : Outline α} : t.Represents o ↔ t = ofOutline o := by
  constructor
  · intro h
    have h' := ofOutline_represents o
    have hentries : t.entries = (ofOutline o).entries := by
      apply Array.ext_getElem?
      intro i
      by_cases hi : i < o.size
      · exact h.holds.entries_eq h'.holds i (Nat.zero_le i) (by simpa [root] using hi)
      · have hs : t.entries.size = o.size := h.size_eq
        have hs' : (ofOutline o).entries.size = o.size := h'.size_eq
        rw [Array.getElem?_eq_none (by omega), Array.getElem?_eq_none (by omega)]
    cases t
    exact congrArg Tree.mk hentries
  · rintro rfl
    exact ofOutline_represents o

/-! ## 5. Looking at the children -/

theorem Holds.get? {t : Tree α} : ∀ {o : Outline α} {h : Nat} {parent : Option Nat},
    t.Holds h parent o → t.get? h = some o.value
  | .node v children, h, parent, hheld => by
    simp only [Holds] at hheld
    simp [Tree.get?, hheld.1, Outline.value]

theorem HoldsAll.filterMap_get? {t : Tree α} : ∀ {os : List (Outline α)} {h parent : Nat},
    t.HoldsAll h parent os →
    (handles h os).filterMap (fun c => (t.get? c).map (fun v => (c, v))) =
      (handles h os).zip (os.map Outline.value)
  | [], _, _, _ => rfl
  | o :: rest, h, parent, hheld => by
    simp only [HoldsAll] at hheld
    simp only [handles, List.filterMap_cons, hheld.1.get?, Option.map_some,
      hheld.2.filterMap_get?, List.map_cons, List.zip_cons_cons]

/-- **Under a handle stand the children of the outline**, in their order. -/
theorem children_of_holds {t : Tree α} {h : Nat} {parent : Option Nat} {v : α}
    {os : List (Outline α)} (hheld : t.Holds h parent (.node v os)) :
    t.children h = (handles (h + 1) os).zip (os.map Outline.value) := by
  simp only [Holds] at hheld
  simp only [Tree.children, childHandles, hheld.1, Option.map_some, Option.getD_some]
  exact hheld.2.filterMap_get?

theorem length_handles (h : Nat) (os : List (Outline α)) : (handles h os).length = os.length := by
  induction os generalizing h with
  | nil => rfl
  | cons o rest ih => rw [handles, List.length_cons, List.length_cons, ih]

theorem children_values_of_holds {t : Tree α} {h : Nat} {parent : Option Nat} {v : α}
    {os : List (Outline α)} (hheld : t.Holds h parent (.node v os)) :
    (t.children h).map Prod.snd = os.map Outline.value := by
  rw [children_of_holds hheld]
  exact List.map_snd_zip (by simp [length_handles])

/-! ## 6. What the handles stand for -/

mutual

theorem Holds.get?_add {t : Tree α} : ∀ {o : Outline α} {h : Nat} {parent : Option Nat},
    t.Holds h parent o → ∀ i < o.size, t.get? (h + i) = o.values[i]?
  | .node v children, h, parent, hheld, i, hi => by
    simp only [Holds] at hheld
    simp only [Outline.size] at hi
    cases i with
    | zero => simp [Tree.get?, hheld.1, values]
    | succ i =>
      have hrest := HoldsAll.get?_add hheld.2 i (by omega)
      have hplace : h + (i + 1) = h + 1 + i := by omega
      rw [hplace, hrest, values, List.getElem?_cons_succ]

theorem HoldsAll.get?_add {t : Tree α} : ∀ {os : List (Outline α)} {h parent : Nat},
    t.HoldsAll h parent os → ∀ i < sizeAll os, t.get? (h + i) = (valuesAll os)[i]?
  | [], _, _, _, i, hi => absurd hi (Nat.not_lt_zero i)
  | o :: rest, h, parent, hheld, i, hi => by
    simp only [HoldsAll] at hheld
    simp only [sizeAll] at hi
    rw [valuesAll]
    by_cases hin : i < o.size
    · rw [List.getElem?_append_left (by rwa [length_values])]
      exact Holds.get?_add hheld.1 i hin
    · rw [List.getElem?_append_right (by rw [length_values]; omega), length_values]
      have hrest := HoldsAll.get?_add hheld.2 (i - o.size) (by omega)
      rwa [Nat.add_assoc, Nat.add_sub_cancel' (by omega)] at hrest

end

/-- **Handles count the nodes of an outline in pre-order.** -/
theorem get?_ofOutline (o : Outline α) (h : Nat) : (ofOutline o).get? h = o.values[h]? := by
  have hrep := ofOutline_represents o
  by_cases hlt : h < o.size
  · have hget := hrep.holds.get?_add h hlt
    rwa [root, Nat.zero_add] at hget
  · have hsize : (ofOutline o).entries.size ≤ h := by
      have hs : (ofOutline o).entries.size = o.size := hrep.size_eq
      omega
    rw [get?, Array.getElem?_eq_none hsize, List.getElem?_eq_none (by rw [length_values]; omega)]
    rfl

end Tree
end StoreQL
