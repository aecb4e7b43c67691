/-
# The links of a tree

A tree says twice how its nodes hang together: every node names its parent, and every node lists its
children. `Tree.Linked` says that the two agree: the children of a node are, in ascending order, the
handles whose parent it is, the root has no parent, and every other node has one that is older.

A tree is grown by insertions, each with a handle that the tree may or may not know. `Tree.attempt`
is one of them, and `Tree.insertAll` any number, with their answers. Main statements:
`Linked.append`, that one more node keeps the links in agreement, and with it `Linked.insertAll`,
that any insertions do; `Linked.wellLinked`, what follows for each node, that its parents lead to the
root included; and `insertAll_wellLinked`, which says all of it for every tree that is grown from a
root.
-/
import Mathlib.Data.List.Range
import Mathlib.Logic.Relation
import StoreQL.Proofs.Container.Outline

namespace StoreQL

universe u

namespace Tree

variable {α : Type u}

/-! ## 1. Insertions with their answers -/

/-- A value to be inserted, and the handle of the node that it is to hang under. -/
structure Insertion (α : Type u) where
  parent : Nat
  value : α
deriving Repr

/-- One insertion: the handle of the new node, or the error, and the tree afterwards. -/
def attempt (t : Tree α) (i : Insertion α) : Except UnknownNode Nat × Tree α :=
  match t.insert i.parent i.value with
  | .ok (h, t') => (.ok h, t')
  | .error e => (.error e, t)

/-- Insertions one after the other: their answers and the tree afterwards. -/
def insertAll (t : Tree α) : List (Insertion α) → List (Except UnknownNode Nat) × Tree α
  | [] => ([], t)
  | i :: rest =>
    let (answer, t) := t.attempt i
    let (answers, t) := t.insertAll rest
    (answer :: answers, t)

variable {t : Tree α} {i : Insertion α}

theorem attempt_of_known (h : i.parent < t.size) :
    t.attempt i = (.ok t.size, t.append i.parent i.value) := by
  rw [attempt, insert, if_pos h]

/-- **An unknown handle is named in the error**, and the tree is left as it was. -/
theorem attempt_of_unknown (h : ¬ i.parent < t.size) : t.attempt i = (.error ⟨i.parent⟩, t) := by
  rw [attempt, insert, if_neg h]

/-! ## 2. What a new node changes -/

@[simp] theorem get?_append (t : Tree α) (parent : Nat) (v : α) (h : Nat) :
    (t.append parent v).get? h = if h = t.size then some v else t.get? h := by
  rw [get?, entries_append]
  split
  · rfl
  · split
    · rw [Option.map_map]
      rfl
    · rfl

@[simp] theorem parent?_append (t : Tree α) (parent : Nat) (v : α) (h : Nat) :
    (t.append parent v).parent? h = if h = t.size then some parent else t.parent? h := by
  rw [parent?, entries_append]
  split
  · rfl
  · split
    · rw [Option.bind_map]
      rfl
    · rfl

theorem childHandles_of_le {h : Nat} (hsize : t.size ≤ h) : t.childHandles h = [] := by
  rw [childHandles, Array.getElem?_eq_none hsize]
  rfl

theorem parent?_of_le {h : Nat} (hsize : t.size ≤ h) : t.parent? h = none := by
  rw [parent?, Array.getElem?_eq_none hsize]
  rfl

theorem childHandles_append {parent : Nat} (hp : parent < t.size) (v : α) (h : Nat) :
    (t.append parent v).childHandles h =
      if h = parent then t.childHandles h ++ [t.size] else t.childHandles h := by
  rw [childHandles, entries_append]
  by_cases hnew : h = t.size
  · have hne : h ≠ parent := by omega
    rw [if_pos hnew, if_neg hne, childHandles_of_le (Nat.le_of_eq hnew.symm)]
    rfl
  · rw [if_neg hnew]
    by_cases hparent : h = parent
    · subst hparent
      have hlt : h < t.entries.size := hp
      simp [childHandles, hlt]
    · rw [if_neg hparent, if_neg hparent]
      rfl

/-! ## 3. Links that agree -/

/-- The two ways in which a tree says how its nodes hang together agree. -/
structure Linked (t : Tree α) : Prop where
  size_pos : 0 < t.size
  root_parent : t.parent? root = none
  parent_lt : ∀ h, 0 < h → h < t.size → ∃ p < h, t.parent? h = some p
  children_eq : ∀ p, t.childHandles p = (List.range t.size).filter fun h => t.parent? h = some p

theorem singleton_linked (value : α) : (singleton value).Linked where
  size_pos := Nat.one_pos
  root_parent := rfl
  parent_lt h hpos hlt := by
    rw [size_singleton] at hlt
    omega
  children_eq p := by
    cases p with
    | zero => rfl
    | succ p => rfl

/-- **A new node keeps the links in agreement.** -/
theorem Linked.append (hl : t.Linked) {parent : Nat} (hp : parent < t.size) (v : α) :
    (t.append parent v).Linked where
  size_pos := by simp
  root_parent := by
    have hne : root ≠ t.size := Nat.ne_of_lt hl.size_pos
    rw [parent?_append, if_neg hne, hl.root_parent]
  parent_lt h hpos hlt := by
    rw [size_append] at hlt
    rw [parent?_append]
    by_cases hnew : h = t.size
    · exact ⟨parent, hnew ▸ hp, if_pos hnew⟩
    · obtain ⟨p, hph, hparent⟩ := hl.parent_lt h hpos (by omega)
      exact ⟨p, hph, by rw [if_neg hnew, hparent]⟩
  children_eq p := by
    -- The nodes that were there keep their parents, and the new one comes last.
    have hold : (List.range t.size).filter (fun h => (t.append parent v).parent? h = some p) =
        t.childHandles p := by
      rw [hl.children_eq]
      refine List.filter_congr fun h hh => ?_
      have hne : h ≠ t.size := Nat.ne_of_lt (List.mem_range.mp hh)
      rw [parent?_append, if_neg hne]
    rw [size_append, List.range_succ, List.filter_append, hold, childHandles_append hp]
    by_cases hparent : p = parent
    · simp [hparent]
    · simp [hparent, Ne.symm hparent]

theorem Linked.attempt (hl : t.Linked) (i : Insertion α) : (t.attempt i).2.Linked := by
  by_cases h : i.parent < t.size
  · rw [attempt_of_known h]
    exact hl.append h i.value
  · rw [attempt_of_unknown h]
    exact hl

/-- **Any insertions keep the links in agreement**, whatever handles they come with. -/
theorem Linked.insertAll (hl : t.Linked) (is : List (Insertion α)) : (t.insertAll is).2.Linked := by
  induction is generalizing t with
  | nil => exact hl
  | cons i is ih => exact ih (hl.attempt i)

/-! ## 4. What follows for each node -/

/-- What the links of a tree say about each of its nodes. -/
structure WellLinked (t : Tree α) : Prop where
  known : ∀ h, (t.get? h).isSome ↔ h < t.size
  unknown : ∀ h, t.size ≤ h → t.parent? h = none ∧ t.childHandles h = []
  root_parent : t.parent? root = none
  one_parent : ∀ h, 0 < h → h < t.size → ∃ p < h, t.parent? h = some p ∧
    (t.childHandles p).count h = 1 ∧ ∀ q, q ≠ p → h ∉ t.childHandles q
  child_parent : ∀ p, ∀ c ∈ t.childHandles p, t.parent? c = some p
  ascending : ∀ p, (t.childHandles p).Pairwise (· < ·)
  listed : ∀ p, (t.children p).map Prod.fst = t.childHandles p
  rooted : ∀ h < t.size, Relation.ReflTransGen (fun c p => t.parent? c = some p) h root

theorem isSome_get?_iff (t : Tree α) (h : Nat) : (t.get? h).isSome ↔ h < t.size := by
  rw [get?, Option.isSome_map, isSome_getElem?]
  exact Iff.rfl

theorem Linked.mem_childHandles_iff (hl : t.Linked) {p c : Nat} :
    c ∈ t.childHandles p ↔ t.parent? c = some p := by
  rw [hl.children_eq, List.mem_filter, List.mem_range, decide_eq_true_iff]
  refine ⟨And.right, fun hparent => ⟨?_, hparent⟩⟩
  by_contra hlt
  rw [parent?_of_le (Nat.le_of_not_lt hlt)] at hparent
  cases hparent

theorem Linked.ascending (hl : t.Linked) (p : Nat) : (t.childHandles p).Pairwise (· < ·) := by
  rw [hl.children_eq]
  exact List.pairwise_lt_range.filter _

/-- **Parents lead to the root**: each is older than its child. -/
theorem Linked.rooted (hl : t.Linked) (h : Nat) (hlt : h < t.size) :
    Relation.ReflTransGen (fun c p => t.parent? c = some p) h root := by
  induction h using Nat.strong_induction_on with
  | _ h ih =>
    by_cases hroot : h = root
    · rw [hroot]
    · obtain ⟨p, hph, hparent⟩ := hl.parent_lt h (Nat.pos_of_ne_zero hroot) hlt
      exact .head hparent (ih p hph (Nat.lt_trans hph hlt))

/-- Children are nodes that the tree has. -/
theorem Linked.child_lt (hl : t.Linked) {p c : Nat} (hc : c ∈ t.childHandles p) : c < t.size := by
  rw [hl.children_eq] at hc
  exact List.mem_range.mp (List.mem_of_mem_filter hc)

theorem Linked.listed (hl : t.Linked) (p : Nat) :
    (t.children p).map Prod.fst = t.childHandles p := by
  have hknown : ∀ c ∈ t.childHandles p,
      ((t.get? c).map fun v => (c, v)).map Prod.fst = some c := by
    intro c hc
    obtain ⟨v, hv⟩ := Option.isSome_iff_exists.mp ((isSome_get?_iff t c).mpr (hl.child_lt hc))
    rw [hv]
    rfl
  rw [children, List.map_filterMap, List.filterMap_congr hknown, List.filterMap_some]

/-- The new node comes last among the children of its parent, and all others stay as they were. -/
theorem Linked.children_append (hl : t.Linked) {parent : Nat} (hp : parent < t.size) (v : α)
    (h : Nat) :
    (t.append parent v).children h =
      if h = parent then t.children h ++ [(t.size, v)] else t.children h := by
  have hold : (t.childHandles h).filterMap
      (fun c => ((t.append parent v).get? c).map fun v => (c, v)) = t.children h := by
    refine List.filterMap_congr fun c hc => ?_
    rw [get?_append, if_neg (Nat.ne_of_lt (hl.child_lt hc))]
  rw [children, childHandles_append hp]
  split
  · rw [List.filterMap_append, hold]
    simp
  · exact hold

/-- Links that agree say of each node what they have to. -/
theorem Linked.wellLinked (hl : t.Linked) : t.WellLinked where
  known := isSome_get?_iff t
  unknown h hle := ⟨parent?_of_le hle, childHandles_of_le hle⟩
  root_parent := hl.root_parent
  one_parent h hpos hlt := by
    obtain ⟨p, hph, hparent⟩ := hl.parent_lt h hpos hlt
    refine ⟨p, hph, hparent, ?_, fun q hne hmem => hne ?_⟩
    · have hnodup : (t.childHandles p).Nodup := (hl.ascending p).imp Nat.ne_of_lt
      rw [hnodup.count, if_pos (hl.mem_childHandles_iff.mpr hparent)]
    · exact Option.some.inj ((hl.mem_childHandles_iff.mp hmem).symm.trans hparent)
  child_parent p c hc := hl.mem_childHandles_iff.mp hc
  ascending := hl.ascending
  listed := hl.listed
  rooted := hl.rooted

/-! ## 5. What insertions answer -/

/-- The handles among some answers. -/
def handedOut (answers : List (Except UnknownNode Nat)) : List Nat :=
  answers.filterMap Except.toOption

@[simp] theorem handedOut_ok (h : Nat) (answers : List (Except UnknownNode Nat)) :
    handedOut (.ok h :: answers) = h :: handedOut answers := rfl

@[simp] theorem handedOut_error (e : UnknownNode) (answers : List (Except UnknownNode Nat)) :
    handedOut (.error e :: answers) = handedOut answers := rfl

/-- As many nodes come to a tree as handles are handed out. -/
theorem size_insertAll (t : Tree α) (is : List (Insertion α)) :
    (t.insertAll is).2.size = t.size + (handedOut (t.insertAll is).1).length := by
  induction is generalizing t with
  | nil => rfl
  | cons i is ih =>
    simp only [insertAll]
    rw [ih]
    by_cases h : i.parent < t.size
    · simp only [attempt_of_known h, handedOut_ok, size_append, List.length_cons]
      omega
    · simp only [attempt_of_unknown h, handedOut_error]

/-- The run of some insertions, and one more. -/
theorem insertAll_concat (t : Tree α) (is : List (Insertion α)) (i : Insertion α) :
    t.insertAll (is ++ [i]) =
      ((t.insertAll is).1 ++ [((t.insertAll is).2.attempt i).1],
        ((t.insertAll is).2.attempt i).2) := by
  induction is generalizing t with
  | nil => rfl
  | cons j is ih => simp only [List.cons_append, insertAll, ih]

/-- What a tree says of the nodes that it has is kept. -/
theorem insertAll_keeps (t : Tree α) (is : List (Insertion α)) {h : Nat} (hlt : h < t.size) :
    (t.insertAll is).2.get? h = t.get? h ∧ (t.insertAll is).2.parent? h = t.parent? h := by
  induction is generalizing t with
  | nil => exact ⟨rfl, rfl⟩
  | cons i is ih =>
    by_cases hknown : i.parent < t.size
    · have hne : h ≠ t.size := Nat.ne_of_lt hlt
      have hkept := ih (t.append i.parent i.value) (by rw [size_append]; omega)
      simpa only [insertAll, attempt_of_known hknown, get?_append, parent?_append, if_neg hne]
        using hkept
    · simpa only [insertAll, attempt_of_unknown hknown] using ih t hlt

/-- **What was inserted is found** under the handle that the insertion gave, however many come
after it. -/
theorem insertAll_found (t : Tree α) {is : List (Insertion α)} {k h : Nat} {i : Insertion α}
    (hi : is[k]? = some i) (hanswer : (t.insertAll is).1[k]? = some (.ok h)) :
    (t.insertAll is).2.get? h = some i.value ∧ (t.insertAll is).2.parent? h = some i.parent := by
  induction is generalizing t k with
  | nil => cases hi
  | cons j is ih =>
    cases k with
    | succ k => exact ih (t.attempt j).2 hi hanswer
    | zero =>
      cases hi
      by_cases hknown : i.parent < t.size
      · simp only [insertAll, attempt_of_known hknown] at hanswer ⊢
        cases hanswer
        have hlt : t.size < (t.append i.parent i.value).size := by simp
        obtain ⟨hget, hparent⟩ := insertAll_keeps (t.append i.parent i.value) is hlt
        rw [hget, hparent, get?_append, parent?_append, if_pos rfl, if_pos rfl]
        exact ⟨rfl, rfl⟩
      · simp only [insertAll, attempt_of_unknown hknown] at hanswer
        cases hanswer

/-! ## 6. Trees that are grown from a root -/

/-- **The links of a tree always agree.** After any insertions, with known handles and unknown ones,
every node is linked as it has to be and has the value and the parent with which it was inserted;
there is one node more than handles were handed out; and the next insertion gives the next handle,
or names its unknown handle and changes nothing. -/
theorem insertAll_wellLinked (value : α) (is : List (Insertion α)) :
    let answers := ((singleton value).insertAll is).1
    let t := ((singleton value).insertAll is).2
    t.WellLinked ∧ t.size = 1 + (handedOut answers).length ∧ t.get? root = some value ∧
      (∀ (k h : Nat) (i : Insertion α), is[k]? = some i → answers[k]? = some (.ok h) →
        t.get? h = some i.value ∧ t.parent? h = some i.parent) ∧
      ∀ i : Insertion α,
        (singleton value).insertAll (is ++ [i]) =
            (answers ++ [(t.attempt i).1], (t.attempt i).2) ∧
          t.attempt i =
            if i.parent < t.size then (.ok t.size, t.append i.parent i.value)
            else (.error ⟨i.parent⟩, t) := by
  intro answers t
  have hlinked : t.Linked := (singleton_linked value).insertAll is
  have hroot : root < (singleton value).size := Nat.one_pos
  refine ⟨hlinked.wellLinked, size_insertAll _ is, (insertAll_keeps _ is hroot).1, ?_, fun i => ?_⟩
  · intro k h i hi hanswer
    exact insertAll_found _ hi hanswer
  · refine ⟨insertAll_concat _ is i, ?_⟩
    split
    · rename_i hknown
      exact attempt_of_known hknown
    · rename_i hunknown
      exact attempt_of_unknown hunknown

end Tree
end StoreQL
