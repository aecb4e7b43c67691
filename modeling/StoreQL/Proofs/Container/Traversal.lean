/-
# The traversal of a tree

A traversal keeps a list of the nodes that it has still to visit, and nothing in this loop says that
it ends, that no node is visited twice, or in which order the nodes come. All of it follows from the
links of the tree (`Tree.Linked`). Children are younger than their parents, so what hangs under a
node is an outline (`Linked.exists_spans`), and the loop visits the nodes of an outline in recursive
pre-order before it goes on with what was pending (`Spans.walks`). Every node but the root is a
child of exactly one node, so it is visited as often as its parent, which is once
(`Linked.visited_once`).

The depth of a node is the number of parent links that lead from it to the root
(`Linked.depth_iff`), and the height of a tree is the greatest of these (`Linked.height_greatest`).

Main statement: `insertAll_traverse`, which says this of every tree that is grown from a root, with
the height of the tree after one more insertion.
-/
import Mathlib.Order.Bounds.Basic
import StoreQL.Proofs.Container.Links

namespace StoreQL

universe u

variable {α : Type u}

open scoped List

/-! ## 1. Recursive pre-order -/

namespace Outline

/-- The handle of the topmost node of an outline that has handles. -/
def handle (o : Outline (Nat × α)) : Nat := o.value.1

mutual

/-- The visits to an outline at a depth: to the topmost node, and then to the outlines of its
children, oldest first, which are deeper by one. -/
def visits (depth : Nat) : Outline (Nat × α) → List (Tree.Visit α)
  | .node (h, v) children => ⟨h, v, depth⟩ :: visitsAll (depth + 1) children

/-- The visits to some outlines, one after the other. -/
def visitsAll (depth : Nat) : List (Outline (Nat × α)) → List (Tree.Visit α)
  | [] => []
  | o :: rest => o.visits depth ++ visitsAll depth rest

end

mutual

/-- Without the depths, the nodes are visited in pre-order. -/
theorem map_visits (depth : Nat) : ∀ o : Outline (Nat × α),
    (o.visits depth).map (fun v => (v.handle, v.value)) = o.values
  | .node (h, v) children => by
    rw [visits, List.map_cons, map_visitsAll (depth + 1) children, values]

theorem map_visitsAll (depth : Nat) : ∀ os : List (Outline (Nat × α)),
    (visitsAll depth os).map (fun v => (v.handle, v.value)) = valuesAll os
  | [] => rfl
  | o :: rest => by
    rw [visitsAll, List.map_append, map_visits depth o, map_visitsAll depth rest, valuesAll]

end

/-- The handles of an outline in pre-order. -/
def preorder (o : Outline (Nat × α)) : List Nat := o.values.map Prod.fst

theorem map_handle_visits (depth : Nat) (o : Outline (Nat × α)) :
    (o.visits depth).map Tree.Visit.handle = o.preorder := by
  rw [preorder, ← map_visits depth o, List.map_map]
  rfl

end Outline

open Outline

namespace Tree

/-! ## 2. What hangs under a node -/

mutual

/-- The outline is what hangs under its topmost node: the node itself with its value, and the
outlines of its children in order. -/
def Spans (t : Tree α) : Outline (Nat × α) → Prop
  | .node (h, v) children =>
    t.get? h = some v ∧ t.childHandles h = children.map handle ∧ SpansAll t children

/-- Each of the outlines is what hangs under its topmost node. -/
def SpansAll (t : Tree α) : List (Outline (Nat × α)) → Prop
  | [] => True
  | o :: rest => t.Spans o ∧ SpansAll t rest

end

variable {t : Tree α}

theorem exists_spansAll : ∀ {hs : List Nat}, (∀ h ∈ hs, ∃ o, t.Spans o ∧ o.handle = h) →
    ∃ os, t.SpansAll os ∧ os.map handle = hs
  | [], _ => ⟨[], by simp [SpansAll]⟩
  | h :: hs, hspans => by
    obtain ⟨o, ho, rfl⟩ := hspans h List.mem_cons_self
    obtain ⟨os, hos, rfl⟩ := exists_spansAll fun h' hh' => hspans h' (List.mem_cons_of_mem _ hh')
    exact ⟨o :: os, by simp only [SpansAll]; exact ⟨ho, hos⟩, List.map_cons⟩

/-- Children are younger than their parents, and the tree has them. -/
theorem Linked.lt_of_mem_childHandles (hl : t.Linked) {p c : Nat} (hc : c ∈ t.childHandles p) :
    p < c ∧ c < t.size := by
  have hparent := hl.mem_childHandles_iff.mp hc
  have hlt : c < t.size := hl.child_lt hc
  have hne : c ≠ root := by
    rintro rfl
    rw [hl.root_parent] at hparent
    cases hparent
  obtain ⟨q, hqc, hq⟩ := hl.parent_lt c (Nat.pos_of_ne_zero hne) hlt
  rw [hparent, Option.some.injEq] at hq
  exact ⟨hq ▸ hqc, hlt⟩

/-- **What hangs under a node is an outline.** The youngest nodes have no children, and the others
have younger ones, so the outlines are built from the youngest node on. -/
theorem Linked.exists_spans (hl : t.Linked) (h : Nat) (hlt : h < t.size) :
    ∃ o, t.Spans o ∧ o.handle = h := by
  obtain ⟨v, hv⟩ := Option.isSome_iff_exists.mp ((isSome_get?_iff t h).mpr hlt)
  have hchildren : ∀ c ∈ t.childHandles h, ∃ o, t.Spans o ∧ o.handle = c := by
    intro c hc
    obtain ⟨hyounger, hknown⟩ := hl.lt_of_mem_childHandles hc
    exact hl.exists_spans c hknown
  obtain ⟨os, hos, hhandles⟩ := exists_spansAll hchildren
  exact ⟨.node (h, v) os, by simp only [Spans]; exact ⟨hv, hhandles.symm, hos⟩, rfl⟩
termination_by t.size - h

/-! ## 3. The loop -/

/-- The loop of a traversal without a bound on its length: as long as nodes are pending, the first
of them is visited, and its children are put before the others. -/
inductive Walks (t : Tree α) : List (Nat × Nat) → List (Visit α) → Prop
  | done : Walks t [] []
  | visit {h depth : Nat} {e : Entry α} {pending : List (Nat × Nat)} {rest : List (Visit α)} :
      t.entries[h]? = some e →
      Walks t (e.children.toList.map (fun c => (c, depth + 1)) ++ pending) rest →
      Walks t ((h, depth) :: pending) (⟨h, e.value, depth⟩ :: rest)

/-- Where the loop ends, it is enough to allow for as many visits as it makes. -/
theorem Walks.walk_eq {pending : List (Nat × Nat)} {visits : List (Visit α)}
    (h : t.Walks pending visits) :
    ∀ fuel, visits.length ≤ fuel → t.walk fuel pending = visits := by
  induction h with
  | done =>
    intro fuel _
    cases fuel <;> rfl
  | visit he _ ih =>
    intro fuel hfuel
    cases fuel with
    | zero => exact absurd hfuel (Nat.not_succ_le_zero _)
    | succ fuel =>
      rw [walk, he]
      simp only [ih fuel (Nat.le_of_succ_le_succ hfuel)]

mutual

/-- **The loop visits an outline in pre-order** before what was pending behind it. -/
theorem Spans.walks : ∀ {o : Outline (Nat × α)} (depth : Nat) {pending : List (Nat × Nat)}
    {rest : List (Visit α)}, t.Spans o → t.Walks pending rest →
    t.Walks ((o.handle, depth) :: pending) (o.visits depth ++ rest)
  | .node (h, v) children, depth, pending, rest, hspans, hrest => by
    simp only [Spans] at hspans
    obtain ⟨hget, hchildren, hall⟩ := hspans
    obtain ⟨e, he, rfl⟩ := Option.map_eq_some_iff.mp hget
    have hhandles : e.children.toList = children.map handle := by
      rwa [childHandles, he] at hchildren
    have hwalks := SpansAll.walks (depth + 1) hall hrest
    have hpending : children.map (fun o => (o.handle, depth + 1)) =
        e.children.toList.map (fun c => (c, depth + 1)) := by
      rw [hhandles, List.map_map]
      rfl
    rw [hpending] at hwalks
    exact .visit he hwalks

theorem SpansAll.walks : ∀ {os : List (Outline (Nat × α))} (depth : Nat)
    {pending : List (Nat × Nat)} {rest : List (Visit α)}, t.SpansAll os → t.Walks pending rest →
    t.Walks (os.map (fun o => (o.handle, depth)) ++ pending) (visitsAll depth os ++ rest)
  | [], _, _, _, _, hrest => hrest
  | o :: os, depth, pending, rest, hspans, hrest => by
    simp only [SpansAll] at hspans
    rw [visitsAll, List.append_assoc]
    exact Spans.walks depth hspans.1 (SpansAll.walks depth hspans.2 hrest)

end

/-! ## 4. Every node is visited once -/

mutual

/-- The nodes of an outline are its topmost node and the children of all of them. -/
theorem Spans.preorder_perm : ∀ {o : Outline (Nat × α)}, t.Spans o →
    o.preorder ~ (o.handle :: o.preorder.flatMap t.childHandles)
  | .node (h, v) children, hspans => by
    simp only [Spans] at hspans
    obtain ⟨-, hchildren, hall⟩ := hspans
    rw [preorder, values, List.map_cons, List.flatMap_cons, hchildren]
    exact (SpansAll.preorder_perm hall).cons h

theorem SpansAll.preorder_perm : ∀ {os : List (Outline (Nat × α))}, t.SpansAll os →
    ((valuesAll os).map Prod.fst) ~
      (os.map handle ++ ((valuesAll os).map Prod.fst).flatMap t.childHandles)
  | [], _ => .nil
  | o :: os, hspans => by
    simp only [SpansAll] at hspans
    have hone := Spans.preorder_perm hspans.1
    have hrest := SpansAll.preorder_perm hspans.2
    rw [valuesAll, List.map_append, List.flatMap_append]
    exact (hone.append hrest).trans ((List.perm_append_comm_assoc _ _ _).cons _)

end

/-- As the only child that a node is, it comes as often among the children of some nodes as its
parent is one of them. -/
theorem Linked.count_flatMap (hl : t.Linked) {p h : Nat} (hp : t.parent? h = some p)
    (hs : List Nat) : (hs.flatMap t.childHandles).count h = hs.count p := by
  have hnodup : ∀ q, (t.childHandles q).Nodup := fun q => (hl.ascending q).imp Nat.ne_of_lt
  induction hs with
  | nil => rfl
  | cons q hs ih =>
    rw [List.flatMap_cons, List.count_append, ih, (hnodup q).count, List.count_cons]
    have hiff : h ∈ t.childHandles q ↔ q = p := by
      rw [hl.mem_childHandles_iff, hp, Option.some.injEq]
      exact eq_comm
    by_cases hq : q = p
    · rw [if_pos (hiff.mpr hq), if_pos (beq_iff_eq.mpr hq), Nat.add_comm]
    · rw [if_neg (mt hiff.mp hq), if_neg (mt beq_iff_eq.mp hq), Nat.zero_add, Nat.add_zero]

/-- A node without a parent is nowhere listed. -/
theorem Linked.count_flatMap_of_orphan (hl : t.Linked) {h : Nat} (hp : t.parent? h = none)
    (hs : List Nat) : (hs.flatMap t.childHandles).count h = 0 := by
  refine List.count_eq_zero.mpr fun hmem => ?_
  obtain ⟨q, -, hq⟩ := List.mem_flatMap.mp hmem
  rw [hl.mem_childHandles_iff, hp] at hq
  cases hq

/-- **Every node is visited once**: the root, which has no parent, and a node as often as its
parent. -/
theorem Linked.visited_once (hl : t.Linked) {o : Outline (Nat × α)} (ho : t.Spans o)
    (hroot : o.handle = root) : o.preorder ~ List.range t.size := by
  have hcount : ∀ h, o.preorder.count h =
      (o.preorder.flatMap t.childHandles).count h + if root == h then 1 else 0 := by
    intro h
    rw [ho.preorder_perm.count_eq h, List.count_cons, hroot]
  have horphan : ∀ h, t.parent? h = none → root ≠ h → o.preorder.count h = 0 := by
    intro h hp hne
    rw [hcount, hl.count_flatMap_of_orphan hp, if_neg (mt beq_iff_eq.mp hne)]
  have honce : ∀ h < t.size, o.preorder.count h = 1 := by
    intro h
    induction h using Nat.strong_induction_on with
    | _ h ih =>
      intro hlt
      by_cases hr : root = h
      · subst hr
        rw [hcount, hl.count_flatMap_of_orphan hl.root_parent, if_pos (beq_self_eq_true _)]
      · obtain ⟨p, hph, hp⟩ := hl.parent_lt h (Nat.pos_of_ne_zero (Ne.symm hr)) hlt
        rw [hcount, hl.count_flatMap hp, if_neg (mt beq_iff_eq.mp hr),
          ih p hph (Nat.lt_trans hph hlt)]
  refine List.perm_iff_count.mpr fun h => ?_
  rw [List.nodup_range.count]
  by_cases hlt : h < t.size
  · rw [if_pos (List.mem_range.mpr hlt), honce h hlt]
  · rw [if_neg (mt List.mem_range.mp hlt)]
    refine horphan h (parent?_of_le (Nat.le_of_not_lt hlt)) ?_
    have hpos := hl.size_pos
    intro hr
    exact hlt (hr ▸ hpos)

/-! ## 5. Depth -/

/-- The node to which so many parent links lead. -/
def ancestor? (t : Tree α) (h : Nat) : Nat → Option Nat
  | 0 => some h
  | n + 1 => (t.ancestor? h n).bind t.parent?

mutual

/-- A visit is to a node that the tree has, as many links under the topmost node as the depths
differ. -/
theorem Spans.visited (hl : t.Linked) : ∀ {o : Outline (Nat × α)} {depth : Nat}, t.Spans o →
    ∀ v ∈ o.visits depth, t.get? v.handle = some v.value ∧
      ∃ n, v.depth = depth + n ∧ t.ancestor? v.handle n = some o.handle
  | .node (h, value) children, depth, hspans, v, hv => by
    simp only [Spans] at hspans
    obtain ⟨hget, hchildren, hall⟩ := hspans
    rw [visits] at hv
    rcases List.mem_cons.mp hv with rfl | hv
    · exact ⟨hget, 0, rfl, rfl⟩
    · have hparent : ∀ o ∈ children, t.parent? o.handle = some h := by
        intro o ho
        rw [← hl.mem_childHandles_iff, hchildren]
        exact List.mem_map_of_mem ho
      obtain ⟨hvalue, o, ho, n, hdepth, hup⟩ := SpansAll.visited hl hall v hv
      refine ⟨hvalue, n + 1, by omega, ?_⟩
      rw [ancestor?, hup, Option.bind_some, hparent o ho]
      rfl

theorem SpansAll.visited (hl : t.Linked) : ∀ {os : List (Outline (Nat × α))} {depth : Nat},
    t.SpansAll os → ∀ v ∈ visitsAll depth os, t.get? v.handle = some v.value ∧
      ∃ o ∈ os, ∃ n, v.depth = depth + n ∧ t.ancestor? v.handle n = some o.handle
  | [], _, _, v, hv => by
    rw [visitsAll] at hv
    cases hv
  | o :: os, depth, hspans, v, hv => by
    simp only [SpansAll] at hspans
    rw [visitsAll] at hv
    rcases List.mem_append.mp hv with hv | hv
    · obtain ⟨hvalue, hup⟩ := Spans.visited hl hspans.1 v hv
      exact ⟨hvalue, o, List.mem_cons_self, hup⟩
    · obtain ⟨hvalue, o', ho', hup⟩ := SpansAll.visited hl hspans.2 v hv
      exact ⟨hvalue, o', List.mem_cons_of_mem o ho', hup⟩

end

/-- No parent links lead on from the root. -/
theorem Linked.ancestor?_past_root (hl : t.Linked) {h n : Nat} (hn : t.ancestor? h n = some root)
    (k : Nat) : t.ancestor? h (n + k + 1) = none := by
  induction k with
  | zero =>
    rw [Nat.add_zero, ancestor?, hn, Option.bind_some]
    exact hl.root_parent
  | succ k ih =>
    rw [ancestor?, ← Nat.add_assoc, ih]
    rfl

/-- There is one way from a node to the root. -/
theorem Linked.links_unique (hl : t.Linked) {h m n : Nat} (hm : t.ancestor? h m = some root)
    (hn : t.ancestor? h n = some root) : m = n := by
  by_contra hne
  rcases Nat.lt_or_gt_of_ne hne with hlt | hlt
  · obtain ⟨k, rfl⟩ := Nat.exists_eq_add_of_lt hlt
    rw [hl.ancestor?_past_root hm k] at hn
    cases hn
  · obtain ⟨k, rfl⟩ := Nat.exists_eq_add_of_lt hlt
    rw [hl.ancestor?_past_root hn k] at hm
    cases hm

/-! ## 6. The traversal of a linked tree -/

/-- **A traversal is the recursive pre-order of the tree**, and its loop ends. -/
theorem Linked.traverse_spec (hl : t.Linked) : ∃ o : Outline (Nat × α),
    t.Spans o ∧ o.handle = root ∧ t.Walks [(root, 0)] (o.visits 0) ∧ t.traverse = o.visits 0 := by
  obtain ⟨o, ho, hroot⟩ := hl.exists_spans root hl.size_pos
  have hwalks : t.Walks [(root, 0)] (o.visits 0) := by
    have hwalks := ho.walks 0 .done
    rwa [hroot, List.append_nil] at hwalks
  have hlength : (o.visits 0).length = t.size := by
    rw [← List.length_map Visit.handle, map_handle_visits, (hl.visited_once ho hroot).length_eq,
      List.length_range]
  exact ⟨o, ho, hroot, hwalks, hwalks.walk_eq t.size (Nat.le_of_eq hlength)⟩

/-- The handles of a traversal are all handles of the tree, each once. -/
theorem Linked.traverse_perm (hl : t.Linked) :
    t.traverse.map Visit.handle ~ List.range t.size := by
  obtain ⟨o, ho, hroot, -, htraverse⟩ := hl.traverse_spec
  rw [htraverse, map_handle_visits]
  exact hl.visited_once ho hroot

/-- The depth at which a node is visited is the number of parent links from it to the root. -/
theorem Linked.depth_iff (hl : t.Linked) {v : Visit α} (hv : v ∈ t.traverse) :
    t.get? v.handle = some v.value ∧ ∀ n, t.ancestor? v.handle n = some root ↔ n = v.depth := by
  obtain ⟨o, ho, hroot, -, htraverse⟩ := hl.traverse_spec
  rw [htraverse] at hv
  obtain ⟨hvalue, n, hdepth, hup⟩ := ho.visited hl v hv
  rw [Nat.zero_add] at hdepth
  rw [hroot, ← hdepth] at hup
  refine ⟨hvalue, fun m => ⟨fun hm => hl.links_unique hm hup, ?_⟩⟩
  rintro rfl
  exact hup

/-- Every node that the tree has is visited. -/
theorem Linked.exists_visit (hl : t.Linked) {h : Nat} (hlt : h < t.size) :
    ∃ v ∈ t.traverse, v.handle = h := by
  have hmem : h ∈ t.traverse.map Visit.handle :=
    hl.traverse_perm.mem_iff.mpr (List.mem_range.mpr hlt)
  exact List.mem_map.mp hmem

theorem Linked.handle_lt (hl : t.Linked) {v : Visit α} (hv : v ∈ t.traverse) :
    v.handle < t.size :=
  List.mem_range.mp (hl.traverse_perm.mem_iff.mp (List.mem_map_of_mem hv))

/-! ## 7. Height -/

/-- The greatest depth among some visits, and a depth from before them. -/
theorem foldl_max_depth (vs : List (Visit α)) (before : Nat) :
    (∀ v ∈ vs, v.depth ≤ vs.foldl (fun h v => max h v.depth) before) ∧
      before ≤ vs.foldl (fun h v => max h v.depth) before ∧
      (vs.foldl (fun h v => max h v.depth) before = before ∨
        ∃ v ∈ vs, vs.foldl (fun h v => max h v.depth) before = v.depth) := by
  induction vs generalizing before with
  | nil => exact ⟨nofun, Nat.le_refl before, .inl rfl⟩
  | cons w vs ih =>
    obtain ⟨hall, hbefore, hreached⟩ := ih (max before w.depth)
    rw [List.foldl_cons]
    refine ⟨?_, Nat.le_trans (Nat.le_max_left _ _) hbefore, ?_⟩
    · intro v hv
      rcases List.mem_cons.mp hv with rfl | hv
      · exact Nat.le_trans (Nat.le_max_right _ _) hbefore
      · exact hall v hv
    · rcases hreached with hmax | ⟨v, hv, hdepth⟩
      · rcases Nat.le_total before w.depth with hle | hle
        · exact .inr ⟨w, List.mem_cons_self, by rw [hmax, Nat.max_eq_right hle]⟩
        · exact .inl (by rw [hmax, Nat.max_eq_left hle])
      · exact .inr ⟨v, List.mem_cons_of_mem w hv, hdepth⟩

/-- How many parent links lead from nodes of the tree to the root. -/
def rootDistances (t : Tree α) : Set Nat := {n | ∃ h < t.size, t.ancestor? h n = some root}

/-- **The height is the greatest number of parent links** from a node to the root. -/
theorem Linked.height_greatest (hl : t.Linked) : IsGreatest t.rootDistances t.height := by
  obtain ⟨hall, -, hreached⟩ := foldl_max_depth t.traverse 0
  refine ⟨?_, ?_⟩
  · rcases hreached with hzero | ⟨v, hv, hdepth⟩
    · exact ⟨root, hl.size_pos, by rw [height, hzero, ancestor?]⟩
    · exact ⟨v.handle, hl.handle_lt hv, by rw [height, hdepth, (hl.depth_iff hv).2]⟩
  · rintro n ⟨h, hlt, hup⟩
    obtain ⟨v, hv, rfl⟩ := hl.exists_visit hlt
    rw [(hl.depth_iff hv).2] at hup
    rw [hup]
    exact hall v hv

/-- The parent links from the nodes that were there are the same with a new node. -/
theorem Linked.ancestor?_append (hl : t.Linked) (p : Nat) (value : α) {h : Nat}
    (hlt : h < t.size) (n : Nat) :
    (t.append p value).ancestor? h n = t.ancestor? h n ∧ ∀ a, t.ancestor? h n = some a →
      a < t.size := by
  induction n with
  | zero =>
    refine ⟨rfl, fun a ha => ?_⟩
    cases ha
    exact hlt
  | succ n ih =>
    obtain ⟨hsame, hknown⟩ := ih
    rw [ancestor?, ancestor?, hsame]
    cases hup : t.ancestor? h n with
    | none => exact ⟨rfl, nofun⟩
    | some a =>
      have ha : a < t.size := hknown a hup
      rw [Option.bind_some, Option.bind_some, parent?_append, if_neg (Nat.ne_of_lt ha)]
      refine ⟨rfl, fun b hb => ?_⟩
      have hchild : a ∈ t.childHandles b := hl.mem_childHandles_iff.mpr hb
      exact Nat.lt_trans (hl.lt_of_mem_childHandles hchild).1 ha

/-- The first of some parent links, and the others. -/
theorem ancestor?_succ (t : Tree α) (h n : Nat) :
    t.ancestor? h (n + 1) = (t.parent? h).bind (fun p => t.ancestor? p n) := by
  induction n with
  | zero => simp [ancestor?]
  | succ n ih =>
    rw [ancestor?, ih, Option.bind_assoc]
    rfl

/-- One more node adds its own distance. -/
theorem Linked.rootDistances_append (hl : t.Linked) {p d : Nat} (hp : p < t.size)
    (hd : t.ancestor? p d = some root) (value : α) :
    (t.append p value).rootDistances = t.rootDistances ∪ {d + 1} := by
  have hnew : ∀ n, (t.append p value).ancestor? t.size (n + 1) = t.ancestor? p n := by
    intro n
    rw [ancestor?_succ, parent?_append, if_pos rfl, Option.bind_some]
    exact (hl.ancestor?_append p value hp n).1
  ext n
  rw [Set.mem_union, Set.mem_singleton_iff]
  constructor
  · rintro ⟨h, hlt, hup⟩
    rw [size_append] at hlt
    rcases Nat.lt_succ_iff_lt_or_eq.mp hlt with hold | rfl
    · rw [(hl.ancestor?_append p value hold n).1] at hup
      exact .inl ⟨h, hold, hup⟩
    · cases n with
      | zero => exact absurd (Option.some.inj hup) (Nat.ne_of_gt hl.size_pos)
      | succ n =>
        rw [hnew] at hup
        exact .inr (congrArg Nat.succ (hl.links_unique hup hd))
  · rintro (⟨h, hlt, hup⟩ | rfl)
    · refine ⟨h, ?_, ?_⟩
      · rw [size_append]
        exact Nat.lt_succ_of_lt hlt
      · rw [(hl.ancestor?_append p value hlt n).1, hup]
    · refine ⟨t.size, ?_, by rw [hnew, hd]⟩
      rw [size_append]
      exact Nat.lt_succ_self _

/-- **A new node makes the tree as high as it is deep**, unless the tree was as high before. -/
theorem Linked.height_append (hl : t.Linked) {p d : Nat} (hp : p < t.size)
    (hd : t.ancestor? p d = some root) (value : α) :
    (t.append p value).height = max t.height (d + 1) := by
  have hnew := (hl.append hp value).height_greatest
  rw [hl.rootDistances_append hp hd] at hnew
  exact hnew.unique (hl.height_greatest.union isGreatest_singleton)

/-! ## 8. Trees that are grown from a root -/

/-- **A tree is traversed in pre-order.** After any insertions, the loop of a traversal ends, having
visited what hangs under the root in recursive pre-order, with depths or without; each node was
visited once, with its value and at the depth that its parent links give it; the height is the
greatest depth, and a new node raises it to its own depth if that is greater. -/
theorem insertAll_traverse (value : α) (is : List (Insertion α)) :
    let t := ((singleton value).insertAll is).2
    (∃ o : Outline (Nat × α), t.Spans o ∧ o.handle = root ∧ t.Walks [(root, 0)] t.traverse ∧
        t.traverse = o.visits 0 ∧ t.nodes = o.values) ∧
      t.traverse.map Visit.handle ~ List.range t.size ∧
      (∀ v ∈ t.traverse, t.get? v.handle = some v.value ∧
        ∀ n, t.ancestor? v.handle n = some root ↔ n = v.depth) ∧
      IsGreatest {n | ∃ h < t.size, t.ancestor? h n = some root} t.height ∧
      ∀ i : Insertion α, i.parent < t.size → ∃ d, t.ancestor? i.parent d = some root ∧
        ((singleton value).insertAll (is ++ [i])).2.height = max t.height (d + 1) := by
  intro t
  have hl : t.Linked := (singleton_linked value).insertAll is
  obtain ⟨o, ho, hroot, hwalks, htraverse⟩ := hl.traverse_spec
  refine ⟨⟨o, ho, hroot, htraverse ▸ hwalks, htraverse, ?_⟩, hl.traverse_perm,
    fun v hv => hl.depth_iff hv, hl.height_greatest, fun i hi => ?_⟩
  · rw [nodes, htraverse, map_visits]
  · obtain ⟨v, hv, hhandle⟩ := hl.exists_visit hi
    have hd : t.ancestor? i.parent v.depth = some root := by
      rw [← hhandle, (hl.depth_iff hv).2]
    refine ⟨v.depth, hd, ?_⟩
    rw [insertAll_concat, attempt_of_known hi]
    exact hl.height_append hi hd i.value

end Tree
end StoreQL
