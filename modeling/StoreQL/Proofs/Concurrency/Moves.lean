/-
# What moves keep, and when they end

Threads that share something make moves, and what can come about is what some sequence of moves
leads to. Three arguments about such sequences come back wherever there are threads:

* what every move keeps is true of all that can come about (`Reaches.keeps`);
* where a rank falls with every move, a schedule comes to its end, which is a state in which its
  goal is met or none of its moves is possible (`runUntil_ends`);
* threads stand in a list, and a move replaces one of them, so what all threads hold together
  changes by what this one held and what it holds now (`flatMap_set_perm`, `sum_set`).

Items pass through a thread when it takes some in and gives some out: what it held and took in is
what it gave out and holds. `flatMap_set_passes` says that they pass through all threads together
then.
-/
import Mathlib.Algebra.BigOperators.Group.List.Basic
import Mathlib.Algebra.GroupWithZero.Nat
import StoreQL.Concurrency.Schedule

namespace StoreQL.Concurrency

open scoped List

/-! ## 1. Invariants -/

section Invariants

variable {S M : Type} {step? : S → M → Option S} {s t : S}

/-- **What every move keeps is true of all that can come about.** -/
theorem Reaches.keeps {P : S → Prop}
    (hstep : ∀ {u v : S} {m : M}, P u → step? u m = some v → P v) (hs : P s)
    (h : Reaches step? s t) : P t := by
  induction h with
  | refl => exact hs
  | move m _ hm ih => exact hstep ih hm

/-- What a list of moves leads to can come about. -/
theorem reaches_of_foldlM {ms : List M} (h : ms.foldlM step? s = some t) : Reaches step? s t := by
  induction ms generalizing s with
  | nil =>
    cases h
    exact .refl
  | cons m ms ih =>
    rw [List.foldlM_cons] at h
    obtain ⟨u, hm, hrest⟩ := Option.bind_eq_some_iff.mp h
    exact Reaches.trans (.move m .refl hm) (ih hrest)

end Invariants

/-! ## 2. Schedules that end -/

section Schedules

variable {S M : Type} {step? : S → M → Option S} {moves : S → List M} {goal : S → Bool}

theorem firstMove?_eq_none_iff {ms : List M} {s : S} :
    firstMove? step? ms s = none ↔ ∀ m ∈ ms, step? s m = none :=
  List.findSome?_eq_none_iff

/-- **A schedule whose moves lower a rank ends**, if it may make as many moves as the rank is
high. -/
theorem runUntil_ends {P : S → Prop} (rank : S → Nat)
    (hstep : ∀ {u v : S} {m : M}, P u → goal u = false → m ∈ moves u → step? u m = some v →
      P v ∧ rank v < rank u) :
    ∀ (fuel : Nat) (s : S), P s → rank s ≤ fuel →
      P (runUntil step? moves goal fuel s) ∧
        (goal (runUntil step? moves goal fuel s) = true ∨
          ∀ m ∈ moves (runUntil step? moves goal fuel s),
            step? (runUntil step? moves goal fuel s) m = none) := by
  intro fuel
  induction fuel with
  | zero =>
    intro s hs hrank
    refine ⟨hs, ?_⟩
    cases hgoal : goal s with
    | true => exact Or.inl hgoal
    | false =>
      refine Or.inr fun m hm => ?_
      cases hmove : step? s m with
      | none => exact hmove
      | some u => exact absurd (hstep hs hgoal hm hmove).2 (by omega)
  | succ fuel ih =>
    intro s hs hrank
    rw [runUntil]
    split
    · rename_i hgoal
      exact ⟨hs, Or.inl hgoal⟩
    · rename_i hgoal
      cases hfirst : firstMove? step? (moves s) s with
      | none => exact ⟨hs, Or.inr (firstMove?_eq_none_iff.mp hfirst)⟩
      | some u =>
        obtain ⟨m, hm, hmove⟩ := firstMove?_eq_some hfirst
        obtain ⟨hu, hlt⟩ := hstep hs (Bool.eq_false_iff.mpr hgoal) hm hmove
        exact ih u hu (by omega)

end Schedules

/-! ## 3. What all threads hold -/

section Threads

variable {T β : Type} {l : List T} {i : Nat} {a b : T}

theorem lt_of_getElem?_eq_some (h : l[i]? = some a) : i < l.length :=
  (List.getElem?_eq_some_iff.mp h).1

theorem getElem?_set_of_eq_some (h : l[i]? = some a) (k : Nat) :
    (l.set i b)[k]? = if i = k then some b else l[k]? := by
  rw [List.getElem?_set]
  split
  · rw [if_pos (lt_of_getElem?_eq_some h)]
  · rfl

/-- One thread is replaced: it gives up what it held, and has what it holds. -/
theorem flatMap_set_perm (f : T → List β) (h : l[i]? = some a) :
    ((l.set i b).flatMap f ++ f a).Perm (l.flatMap f ++ f b) := by
  induction l generalizing i with
  | nil => simp at h
  | cons x l ih =>
    cases i with
    | zero =>
      cases h
      calc
        (f b ++ l.flatMap f) ++ f a
            ~ f a ++ (f b ++ l.flatMap f) := List.perm_append_comm
        _ ~ f a ++ (l.flatMap f ++ f b) := List.perm_append_comm.append_left _
        _ = (f a ++ l.flatMap f) ++ f b := (List.append_assoc _ _ _).symm
    | succ i =>
      simp only [List.set_cons_succ, List.flatMap_cons, List.append_assoc]
      exact (ih h).append_left _

/-- **Items that pass through one thread pass through all threads together.** -/
theorem flatMap_set_passes {f : T → List β} {taken given : List β} (h : l[i]? = some a)
    (hpass : f a ++ taken = given ++ f b) :
    (l.flatMap f ++ taken) ~ (given ++ (l.set i b).flatMap f) := by
  classical
  refine List.perm_iff_count.mpr fun x => ?_
  have hset : (((l.set i b).flatMap f) ++ f a).count x = (l.flatMap f ++ f b).count x :=
    (flatMap_set_perm f h).count_eq x
  have hone : (f a ++ taken).count x = (given ++ f b).count x := by rw [hpass]
  simp only [List.count_append] at hset hone ⊢
  omega

theorem sum_set (f : T → Nat) (h : l[i]? = some a) :
    ((l.set i b).map f).sum + f a = (l.map f).sum + f b := by
  induction l generalizing i with
  | nil => simp at h
  | cons x l ih =>
    cases i with
    | zero =>
      cases h
      simp only [List.set_cons_zero, List.map_cons, List.sum_cons]
      omega
    | succ i =>
      have hrest : ((l.set i b).map f).sum + f a = (l.map f).sum + f b := ih h
      simp only [List.set_cons_succ, List.map_cons, List.sum_cons]
      omega

/-- What the thread at a place holds; nothing if there is none. -/
def heldAt (f : T → List β) (l : List T) (k : Nat) : List β := (l[k]?.map f).getD []

theorem heldAt_of_eq_some {f : T → List β} (h : l[i]? = some a) : heldAt f l i = f a := by
  rw [heldAt, h]
  rfl

theorem heldAt_of_le {f : T → List β} {k : Nat} (h : l.length ≤ k) : heldAt f l k = [] := by
  rw [heldAt, List.getElem?_eq_none h]
  rfl

theorem heldAt_of_forall {f : T → List β} (h : ∀ a ∈ l, f a = []) (k : Nat) :
    heldAt f l k = [] := by
  cases ha : l[k]? with
  | none => exact heldAt_of_le (List.getElem?_eq_none_iff.mp ha)
  | some a => rw [heldAt_of_eq_some ha, h a (List.mem_of_getElem? ha)]

theorem heldAt_set {f : T → List β} (h : l[i]? = some a) (k : Nat) :
    heldAt f (l.set i b) k = if i = k then f b else heldAt f l k := by
  rw [heldAt, getElem?_set_of_eq_some h]
  split <;> rfl

theorem heldAt_set_ne {f : T → List β} {k : Nat} (h : i ≠ k) :
    heldAt f (l.set i b) k = heldAt f l k := by
  rw [heldAt, heldAt, List.getElem?_set_ne h]

/-- A thread that is not among some does not come into what they hold. -/
theorem flatMap_heldAt_set {f : T → List β} {ks : List Nat} (h : i ∉ ks) :
    ks.flatMap (heldAt f (l.set i b)) = ks.flatMap (heldAt f l) := by
  refine List.flatMap_congr fun k hk => heldAt_set_ne ?_
  rintro rfl
  exact h hk

/-- What the first threads hold together is what is held at their places. -/
theorem flatMap_range_heldAt (f : T → List β) (l rest : List T) :
    (List.range l.length).flatMap (heldAt f (l ++ rest)) = l.flatMap f := by
  induction l generalizing rest with
  | nil => rfl
  | cons a l ih =>
    rw [List.length_cons, List.range_succ_eq_map, List.flatMap_cons, List.flatMap_map]
    exact congrArg (f a ++ ·) (ih rest)

/-- Items that pass through one thread pass through no other. -/
theorem heldAt_set_passes {f : T → List β} {taken given : List β} (h : l[i]? = some a)
    (hpass : f a ++ taken = given ++ f b) (k : Nat) :
    heldAt f l k ++ (if i = k then taken else []) =
      (if i = k then given else []) ++ heldAt f (l.set i b) k := by
  rw [heldAt_set h]
  by_cases hk : i = k
  · subst hk
    simp only [if_true]
    rw [heldAt_of_eq_some h, hpass]
  · simp only [if_neg hk, List.append_nil, List.nil_append]

/-- A thread more, which holds nothing. -/
theorem heldAt_append_of_nil {f : T → List β} (hb : f b = []) (k : Nat) :
    heldAt f (l ++ [b]) k = heldAt f l k := by
  rcases Nat.lt_trichotomy k l.length with hlt | rfl | hgt
  · rw [heldAt, heldAt, List.getElem?_append_left hlt]
  · rw [heldAt_of_le (Nat.le_refl _), heldAt, List.getElem?_concat_length]
    exact hb
  · rw [heldAt_of_le (Nat.le_of_lt hgt), heldAt_of_le]
    simp only [List.length_append, List.length_singleton]
    omega

/-- What was taken in, if it was in balance before and something passes. -/
theorem append_passes {taken given held more less held' : List β} (h : taken = given ++ held)
    (hpass : held ++ more = less ++ held') : taken ++ more = (given ++ less) ++ held' := by
  rw [h, List.append_assoc, hpass, List.append_assoc]

theorem append_passes_perm {taken given held more less held' : List β} (h : taken ~ (given ++ held))
    (hpass : (held ++ more) ~ (less ++ held')) : (taken ++ more) ~ ((given ++ less) ++ held') := by
  calc
    taken ++ more
        ~ (given ++ held) ++ more := h.append_right more
    _ = given ++ (held ++ more) := List.append_assoc _ _ _
    _ ~ given ++ (less ++ held') := hpass.append_left given
    _ = (given ++ less) ++ held' := (List.append_assoc _ _ _).symm

end Threads
end StoreQL.Concurrency
