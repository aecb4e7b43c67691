/-
# Moves and schedules

Threads that share something are modelled by moves: a move is made by one thread, is atomic, and is
possible in some states and not in others. What can come about under any interleaving of the threads
is what some sequence of possible moves leads to (`Reaches`).

A schedule is one of these interleavings: `runUntil` makes the first possible move of a list, again
and again. Where the outcome depends on no interleaving, it is the outcome of that one.

Main statement: `runUntil_reaches`, that a schedule leads nowhere but to what can come about.
-/
namespace StoreQL.Concurrency

variable {S M : Type}

/-- Whether some sequence of possible moves leads from `s` to a state. -/
inductive Reaches (step? : S → M → Option S) (s : S) : S → Prop where
  | refl : Reaches step? s s
  | move {t u : S} (m : M) : Reaches step? s t → step? t m = some u → Reaches step? s u

/-- The state after the first possible one of some moves, if there is one. -/
def firstMove? (step? : S → M → Option S) (moves : List M) (s : S) : Option S :=
  moves.findSome? (step? s)

/-- Make the first possible move of `moves`, again and again: until the goal is met, none is
possible, or `fuel` moves have been made. -/
def runUntil (step? : S → M → Option S) (moves : S → List M) (goal : S → Bool) : Nat → S → S
  | 0, s => s
  | fuel + 1, s =>
    if goal s then s
    else match firstMove? step? (moves s) s with
      | none => s
      | some s' => runUntil step? moves goal fuel s'

/-- What can come about later than what can come about can come about. -/
theorem Reaches.trans {step? : S → M → Option S} {s t u : S} (h : Reaches step? s t)
    (h' : Reaches step? t u) : Reaches step? s u := by
  induction h' with
  | refl => exact h
  | move m _ hm ih => exact .move m ih hm

/-- A first possible move is a possible move. -/
theorem firstMove?_eq_some {step? : S → M → Option S} {moves : List M} {s s' : S}
    (h : firstMove? step? moves s = some s') : ∃ m ∈ moves, step? s m = some s' :=
  List.exists_of_findSome?_eq_some h

/-- **A schedule leads nowhere but to what can come about.** -/
theorem runUntil_reaches (step? : S → M → Option S) (moves : S → List M) (goal : S → Bool) :
    ∀ (fuel : Nat) (s : S), Reaches step? s (runUntil step? moves goal fuel s)
  | 0, _ => .refl
  | fuel + 1, s => by
    unfold runUntil
    split
    · exact .refl
    · split
      · exact .refl
      · rename_i s' h
        obtain ⟨m, _, hm⟩ := firstMove?_eq_some h
        exact Reaches.trans (.move m .refl hm) (runUntil_reaches step? moves goal fuel s')

end StoreQL.Concurrency
