/-
# Stacks and queues

A stack gives back the item that was put in last, a queue the one that was put in first. Taking an
item out of an empty one, or looking at the next one there, is refused.
-/
namespace StoreQL

/-- The refusal of an empty container. -/
inductive EmptyContainer where
  | stack
  | queue
deriving DecidableEq, Repr

/-- The refusal in words. -/
def EmptyContainer.message : EmptyContainer → String
  | .stack => "stack is empty"
  | .queue => "queue is empty"

/-! ## 1. Stacks -/

/-- A stack, its top first. -/
structure Stack (α : Type u) where
  items : List α
deriving DecidableEq, Repr

namespace Stack

variable {α : Type u}

/-- The stack of nothing. -/
def empty : Stack α := ⟨[]⟩

/-- Whether there is nothing on the stack. -/
def isEmpty (s : Stack α) : Bool := s.items.isEmpty

/-- The number of items. -/
def size (s : Stack α) : Nat := s.items.length

/-- Put an item on top. -/
def push (s : Stack α) (item : α) : Stack α := ⟨item :: s.items⟩

/-- Take the top off. -/
def pop (s : Stack α) : Except EmptyContainer (α × Stack α) :=
  match s.items with
  | [] => .error .stack
  | item :: rest => .ok (item, ⟨rest⟩)

/-- Look at the top. -/
def peek (s : Stack α) : Except EmptyContainer α := s.pop.map Prod.fst

end Stack

/-! ## 2. Queues -/

/-- A queue, its front first. -/
structure Queue (α : Type u) where
  items : List α
deriving DecidableEq, Repr

namespace Queue

variable {α : Type u}

/-- The queue of nothing. -/
def empty : Queue α := ⟨[]⟩

/-- Whether there is nothing in the queue. -/
def isEmpty (q : Queue α) : Bool := q.items.isEmpty

/-- The number of items. -/
def size (q : Queue α) : Nat := q.items.length

/-- Put an item at the rear. -/
def enqueue (q : Queue α) (item : α) : Queue α := ⟨q.items ++ [item]⟩

/-- Take the front out. -/
def dequeue (q : Queue α) : Except EmptyContainer (α × Queue α) :=
  match q.items with
  | [] => .error .queue
  | item :: rest => .ok (item, ⟨rest⟩)

/-- Look at the front. -/
def front (q : Queue α) : Except EmptyContainer α := q.dequeue.map Prod.fst

end Queue
end StoreQL
