/-
# Bounded buffers

A buffer holds items up to its capacity and gives them back in the order in which they came. It
keeps them in a ring of slots: the oldest at the head, the others in the slots after it, going on
from the first slot after the last one.

Each operation is atomic. One that must wait says so (`waits`), and nothing has changed then: a
thread that waits is one that has not made its move. An operation with a token waits only until the
token is cancelled.
-/
namespace StoreQL.Concurrency

/-- The refusal of a buffer without room. -/
structure NoCapacity where
deriving DecidableEq, Repr

/-- The refusal in words. -/
def NoCapacity.message (_ : NoCapacity) : String := "bounded buffer capacity must be at least 1"

/-- A ring of slots, of which `count` are occupied from `head` on. -/
structure BoundedBuffer (α : Type) where
  slots : Array (Option α)
  head : Nat
  count : Nat
deriving Repr

/-- What becomes of an item that is to be put into a buffer. -/
inductive Produced (α : Type) where
  | stored (buffer : BoundedBuffer α)
  | returned (item : α)
  | waits
deriving Repr

/-- What comes of taking an item out of a buffer. -/
inductive Consumed (α : Type) where
  | taken (item : α) (buffer : BoundedBuffer α)
  | nothing
  | waits
deriving Repr

namespace BoundedBuffer

variable {α : Type}

/-! ## 1. The ring -/

/-- A ring of empty slots. -/
def ofCapacity (capacity : Nat) : BoundedBuffer α := ⟨Array.replicate capacity none, 0, 0⟩

/-- A buffer of at least one slot. -/
def create (capacity : Nat) : Except NoCapacity (BoundedBuffer α) :=
  if 0 < capacity then .ok (ofCapacity capacity) else .error {}

/-- The number of slots. -/
def capacity (b : BoundedBuffer α) : Nat := b.slots.size

/-- Whether every slot is occupied. -/
def isFull (b : BoundedBuffer α) : Bool := b.count == b.capacity

/-- Whether no slot is occupied. -/
def isEmpty (b : BoundedBuffer α) : Bool := b.count == 0

/-- The slot `k` places after the head. -/
def slotAt (b : BoundedBuffer α) (k : Nat) : Nat := (b.head + k) % b.capacity

/-- Put an item into the first free slot. -/
def push (b : BoundedBuffer α) (item : α) : BoundedBuffer α :=
  { b with slots := b.slots.setIfInBounds (b.slotAt b.count) (some item), count := b.count + 1 }

/-- Take the item out of the slot at the head. -/
def pop (b : BoundedBuffer α) : Option α × BoundedBuffer α :=
  if b.count = 0 then (none, b)
  else
    (b.slots[b.head]?.join,
      ⟨b.slots.setIfInBounds b.head none, b.slotAt 1, b.count - 1⟩)

/-- The items, oldest first. -/
def items (b : BoundedBuffer α) : List α :=
  (List.range b.count).filterMap (fun k => b.slots[b.slotAt k]?.join)

/-! ## 2. Operations -/

/-- Put an item in, or give it back if the buffer is full. -/
def tryProduce (b : BoundedBuffer α) (item : α) : Produced α :=
  if b.isFull then .returned item else .stored (b.push item)

/-- Put an item in, when there is room. -/
def produce (b : BoundedBuffer α) (item : α) : Produced α :=
  if b.isFull then .waits else .stored (b.push item)

/-- Put an item in, when there is room, or give it back when the token is cancelled. -/
def produceUntil (b : BoundedBuffer α) (cancelled : Bool) (item : α) : Produced α :=
  if b.isFull then (if cancelled then .returned item else .waits) else .stored (b.push item)

/-- Take an item out, or do what `otherwise` says if there is none. -/
def consumeOr (b : BoundedBuffer α) (otherwise : Consumed α) : Consumed α :=
  match b.pop with
  | (some item, b') => .taken item b'
  | (none, _) => otherwise

/-- Take an item out, if there is one. -/
def tryConsume (b : BoundedBuffer α) : Consumed α := b.consumeOr .nothing

/-- Take an item out, when there is one. -/
def consume (b : BoundedBuffer α) : Consumed α := b.consumeOr .waits

/-- Take an item out, when there is one, or nothing when the token is cancelled. -/
def consumeUntil (b : BoundedBuffer α) (cancelled : Bool) : Consumed α :=
  b.consumeOr (if cancelled then .nothing else .waits)

end BoundedBuffer
end StoreQL.Concurrency
