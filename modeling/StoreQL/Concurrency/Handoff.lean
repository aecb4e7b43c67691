/-
# Handing items over

One thread puts items into a buffer, another takes them out, and each waits for the other where it
must.
-/
import StoreQL.Concurrency.Buffer
import StoreQL.Concurrency.Schedule

namespace StoreQL.Concurrency

/-- Two threads and the buffer between them: what is still to be sent, and what was received. -/
structure Handoff (α : Type) where
  pending : List α
  buffer : BoundedBuffer α
  received : List α
deriving Repr

namespace Handoff

variable {α : Type}

/-- The moves of the two threads. -/
inductive Move where
  | send
  | receive
deriving DecidableEq, Repr

/-- Make a move, if it is possible. -/
def step? (h : Handoff α) : Move → Option (Handoff α)
  | .send =>
    match h.pending with
    | [] => none
    | item :: rest =>
      match h.buffer.produce item with
      | .stored b => some { h with pending := rest, buffer := b }
      | _ => none
  | .receive =>
    match h.buffer.consume with
    | .taken item b => some { h with buffer := b, received := h.received ++ [item] }
    | _ => none

/-- Before anything is sent. -/
def start (buffer : BoundedBuffer α) (items : List α) : Handoff α := ⟨items, buffer, []⟩

/-- Hand all items over; each is sent once and received once. -/
def run (h : Handoff α) : Handoff α :=
  runUntil step? (fun _ => [.send, .receive]) (fun _ => false)
    (2 * h.pending.length + h.buffer.count) h

end Handoff
end StoreQL.Concurrency
