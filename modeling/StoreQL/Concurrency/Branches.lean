/-
# Streams that are read from outside

A fan parts a stream among some threads. Each of them reads the stream, and passes on what it takes
on a stream of its own, so that they compete for the items: an item comes out of one of the new
streams, and which one that is depends on the schedule. Here the new streams are read from outside.
No one who reads stops before the stream is closed, so an offer to them is only given up when the
token is cancelled.

The threads are those of a network, none of whose streams counts as its last one. What is read is
kept in one list, each item with the number of the stream that it was read from.
-/
import StoreQL.Concurrency.Network

namespace StoreQL.Concurrency

/-- Stations, the streams that are read from outside, the token, and what was read. -/
structure Branches (α : Type) where
  stations : List (Station α)
  outlets : List Nat
  cancelled : Bool
  received : List (Nat × α)

/-- The items of a stream, among items with the numbers of their streams. -/
def itemsOn {α : Type} (stream : Nat) (log : List (Nat × α)) : List α :=
  (log.filter (fun entry => entry.1 == stream)).map Prod.snd

namespace Branches

variable {α : Type}

/-- What can happen: a stream is read from outside; something happens among the threads. -/
inductive Move where
  | take (stream : Nat)
  | thread (move : Network.Move)
deriving DecidableEq, Repr

/-- The threads as a network. -/
def network (b : Branches α) : Network α := ⟨b.stations, b.stations.length, b.cancelled, []⟩

/-- Whether a move gives up an offer that someone outside is still to take. -/
def forsakes (b : Branches α) : Network.Move → Bool
  | .giveUp i => b.outlets.contains i && !b.cancelled
  | _ => false

/-- Make a move, if it is possible. -/
def step? (b : Branches α) : Move → Option (Branches α)
  | .take i => do
    let s ← b.stations[i]?
    let item ← s.offer?
    if b.outlets.contains i then
      some { b with
        stations := b.stations.set i s.offerTaken
        received := b.received ++ [(i, item)] }
    else none
  | .thread m => do
    let n ← b.network.step? m
    if b.forsakes m then none
    else some { b with stations := n.stations, cancelled := n.cancelled }

/-- What was read from a stream. -/
def output (b : Branches α) (stream : Nat) : List α := itemsOn stream b.received

/-- The item that the thread of a stream holds, if it holds one. -/
def held? (b : Branches α) (stream : Nat) : Option α := b.stations[stream]?.bind Station.offer?

/-- Whether a stream is closed. -/
def isClosed (b : Branches α) (stream : Nat) : Bool := b.stations[stream]?.all Station.isFinished

end Branches

namespace Network

variable {α : Type}

/-- The last stream of a network, parted among some relays. -/
def fanOut (n : Network α) (streams : Nat) : Branches α where
  stations := n.stations ++ List.replicate streams (.relay (.start [n.outlet] some))
  outlets := List.range' n.stations.length streams
  cancelled := n.cancelled
  received := []

/-- The fan of a pipeline is such a fan, and a relay that reads its streams one after the other. -/
theorem attachFan_eq (n : Network α) (streams : Nat) :
    n.attachFan streams =
      { n with
        stations := (n.fanOut streams).stations ++
          [.relay (.start (n.fanOut streams).outlets some)]
        outlet := (n.fanOut streams).stations.length } := by
  simp [attachFan, fanOut]

end Network
end StoreQL.Concurrency
