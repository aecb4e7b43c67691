/-
# Producers and consumers

Any number of producer loops put items into one buffer, and any number of consumer loops take them
out. A loop looks at the token before each round and ends if it is cancelled. A producer calls its
function, and then puts the item in, unless the token is cancelled while there is no room: then the
item is given back to it and it ends. A consumer takes an item out and hands it to its function,
unless the token is cancelled while there is none.

The phases of a loop are the places between its moves; each operation on the buffer is one move. The
function of a producer is given by what each of its calls returns, in order. A call that does not
return ends the loop.
-/
import StoreQL.Concurrency.Buffer
import StoreQL.Concurrency.Schedule

namespace StoreQL.Concurrency

/-! ## 1. Loops -/

/-- Where a producer is. -/
inductive ProducerPhase (α : Type) where
  | checking
  | calling
  | holding (item : α)
  | finished (returned : Option α)
deriving DecidableEq, Repr

/-- A producer: what its calls return, how many there were, and where it is. -/
structure Producer (α : Type) where
  result : Nat → Option α
  calls : Nat
  phase : ProducerPhase α

/-- A producer before its first round. -/
def Producer.start (result : Nat → Option α) : Producer α := ⟨result, 0, .checking⟩

/-- The next move of a producer, if it has one now. -/
def Producer.step? (p : Producer α) (cancelled : Bool) (b : BoundedBuffer α) :
    Option (Producer α × BoundedBuffer α) :=
  match p.phase with
  | .checking => some ({ p with phase := if cancelled then .finished none else .calling }, b)
  | .calling =>
    let phase := match p.result p.calls with
      | some item => .holding item
      | none => .finished none
    some ({ p with calls := p.calls + 1, phase := phase }, b)
  | .holding item =>
    match b.produceUntil cancelled item with
    | .stored b' => some ({ p with phase := .checking }, b')
    | .returned item => some ({ p with phase := .finished (some item) }, b)
    | .waits => none
  | .finished _ => none

/-- Where a consumer is. -/
inductive ConsumerPhase (α : Type) where
  | checking
  | waiting
  | handling (item : α)
  | finished
deriving DecidableEq, Repr

/-- The next move of a consumer, if it has one now: where it is then, the buffer, and the item that
it has handed to its function. -/
def ConsumerPhase.step? (c : ConsumerPhase α) (cancelled : Bool) (b : BoundedBuffer α) :
    Option (ConsumerPhase α × BoundedBuffer α × Option α) :=
  match c with
  | .checking => some (if cancelled then .finished else .waiting, b, none)
  | .waiting =>
    match b.consumeUntil cancelled with
    | .taken item b' => some (.handling item, b', none)
    | .nothing => some (.finished, b, none)
    | .waits => none
  | .handling item => some (.checking, b, some item)
  | .finished => none

/-! ## 2. The system -/

/-- Loops around a buffer, the token, and the items that the consumers have handled, in order. -/
structure ProducerConsumerSystem (α : Type) where
  buffer : BoundedBuffer α
  cancelled : Bool
  producers : List (Producer α)
  consumers : List (ConsumerPhase α)
  consumed : List α

namespace ProducerConsumerSystem

variable {α : Type}

/-- What can happen: a loop makes its next move, or the token is cancelled. -/
inductive Move where
  | producer (i : Nat)
  | consumer (i : Nat)
  | cancel
deriving DecidableEq, Repr

/-- A system without loops. -/
def create (capacity : Nat) : Except NoCapacity (ProducerConsumerSystem α) :=
  (BoundedBuffer.create capacity).map (fun b => ⟨b, false, [], [], []⟩)

/-- Make a move, if it is possible. -/
def step? (s : ProducerConsumerSystem α) : Move → Option (ProducerConsumerSystem α)
  | .producer i => do
    let p ← s.producers[i]?
    let (p, b) ← p.step? s.cancelled s.buffer
    return { s with producers := s.producers.set i p, buffer := b }
  | .consumer i => do
    let c ← s.consumers[i]?
    let (c, b, handled) ← c.step? s.cancelled s.buffer
    return { s with
      consumers := s.consumers.set i c, buffer := b, consumed := s.consumed ++ handled.toList }
  | .cancel => some { s with cancelled := true }

/-- Start a producer. -/
def startProducer (s : ProducerConsumerSystem α) (result : Nat → Option α) :
    ProducerConsumerSystem α :=
  { s with producers := s.producers ++ [.start result] }

/-- Start a consumer. -/
def startConsumer (s : ProducerConsumerSystem α) : ProducerConsumerSystem α :=
  { s with consumers := s.consumers ++ [.checking] }

/-- The number of calls of the producers' functions. -/
def calls (s : ProducerConsumerSystem α) : Nat := 
  s.producers.foldl (fun n p => n + p.calls) 0

/-- The moves of the loops, those of the consumers first. -/
def loopMoves (s : ProducerConsumerSystem α) : List Move :=
  (List.range s.consumers.length).map Move.consumer ++
    (List.range s.producers.length).map Move.producer

/-- Let the loops run until the goal is met, for at most `fuel` moves. -/
def run (s : ProducerConsumerSystem α) (goal : ProducerConsumerSystem α → Bool) (fuel : Nat) :
    ProducerConsumerSystem α :=
  runUntil step? loopMoves goal fuel s

/-- Cancel the token and let the loops end, each of which has at most four moves left then. -/
def stop (s : ProducerConsumerSystem α) : ProducerConsumerSystem α :=
  { s with cancelled := true }.run (fun _ => false) (4 * (s.producers.length + s.consumers.length))

end ProducerConsumerSystem
end StoreQL.Concurrency
