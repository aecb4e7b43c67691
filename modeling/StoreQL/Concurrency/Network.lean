/-
# Networks of streams

A network consists of stations, each with a thread of its own and one outgoing stream, known by the
number of the station. A stream holds nothing: an item passes when its station offers it and someone
who reads the stream is there to take it.

A generator offers given items and reads nothing. A relay reads the streams that it is given, one
after the other, and offers what comes of each item, if anything does. Several relays may read the
same stream; an item of it goes to one of them. The last stream is read from outside.

A relay looks at the token before each item, and reads no more if it is cancelled. An offer is only
given up when the token is cancelled or when no one is left who reads the stream. A stream is closed
when its station has finished.
-/
import StoreQL.Concurrency.Schedule

namespace StoreQL.Concurrency

/-! ## 1. Stations -/

/-- Where a relay is. -/
inductive RelayPhase (α : Type) where
  | checking
  | receiving
  | offering (item : α)
  | finished
deriving DecidableEq, Repr

/-- A relay: the streams that it still reads, what comes of an item, and where it is. -/
structure Relay (α : Type) where
  inputs : List Nat
  action : α → Option α
  phase : RelayPhase α

/-- A station: a generator of the items that it has still to offer, or a relay. -/
inductive Station (α : Type) where
  | generator (items : List α)
  | relay (relay : Relay α)

namespace Station

variable {α : Type}

/-- The item that the station offers. -/
def offer? : Station α → Option α
  | .generator items => items.head?
  | .relay r =>
    match r.phase with
    | .offering item => some item
    | _ => none

/-- The station when its offer has been taken. -/
def offerTaken : Station α → Station α
  | .generator items => .generator items.tail
  | .relay r => .relay { r with phase := .checking }

/-- The station when its offer has been given up. -/
def giveUp : Station α → Station α
  | .generator _ => .generator []
  | .relay r => .relay { r with phase := .finished }

/-- Whether the station has closed its stream. -/
def isFinished : Station α → Bool
  | .generator items => items.isEmpty
  | .relay r =>
    match r.phase with
    | .finished => true
    | _ => false

/-- Whether the station reads a stream, now or later. -/
def reads (stream : Nat) : Station α → Bool
  | .generator _ => false
  | .relay r =>
    match r.phase with
    | .finished => false
    | _ => r.inputs.contains stream

/-- The items that a generator has still to offer. -/
def unoffered : Station α → List α
  | .generator items => items
  | .relay _ => []

end Station

namespace Relay

variable {α : Type}

/-- A relay before its first item. -/
def start (inputs : List Nat) (action : α → Option α) : Relay α := ⟨inputs, action, .checking⟩

/-- The relay when a stream is not read any further: it goes on to the next one, if there is one. -/
def nextInput (r : Relay α) : Relay α :=
  { r with
    inputs := r.inputs.tail
    phase := if r.inputs.tail.isEmpty then .finished else .checking }

/-- The relay at the head of its loop. -/
def check (r : Relay α) (cancelled : Bool) : Relay α :=
  if r.inputs.isEmpty || cancelled then r.nextInput else { r with phase := .receiving }

/-- The relay when it has taken an item. -/
def accept (r : Relay α) (item : α) : Relay α :=
  match r.action item with
  | some out => { r with phase := .offering out }
  | none => { r with phase := .checking }

end Relay

/-! ## 2. Networks -/

/-- Stations, the number of the last stream, the token, and what was received from outside. -/
structure Network (α : Type) where
  stations : List (Station α)
  outlet : Nat
  cancelled : Bool
  received : List α

namespace Network

variable {α : Type}

/-- What can happen: the last stream is read; a relay looks at the token, takes an item, finds its
stream closed, or looks at the token while it waits for an item; an offer is given up; the token is
cancelled. -/
inductive Move where
  | read
  | check (relay : Nat)
  | accept (relay : Nat)
  | closed (relay : Nat)
  | recheck (relay : Nat)
  | giveUp (station : Nat)
  | cancel
deriving DecidableEq, Repr

/-- The network with another station in place of station `i`. -/
def setStation (n : Network α) (i : Nat) (s : Station α) : Network α :=
  { n with stations := n.stations.set i s }

/-- The relay `i`, if it is one. -/
def relay? (n : Network α) (i : Nat) : Option (Relay α) :=
  match n.stations[i]? with
  | some (.relay r) => some r
  | _ => none

/-- The relay `i` and the number of the stream that it waits at, if it waits. -/
def receiver? (n : Network α) (i : Nat) : Option (Relay α × Nat) :=
  match n.relay? i with
  | some r =>
    match r.phase with
    | .receiving => r.inputs.head?.map (fun input => (r, input))
    | _ => none
  | none => none

/-- Whether anyone is left who reads a stream. -/
def isRead (n : Network α) (stream : Nat) : Bool :=
  n.outlet == stream || n.stations.any (Station.reads stream)

/-- Make a move, if it is possible. -/
def step? (n : Network α) : Move → Option (Network α)
  | .read => do
    let s ← n.stations[n.outlet]?
    let item ← s.offer?
    return { n.setStation n.outlet s.offerTaken with received := n.received ++ [item] }
  | .check i => do
    let r ← n.relay? i
    match r.phase with
    | .checking => some (n.setStation i (.relay (r.check n.cancelled)))
    | _ => none
  | .accept i => do
    let (r, input) ← n.receiver? i
    let s ← n.stations[input]?
    let item ← s.offer?
    return (n.setStation input s.offerTaken).setStation i (.relay (r.accept item))
  | .closed i => do
    let (r, input) ← n.receiver? i
    let s ← n.stations[input]?
    if s.isFinished then some (n.setStation i (.relay r.nextInput)) else none
  | .recheck i => do
    let (r, _) ← n.receiver? i
    if n.cancelled then some (n.setStation i (.relay { r with phase := .checking })) else none
  | .giveUp i => do
    let s ← n.stations[i]?
    let _ ← s.offer?
    if n.cancelled || !n.isRead i then some (n.setStation i s.giveUp) else none
  | .cancel => some { n with cancelled := true }

/-! ## 3. Building and running a network -/

/-- The network of one generator. -/
def source (items : List α) : Network α := ⟨[.generator items], 0, false, []⟩

/-- The network of some generators and a relay that reads them one after the other. -/
def merge (inputs : List (List α)) : Network α :=
  ⟨inputs.map .generator ++ [.relay (.start (List.range inputs.length) some)], inputs.length,
    false, []⟩

/-- The network with a relay that reads the last stream. -/
def attach (n : Network α) (action : α → Option α) : Network α :=
  { n with
    stations := n.stations ++ [.relay (.start [n.outlet] action)]
    outlet := n.stations.length }

/-- The network with `streams` relays that read the last stream, and one that reads theirs one after
the other. -/
def attachFan (n : Network α) (streams : Nat) : Network α :=
  let first := n.stations.length
  { n with
    stations := n.stations ++ List.replicate streams (.relay (.start [n.outlet] some)) ++
      [.relay (.start (List.range' first streams) some)]
    outlet := first + streams }

/-- The moves of all threads: items pass as soon as they can, and offers are given up last. -/
def threadMoves (n : Network α) : List Move :=
  let each := List.range n.stations.length
  .read :: (each.map .accept ++ each.map .closed ++ each.map .check ++ each.map .recheck ++
    each.map .giveUp)

/-- Let the threads run until the goal is met, for at most `fuel` moves. -/
def run (n : Network α) (goal : Network α → Bool) (fuel : Nat) : Network α :=
  runUntil step? threadMoves goal fuel n

/-- The number of items that are still to be offered by generators. -/
def pendingItems (n : Network α) : Nat := (n.stations.flatMap Station.unoffered).length

/-- How many moves the threads have at most from the start: three for each station that an item
passes, and three for each stream that a station reads to its end. -/
def moveBound (n : Network α) : Nat :=
  3 * (n.pendingItems + n.stations.length + 1) * (n.stations.length + 1)

end Network
end StoreQL.Concurrency
