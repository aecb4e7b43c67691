/-
# State machines

A machine has a current state and edges: at most one for a state and an event, to the state that the
event leads to. Triggering an event moves the machine along the edge from its current state, or is
refused if there is none.

Callbacks may be registered for an event. When an event has moved the machine, the callbacks that
are registered for it at that moment run in the order of their registration, each with the old and
the new state, and whatever they do, the event's answer is the new state. A callback may do to the
machine whatever anyone may: read it, trigger events, add edges, register callbacks. Besides, it may
take notes and read what has been noted so far, by itself or by others, at any time; what callbacks
count or keep is kept there. So a callback is written as a `Script`, the list of its deeds, each with
what comes after, and a script that triggers an event runs the callbacks of that event before it
goes on.

Such runs need not end. `Machine.trigger` takes the depth to which events may be triggered from
within events, and has no answer if a run goes deeper.
-/
namespace StoreQL

/-- The refusal of an event: there is no edge for it from the state. -/
structure InvalidTransition (σ ε : Type) where
  state : σ
  event : ε
deriving DecidableEq, Repr

/-- The refusal in words. -/
def InvalidTransition.message [ToString σ] [ToString ε] (e : InvalidTransition σ ε) : String :=
  s!"invalid transition: no '{e.event}' edge from state '{e.state}'"

/-- What a callback does: deeds one after the other, each with what comes after it. A deed that asks
for something goes on according to the answer. -/
inductive Script (σ ε ω : Type) where
  | done
  | note (entry : ω) (next : Script σ ε ω)
  | readNotes (next : List ω → Script σ ε ω)
  | readState (next : σ → Script σ ε ω)
  | readEvents (next : List ε → Script σ ε ω)
  | trigger (event : ε) (next : Except (InvalidTransition σ ε) σ → Script σ ε ω)
  | addEdge (source : σ) (event : ε) (target : σ) (next : Script σ ε ω)
  | register (event : ε) (callback : σ → σ → Script σ ε ω) (next : Script σ ε ω)

/-- An edge: the event leads from the source to the target. -/
structure Edge (σ ε : Type) where
  source : σ
  event : ε
  target : σ
deriving DecidableEq, Repr

/-- Whether an edge is for a state and an event. -/
def Edge.isFor [DecidableEq σ] [DecidableEq ε] (e : Edge σ ε) (source : σ) (event : ε) : Bool :=
  decide (e.source = source) && decide (e.event = event)

/-- A machine: its current state, its edges and its callbacks, each in the order of registration, and
the notes that its callbacks have taken, oldest first. -/
structure Machine (σ ε ω : Type) where
  current : σ
  edges : List (Edge σ ε)
  callbacks : List (ε × (σ → σ → Script σ ε ω))
  notes : List ω

namespace Machine

variable {σ ε ω : Type} [DecidableEq σ] [DecidableEq ε]

/-! ## 1. Edges and callbacks -/

/-- A machine without edges. -/
def start (initial : σ) : Machine σ ε ω := ⟨initial, [], [], []⟩

/-- The edges with one more, which takes the place of the one for the same state and event. -/
def putEdge (edge : Edge σ ε) : List (Edge σ ε) → List (Edge σ ε)
  | [] => [edge]
  | e :: rest => if e.isFor edge.source edge.event then edge :: rest else e :: putEdge edge rest

/-- Add an edge. -/
def addEdge (m : Machine σ ε ω) (source : σ) (event : ε) (target : σ) : Machine σ ε ω :=
  { m with edges := putEdge ⟨source, event, target⟩ m.edges }

/-- Register a callback for an event. -/
def register (m : Machine σ ε ω) (event : ε) (callback : σ → σ → Script σ ε ω) : Machine σ ε ω :=
  { m with callbacks := m.callbacks ++ [(event, callback)] }

/-- Take a note. -/
def note (m : Machine σ ε ω) (entry : ω) : Machine σ ε ω := { m with notes := m.notes ++ [entry] }

/-- The state that an event leads to from the current state. -/
def target? (m : Machine σ ε ω) (event : ε) : Option σ :=
  (m.edges.find? (fun e => e.isFor m.current event)).map Edge.target

/-- Whether an event leads anywhere from the current state. -/
def canTransition (m : Machine σ ε ω) (event : ε) : Bool :=
  m.edges.any (fun e => e.isFor m.current event)

/-- The events that lead anywhere from the current state, in the order of registration. -/
def validEvents (m : Machine σ ε ω) : List ε :=
  (m.edges.filter (fun e => decide (e.source = m.current))).map Edge.event

/-- The callbacks for an event, in the order of registration. -/
def callbacksFor (m : Machine σ ε ω) (event : ε) : List (σ → σ → Script σ ε ω) :=
  (m.callbacks.filter (fun c => decide (c.1 = event))).map Prod.snd

/-! ## 2. Running callbacks -/

/-- What a triggered event comes to: its answer, and the machine afterwards. -/
structure Outcome (σ ε ω : Type) where
  answer : Except (InvalidTransition σ ε) σ
  machine : Machine σ ε ω

/-- Run a script, given how events are triggered from within. -/
def runScript (fire : Machine σ ε ω → ε → Option (Outcome σ ε ω)) :
    Script σ ε ω → Machine σ ε ω → Option (Machine σ ε ω)
  | .done, m => some m
  | .note entry next, m => runScript fire next (m.note entry)
  | .readNotes next, m => runScript fire (next m.notes) m
  | .readState next, m => runScript fire (next m.current) m
  | .readEvents next, m => runScript fire (next m.validEvents) m
  | .trigger event next, m => do
    let o ← fire m event
    runScript fire (next o.answer) o.machine
  | .addEdge source event target next, m => runScript fire next (m.addEdge source event target)
  | .register event callback next, m => runScript fire next (m.register event callback)

/-- Run some callbacks one after the other. -/
def runCallbacks (fire : Machine σ ε ω → ε → Option (Outcome σ ε ω)) (old new : σ) :
    List (σ → σ → Script σ ε ω) → Machine σ ε ω → Option (Machine σ ε ω)
  | [], m => some m
  | callback :: rest, m => do
    let m ← runScript fire (callback old new) m
    runCallbacks fire old new rest m

/-- Trigger an event, from within which events may be triggered to the given depth. -/
def trigger : (depth : Nat) → Machine σ ε ω → ε → Option (Outcome σ ε ω)
  | 0, _, _ => none
  | depth + 1, m, event =>
    match m.target? event with
    | none => some ⟨.error ⟨m.current, event⟩, m⟩
    | some new => do
      let moved := { m with current := new }
      let m' ← runCallbacks (trigger depth) m.current new (m.callbacksFor event) moved
      return ⟨.ok new, m'⟩

end Machine
end StoreQL
