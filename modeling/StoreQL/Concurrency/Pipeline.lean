/-
# Pipelines

A pipeline is a list of stages, each of which is laid behind the one before it: a filter, a
transformation, or a fan, which parts the stream among some threads and joins theirs again. The
order of the items is kept by all but the fan.
-/
import StoreQL.Concurrency.Network

namespace StoreQL.Concurrency

/-- A stage of a pipeline. -/
inductive PipelineStage (α : Type) where
  | filter (keep : α → Bool)
  | transform (f : α → α)
  | fan (streams : Nat)

/-- A list of stages. -/
structure Pipeline (α : Type) where
  stages : List (PipelineStage α)

namespace Pipeline

variable {α : Type}

/-- The pipeline without stages. -/
def empty : Pipeline α := ⟨[]⟩

/-- The pipeline with one more stage at its end. -/
def stage (p : Pipeline α) (s : PipelineStage α) : Pipeline α := ⟨p.stages ++ [s]⟩

/-- The number of stages. -/
def size (p : Pipeline α) : Nat := p.stages.length

/-- Whether there are no stages. -/
def isEmpty (p : Pipeline α) : Bool := p.stages.isEmpty

/-- The network with a stage behind it. -/
def attachStage (n : Network α) : PipelineStage α → Network α
  | .filter keep => n.attach (fun x => if keep x then some x else none)
  | .transform f => n.attach (fun x => some (f x))
  | .fan streams => n.attachFan streams

/-- The network with the stages of the pipeline behind it. -/
def network (p : Pipeline α) (input : Network α) : Network α := p.stages.foldl attachStage input

/-- What is received at the end of the pipeline: everything, or the first items up to a limit. -/
def execute (p : Pipeline α) (input : Network α) (limit : Option Nat) : List α :=
  let n := p.network input
  (n.run (fun n => limit == some n.received.length) n.moveBound).received

end Pipeline
end StoreQL.Concurrency
