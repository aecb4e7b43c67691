/-
# Worker pools

A pool has a queue of tasks and a queue of results, each of which holds so many at most, and a
number of workers. A task is accepted if there is room for it and the pool is neither cancelled nor
stopped. A worker takes the oldest task, runs it, and publishes a result, for which it waits until
there is room; if the pool is cancelled meanwhile it drops the result and ends. It ends also when it
finds the pool cancelled before it takes a task, and when there is no task and the pool is stopped.
A task that panics takes its worker with it and has no result.

A worker waits for a while at a time, and looks at the token when that has run out. By the time it
looks, a task may have come, or room: it ends all the same if the pool is cancelled by then.

What tasks share with whoever submitted them is the memory of the pool: a task writes into it what
it has to, and ends. Some tasks are gated: having begun, they do not go on before a gate is opened.
The pool keeps the labels of the tasks that were begun, in order, and the results of those that came
to an end.
-/
import StoreQL.Concurrency.Schedule

namespace StoreQL.Concurrency

/-- How a task ends. -/
inductive TaskOutcome (ε : Type) where
  | succeeds
  | fails (error : ε)
  | panics
deriving DecidableEq, Repr

/-- A task: its label, whether it waits for the gate, how it ends, and what it writes into the
memory. -/
structure Task (α ε σ : Type) where
  label : α
  gated : Bool
  outcome : TaskOutcome ε
  effect : σ → σ

/-- The result of a task: the worker that ran it, and the error if it failed. -/
structure TaskResult (ε : Type) where
  worker : Nat
  error : Option ε
deriving DecidableEq, Repr

/-- The result of a task, if it has one. -/
def TaskOutcome.result? {ε : Type} (worker : Nat) : TaskOutcome ε → Option (TaskResult ε)
  | .succeeds => some ⟨worker, none⟩
  | .fails error => some ⟨worker, some error⟩
  | .panics => none

/-- Where a worker is. One with a result that is unsent has waited for room in vain. -/
inductive WorkerPhase (α ε σ : Type) where
  | checking
  | waiting
  | running (task : Task α ε σ)
  | publishing (result : TaskResult ε)
  | unsent (result : TaskResult ε)
  | finished

/-- The refusal of a second start. -/
structure AlreadyStarted where
deriving DecidableEq, Repr

/-- The refusal in words. -/
def AlreadyStarted.message (_ : AlreadyStarted) : String := "worker pool already started"

/-- A pool of workers. -/
structure WorkerPool (α ε σ : Type) where
  workerCount : Nat
  capacity : Nat
  tasks : List (Task α ε σ)
  results : List (TaskResult ε)
  workers : List (WorkerPhase α ε σ)
  started : Bool
  stopped : Bool
  cancelled : Bool
  gateOpen : Bool
  begun : List α
  ended : List (α × TaskResult ε)
  memory : σ

namespace WorkerPool

variable {α ε σ : Type}

/-- A pool that has not been started, with queues of a given size and a memory. -/
def create (workers capacity : Nat) (memory : σ) : WorkerPool α ε σ :=
  ⟨workers, capacity, [], [], [], false, false, false, false, [], [], memory⟩

/-! ## 1. What the user does -/

/-- Whether a task would be accepted. -/
def accepts (p : WorkerPool α ε σ) : Bool :=
  !p.cancelled && !p.stopped && decide (p.tasks.length < p.capacity)

/-- Submit a task, and say whether it was accepted. -/
def submit (p : WorkerPool α ε σ) (task : Task α ε σ) : Bool × WorkerPool α ε σ :=
  (p.accepts, if p.accepts then { p with tasks := p.tasks ++ [task] } else p)

/-- Start the workers, none of them if the pool has been stopped. -/
def start (p : WorkerPool α ε σ) : Except AlreadyStarted (WorkerPool α ε σ) :=
  if p.started then .error {}
  else .ok { p with
    started := true
    workers := if p.stopped then [] else List.replicate p.workerCount .checking }

/-- Cancel the pool. -/
def cancel (p : WorkerPool α ε σ) : WorkerPool α ε σ := { p with cancelled := true }

/-- Accept no more tasks. -/
def close (p : WorkerPool α ε σ) : WorkerPool α ε σ := { p with stopped := true }

/-- Open the gate. -/
def openGate (p : WorkerPool α ε σ) : WorkerPool α ε σ := { p with gateOpen := true }

/-- Take the oldest result. -/
def takeResult (p : WorkerPool α ε σ) : Option (TaskResult ε × WorkerPool α ε σ) :=
  match p.results with
  | [] => none
  | r :: rest => some (r, { p with results := rest })

/-! ## 2. What the workers do -/

/-- The pool with worker `i` in another phase. -/
def setWorker (p : WorkerPool α ε σ) (i : Nat) (phase : WorkerPhase α ε σ) : WorkerPool α ε σ :=
  { p with workers := p.workers.set i phase }

/-- A worker that waits for a task takes the oldest. If there is none it ends when the pool is
stopped or, having looked at the token again, cancelled. -/
def takeTask? (p : WorkerPool α ε σ) (i : Nat) : Option (WorkerPool α ε σ) :=
  match p.tasks with
  | task :: rest =>
    some { p.setWorker i (.running task) with tasks := rest, begun := p.begun ++ [task.label] }
  | [] => if p.stopped || p.cancelled then some (p.setWorker i .finished) else none

/-- A worker ends its task, which has written what it has to. -/
def endTask? (p : WorkerPool α ε σ) (i : Nat) (task : Task α ε σ) : Option (WorkerPool α ε σ) :=
  if task.gated && !p.gateOpen then none
  else
    let memory := task.effect p.memory
    match task.outcome.result? i with
    | some r => some { p.setWorker i (.publishing r) with
        ended := p.ended ++ [(task.label, r)], memory := memory }
    | none => some { p.setWorker i .finished with memory := memory }

/-- A worker publishes a result, or, having waited for room in vain, drops it. -/
def publish? (p : WorkerPool α ε σ) (i : Nat) (r : TaskResult ε) : Option (WorkerPool α ε σ) :=
  if p.results.length < p.capacity then
    some { p.setWorker i .checking with results := p.results ++ [r] }
  else if p.cancelled then some (p.setWorker i .finished)
  else none

/-- The next move of worker `i`, if it has one now. -/
def work? (p : WorkerPool α ε σ) (i : Nat) : Option (WorkerPool α ε σ) := do
  match ← p.workers[i]? with
  | .checking => some (p.setWorker i (if p.cancelled then .finished else .waiting))
  | .waiting => p.takeTask? i
  | .running task => p.endTask? i task
  | .publishing r => p.publish? i r
  | .unsent r => some (p.setWorker i (if p.cancelled then .finished else .publishing r))
  | .finished => none

/-- The time for which worker `i` waits has run out, while there was no task and more may come, or
while there was no room. It looks at the token next. -/
def timeOut? (p : WorkerPool α ε σ) (i : Nat) : Option (WorkerPool α ε σ) := do
  match ← p.workers[i]? with
  | .waiting => if p.tasks.isEmpty && !p.stopped then some (p.setWorker i .checking) else none
  | .publishing r =>
    if p.results.length < p.capacity then none else some (p.setWorker i (.unsent r))
  | .checking | .running _ | .unsent _ | .finished => none

/-- What can happen: a worker makes its next move or its wait runs out, or the user does
something. -/
inductive Move (α ε σ : Type) where
  | work (worker : Nat)
  | timeOut (worker : Nat)
  | submit (task : Task α ε σ)
  | start
  | cancel
  | close
  | openGate
  | takeResult

/-- Make a move, if it is possible. A task that is not accepted leaves the pool as it is. -/
def step? (p : WorkerPool α ε σ) : Move α ε σ → Option (WorkerPool α ε σ)
  | .work i => p.work? i
  | .timeOut i => p.timeOut? i
  | .submit task => some (p.submit task).2
  | .start => p.start.toOption
  | .cancel => some p.cancel
  | .close => some p.close
  | .openGate => some p.openGate
  | .takeResult => p.takeResult.map Prod.snd

/-! ## 3. Letting the workers run -/

/-- The moves of the workers. -/
def workMoves (p : WorkerPool α ε σ) : List (Move α ε σ) :=
  (List.range p.workers.length).map Move.work

/-- How many moves the workers have at most, if the user does nothing: four for each task that waits
or runs, and four at the end. -/
def workBound (p : WorkerPool α ε σ) : Nat := 4 * p.tasks.length + 8 * p.workers.length

/-- Let the workers run until none of them has a move. No wait runs out meanwhile: its worker would
only look at the token, and wait again. -/
def settle (p : WorkerPool α ε σ) : WorkerPool α ε σ :=
  runUntil step? workMoves (fun _ => false) p.workBound p

/-- Accept no more tasks, and let the workers end. -/
def stop (p : WorkerPool α ε σ) : WorkerPool α ε σ := p.close.settle

end WorkerPool
end StoreQL.Concurrency
