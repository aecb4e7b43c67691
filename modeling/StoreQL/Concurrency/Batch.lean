/-
# Batches

A batch is a list of items that are processed by a pool of workers, each item in a task of its own.
Both queues of the pool have room for every item, so every task is accepted and no worker waits to
publish. The memory of the pool holds a slot for each item. A task whose item cannot be processed
writes the error into the slot of its item, and fails with the message of the error.
-/
import StoreQL.Concurrency.WorkerPool

namespace StoreQL.Concurrency

variable {α ε : Type}

/-- A task of a batch: it has the place of its item for a label, and may write into the slots. -/
abbrev BatchTask (ε : Type) := Task Nat String (List (Option ε))

/-- A pool for such tasks, with the slots for its memory. -/
abbrev BatchPool (ε : Type) := WorkerPool Nat String (List (Option ε))

/-- The task that processes item number `i`. -/
def batchTask (message : ε → String) (process : α → TaskOutcome ε) (i : Nat) (item : α) :
    BatchTask ε :=
  match process item with
  | .succeeds => ⟨i, false, .succeeds, id⟩
  | .fails error => ⟨i, false, .fails (message error), fun slots => slots.set i (some error)⟩
  | .panics => ⟨i, false, .panics, id⟩

/-- The tasks of a batch. -/
def batchTasks (message : ε → String) (process : α → TaskOutcome ε) (items : List α) :
    List (BatchTask ε) :=
  items.mapIdx (batchTask message process)

/-- The pool of a batch, with at least one worker and an empty slot for each item, before its
workers have done anything. -/
def batchPool (workers size : Nat) : BatchPool ε :=
  let workers := max workers 1
  { WorkerPool.create workers (max size 1) (List.replicate size none) with
    started := true, workers := List.replicate workers .checking }

/-- The pool of a batch, when all its workers have ended. -/
def runBatch (message : ε → String) (items : List α) (workers : Nat)
    (process : α → TaskOutcome ε) : BatchPool ε :=
  ((batchTasks message process items).foldl (fun p task => (p.submit task).2)
    (batchPool workers items.length)).stop

/-- Process the items of a batch: the slots of the items. -/
def batchProcess (message : ε → String) (items : List α) (workers : Nat)
    (process : α → TaskOutcome ε) : List (Option ε) :=
  (runBatch message items workers process).memory

end StoreQL.Concurrency
