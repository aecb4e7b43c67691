/-
# A pool accounts for its tasks

Beside a pool of workers a record is kept of the tasks that were accepted and of the results that
were read (`PoolRun`). The pool may be started, stopped and cancelled at any time, tasks may be
submitted at any time by any number of threads, and the workers make their moves in any order.

A submit looks at the token and then puts its task into the queue if it can, and something may
happen in between: `look` and `send` are these two moves, and `WorkerPool.submit` is the one after
the other.

`Books r m w` says that the work `w` accounts for everything in the run `r` of a pool that began with
the memory `m`: the tasks that were taken are the first of those that were accepted, what was taken
is what has ended and what is in hand, and so for results; and the memory is what the tasks that
have ended made of `m`, one after the other. Main statements: `Books.step`, that the books are kept
with every move; `Books.allRun`, what they say when a pool that was started has stopped; and
`pool_accounts`, which says what follows for any moves.
-/
import Mathlib.Data.List.Perm.Basic
import Mathlib.Data.List.Perm.Subperm
import StoreQL.Proofs.Concurrency.Workers

namespace StoreQL.Concurrency

open scoped List

variable {α ε σ : Type}

/-- The error of a task that fails. -/
def TaskOutcome.error : TaskOutcome ε → Option ε
  | .fails reason => some reason
  | .succeeds | .panics => none

theorem TaskOutcome.result?_of_returns {outcome : TaskOutcome ε} (h : outcome ≠ .panics)
    (worker : Nat) : outcome.result? worker = some ⟨worker, outcome.error⟩ := by
  cases outcome with
  | panics => exact absurd rfl h
  | succeeds | fails => rfl

theorem append_append_perm {β : Type} (a b c d : List β) :
    ((a ++ b) ++ (c ++ d)) ~ ((a ++ c) ++ (b ++ d)) := by
  rw [List.append_assoc, List.append_assoc]
  exact (List.perm_append_comm_assoc b c d).append_left a

/-! ## 1. Runs of a pool -/

namespace WorkerPool

/-- Put a task into the queue if there is room for it and the pool has not been stopped. -/
def send (p : WorkerPool α ε σ) (task : Task α ε σ) : Bool × WorkerPool α ε σ :=
  if !p.stopped && decide (p.tasks.length < p.capacity) then
    (true, { p with tasks := p.tasks ++ [task] })
  else (false, p)

/-- A submit looks at the token, and puts its task into the queue if it can. -/
theorem submit_eq_send (p : WorkerPool α ε σ) (task : Task α ε σ) :
    p.submit task = if p.cancelled then (false, p) else p.send task := by
  cases hcancelled : p.cancelled <;> simp [submit, accepts, send, hcancelled]
  split <;> simp_all

/-- A pool is started once, and none of its workers if it has been stopped. -/
theorem eq_of_start {p q : WorkerPool α ε σ} (h : p.start.toOption = some q) :
    p.started = false ∧ q = { p with
      started := true
      workers := if p.stopped then [] else List.replicate p.workerCount .checking } := by
  rw [start] at h
  split at h
  · cases h
  · rename_i hunstarted
    cases h
    exact ⟨Bool.eq_false_iff.mpr hunstarted, rfl⟩

/-- The result that is taken is the oldest. -/
theorem eq_of_takeResult {p q : WorkerPool α ε σ} {result : TaskResult ε}
    (h : p.takeResult = some (result, q)) :
    ∃ rest, p.results = result :: rest ∧ q = { p with results := rest } := by
  rw [takeResult] at h
  split at h
  · cases h
  · rename_i hresults
    cases h
    exact ⟨_, hresults, rfl⟩

/-- The task that is accepted by a move. -/
def newTasks (p : WorkerPool α ε σ) : Move α ε σ → List (Task α ε σ)
  | .submit task => if (p.submit task).1 then [task] else []
  | .work _ | .timeOut _ | .start | .cancel | .close | .openGate | .takeResult => []

/-- The result that is read by a move. -/
def newlyRead (p : WorkerPool α ε σ) : Move α ε σ → List (TaskResult ε)
  | .takeResult => (p.takeResult.map Prod.fst).toList
  | .work _ | .timeOut _ | .submit _ | .start | .cancel | .close | .openGate => []

end WorkerPool

/-- A pool, the tasks of submits that have found the token not cancelled, the tasks that were
accepted, and the results that were read. -/
structure PoolRun (α ε σ : Type) where
  pool : WorkerPool α ε σ
  looked : List (Task α ε σ)
  accepted : List (Task α ε σ)
  read : List (TaskResult ε)

/-- What can happen: a move of the pool, or one of the two moves of a submit. -/
inductive PoolAct (α ε σ : Type) where
  | move (m : WorkerPool.Move α ε σ)
  | look (task : Task α ε σ)
  | send (k : Nat)

namespace PoolRun

/-- A pool before it is started. -/
def start (workers capacity : Nat) (memory : σ) : PoolRun α ε σ :=
  ⟨WorkerPool.create workers capacity memory, [], [], []⟩

/-- Do what can happen, and note what was accepted and what was read. -/
def step? (r : PoolRun α ε σ) : PoolAct α ε σ → Option (PoolRun α ε σ)
  | .move m => (r.pool.step? m).map fun p =>
    ⟨p, r.looked, r.accepted ++ r.pool.newTasks m, r.read ++ r.pool.newlyRead m⟩
  | .look task => some (if r.pool.cancelled then r else { r with looked := r.looked ++ [task] })
  | .send k => r.looked[k]?.map fun task =>
    ⟨(r.pool.send task).2, r.looked.eraseIdx k,
      r.accepted ++ (if (r.pool.send task).1 then [task] else []), r.read⟩

/-! ## 2. Books -/

/-- The work `w` accounts for all that has happened to the tasks of a run, since the memory was
`m`. -/
structure Books (r : PoolRun α ε σ) (m : σ) (w : Work α ε σ) : Prop where
  /-- The tasks were taken in the order in which they were accepted, and the others wait. -/
  accepted : r.accepted = w.taken ++ r.pool.tasks
  published : w.published = r.read ++ r.pool.results
  begun : r.pool.begun = w.taken.map Task.label
  ended : r.pool.ended = w.done.filterMap Run.ending?
  /-- The tasks have written one after the other, in the order in which they have ended. -/
  memory : r.pool.memory = Run.effects w.done m
  /-- What was taken has ended or is in hand. -/
  inHand : w.taken ~ (w.done.map Run.task ++ r.pool.inHand)
  /-- The results of what has ended are published, dropped, or still to be published. -/
  unpublished : w.done.filterMap Run.result? ~ ((w.published ++ w.dropped) ++ r.pool.unpublished)
  /-- One worker ends tasks and publishes results in order, until the pool is cancelled. -/
  single : r.pool.cancelled = false → r.pool.workers.length ≤ 1 →
    w.taken = w.done.map Run.task ++ heldAt WorkerPhase.inHand r.pool.workers 0 ∧
      w.done.filterMap Run.result? =
        w.published ++ heldAt WorkerPhase.unpublished r.pool.workers 0
  dropped : r.pool.cancelled = false → w.dropped = []
  ran : ∀ d ∈ w.done, d.worker < r.pool.workers.length
  /-- Why a worker has finished. -/
  finished : WorkerPhase.finished ∈ r.pool.workers → r.pool.cancelled = true ∨
    (r.pool.stopped = true ∧ r.pool.tasks = []) ∨ ∃ d ∈ w.done, d.task.outcome = .panics
  room : r.pool.tasks.length ≤ r.pool.capacity ∧ r.pool.results.length ≤ r.pool.capacity
  staff : r.pool.workers.length ≤ r.pool.workerCount
  staffed : r.pool.started = true → r.pool.stopped = false →
    r.pool.workers.length = r.pool.workerCount
  unstarted : r.pool.started = false → r.pool.workers = []

end PoolRun

/-- One piece of work after another. -/
def Work.add (w v : Work α ε σ) : Work α ε σ :=
  ⟨w.taken ++ v.taken, w.done ++ v.done, w.published ++ v.published, w.dropped ++ v.dropped⟩

namespace PoolRun

variable {r r' : PoolRun α ε σ} {m : σ} {w v : Work α ε σ} {i : Nat} {a b : WorkerPhase α ε σ}
  {p' : WorkerPool α ε σ}

/-- One worker goes on in order. -/
theorem Books.single_work (h : r.Books m w) (hshift : r.pool.Shift i a b v p')
    (huncancelled : r.pool.cancelled = false) (hone : r.pool.workers.length ≤ 1) :
    (w.add v).taken = (w.add v).done.map Run.task ++ heldAt WorkerPhase.inHand p'.workers 0 ∧
      (w.add v).done.filterMap Run.result? =
        (w.add v).published ++ heldAt WorkerPhase.unpublished p'.workers 0 := by
  obtain ⟨hinHand, hunpublished⟩ := h.single huncancelled hone
  -- The worker that moves is the only one there is, and it drops nothing.
  have hlt : i < r.pool.workers.length := lt_of_getElem?_eq_some hshift.worker
  have hi : i = 0 := by omega
  have hpass := hshift.unpublished
  rw [hshift.dropped huncancelled, List.append_nil] at hpass
  have hinHand' := heldAt_set_passes hshift.worker hshift.inHand 0
  have hunpublished' := heldAt_set_passes hshift.worker hpass 0
  rw [if_pos hi, if_pos hi] at hinHand' hunpublished'
  rw [hshift.workers_eq, Work.add, List.map_append, List.filterMap_append]
  exact ⟨append_passes hinHand hinHand', append_passes hunpublished hunpublished'⟩

/-- Why a worker has finished, after another move. -/
theorem Books.finished_work (h : r.Books m w) (hshift : r.pool.Shift i a b v p')
    (hfinished : WorkerPhase.finished ∈ p'.workers) : r.pool.cancelled = true ∨
      (r.pool.stopped = true ∧ p'.tasks = []) ∨
        ∃ d ∈ (w.add v).done, d.task.outcome = .panics := by
  rw [hshift.workers_eq] at hfinished
  rcases List.mem_or_eq_of_mem_set hfinished with hold | hnew
  · -- The worker had finished before, and no task can have come since the pool was stopped.
    rcases h.finished hold with hcancelled | ⟨hstopped, htasks⟩ | ⟨d, hd, hpanics⟩
    · exact Or.inl hcancelled
    · rw [hshift.tasks] at htasks
      exact Or.inr (Or.inl ⟨hstopped, (List.append_eq_nil_iff.mp htasks).2⟩)
    · exact Or.inr (Or.inr ⟨d, List.mem_append_left _ hd, hpanics⟩)
  · rcases hshift.finished hnew.symm with hcancelled | hover | ⟨d, hd, hpanics⟩
    · exact Or.inl hcancelled
    · exact Or.inr (Or.inl hover)
    · exact Or.inr (Or.inr ⟨d, List.mem_append_right _ hd, hpanics⟩)

/-- The books are kept when a worker works. -/
theorem Books.work (h : r.Books m w) (hshift : r.pool.Shift i a b v p') :
    ({ r with pool := p' } : PoolRun α ε σ).Books m (w.add v) := by
  have hworkers : p'.workers = r.pool.workers.set i b := hshift.workers_eq
  have hlength : p'.workers.length = r.pool.workers.length := by rw [hworkers, List.length_set]
  have htasks : p'.tasks.length ≤ r.pool.tasks.length := by
    rw [hshift.tasks, List.length_append]
    exact Nat.le_add_left _ _
  exact {
    accepted := by rw [h.accepted, hshift.tasks, Work.add, List.append_assoc]
    published := by rw [Work.add, h.published, hshift.results, List.append_assoc]
    begun := by rw [hshift.begun, h.begun, Work.add, List.map_append]
    ended := by rw [hshift.ended, h.ended, Work.add, List.filterMap_append]
    memory := by rw [hshift.memory, h.memory, Run.effects, Run.effects, ← List.foldl_append]; rfl
    inHand := by
      rw [WorkerPool.inHand, hworkers, Work.add, List.map_append]
      exact append_passes_perm h.inHand (flatMap_set_passes hshift.worker hshift.inHand)
    unpublished := by
      rw [WorkerPool.unpublished, hworkers, Work.add, List.filterMap_append]
      exact (append_passes_perm h.unpublished
        (flatMap_set_passes hshift.worker hshift.unpublished)).trans
        ((append_append_perm _ _ _ _).append_right _)
    single := fun huncancelled hone =>
      h.single_work hshift (hshift.cancelled_eq ▸ huncancelled) (hlength ▸ hone)
    dropped := fun huncancelled => by
      rw [hshift.cancelled_eq] at huncancelled
      rw [Work.add, h.dropped huncancelled, hshift.dropped huncancelled]
      rfl
    ran := fun d hd => by
      rw [hlength]
      rcases List.mem_append.mp hd with hd | hd
      · exact h.ran d hd
      · exact hshift.ran d hd ▸ lt_of_getElem?_eq_some hshift.worker
    finished := fun hfinished => by
      rw [hshift.cancelled_eq, hshift.stopped_eq]
      exact h.finished_work hshift hfinished
    room := ⟨hshift.capacity_eq ▸ Nat.le_trans htasks h.room.1, hshift.bounded h.room.2⟩
    staff := by
      rw [hlength, hshift.workerCount_eq]
      exact h.staff
    staffed := fun hstarted hopen => by
      rw [hshift.started_eq] at hstarted
      rw [hshift.stopped_eq] at hopen
      rw [hlength, hshift.workerCount_eq]
      exact h.staffed hstarted hopen
    unstarted := fun hunstarted => by
      rw [hshift.started_eq] at hunstarted
      rw [hworkers, h.unstarted hunstarted, List.set_nil] }

/-- The books are kept when a task is accepted. -/
theorem Books.accept (h : r.Books m w) (task : Task α ε σ) (hopen : r.pool.stopped = false)
    (hroom : r.pool.tasks.length < r.pool.capacity) (looked : List (Task α ε σ)) :
    (⟨{ r.pool with tasks := r.pool.tasks ++ [task] }, looked, r.accepted ++ [task],
      r.read⟩ : PoolRun α ε σ).Books m w :=
  { h with
    accepted := by rw [h.accepted, List.append_assoc]
    finished := fun hfinished => by
      rcases h.finished hfinished with hcancelled | ⟨hstopped, -⟩ | hpanics
      · exact Or.inl hcancelled
      · rw [hopen] at hstopped
        cases hstopped
      · exact Or.inr (Or.inr hpanics)
    room := by
      rw [List.length_append, List.length_singleton]
      exact ⟨hroom, h.room.2⟩ }

/-- The books are kept when a task comes to the queue, whether or not it is accepted. -/
theorem Books.send (h : r.Books m w) (task : Task α ε σ) (looked : List (Task α ε σ)) :
    (⟨(r.pool.send task).2, looked, r.accepted ++ (if (r.pool.send task).1 then [task] else []),
      r.read⟩ : PoolRun α ε σ).Books m w := by
  rw [WorkerPool.send]
  split
  · rename_i hgoes
    rw [Bool.and_eq_true, Bool.not_eq_true', decide_eq_true_eq] at hgoes
    exact h.accept task hgoes.1 hgoes.2 looked
  · simp only [Bool.false_eq_true, if_false, List.append_nil]
    exact { h with }

/-- The books are kept when a task is submitted. -/
theorem Books.submit (h : r.Books m w) (task : Task α ε σ) :
    (⟨(r.pool.submit task).2, r.looked,
      r.accepted ++ (if (r.pool.submit task).1 then [task] else []), r.read⟩ :
        PoolRun α ε σ).Books m w := by
  rw [WorkerPool.submit_eq_send]
  split
  · simp only [Bool.false_eq_true, if_false, List.append_nil]
    exact h
  · exact h.send task r.looked

/-- The books are kept when the workers of a pool that has had none begin. -/
theorem Books.start_staff (h : r.Books m w) (hnone : r.pool.workers = [])
    {workers : List (WorkerPhase α ε σ)} (hworkers : ∀ phase ∈ workers, phase = .checking)
    (hstaff : workers.length ≤ r.pool.workerCount)
    (hstaffed : r.pool.stopped = false → workers.length = r.pool.workerCount) :
    ({ r with pool := { r.pool with started := true, workers := workers } } :
      PoolRun α ε σ).Books m w := by
  have hidle : ∀ phase ∈ workers, phase.inHand = [] ∧ phase.unpublished = [] := by
    intro phase hphase
    rw [hworkers phase hphase]
    exact ⟨rfl, rfl⟩
  have hinHand : ∀ phase ∈ workers, phase.inHand = [] := fun phase hp => (hidle phase hp).1
  have hunpublished : ∀ phase ∈ workers, phase.unpublished = [] :=
    fun phase hp => (hidle phase hp).2
  have hsame : workers.flatMap WorkerPhase.inHand = r.pool.inHand ∧
      workers.flatMap WorkerPhase.unpublished = r.pool.unpublished := by
    rw [WorkerPool.inHand, WorkerPool.unpublished, hnone]
    exact ⟨List.flatMap_eq_nil_iff.mpr hinHand, List.flatMap_eq_nil_iff.mpr hunpublished⟩
  exact { h with
    inHand := by
      have hbefore := h.inHand
      rwa [← hsame.1] at hbefore
    unpublished := by
      have hbefore := h.unpublished
      rwa [← hsame.2] at hbefore
    single := fun huncancelled _ => by
      have hsingle := h.single huncancelled (by rw [hnone]; exact Nat.zero_le _)
      rw [hnone] at hsingle
      rw [heldAt_of_forall hinHand, heldAt_of_forall hunpublished]
      exact hsingle
    ran := fun d hd => by
      have hran := h.ran d hd
      rw [hnone] at hran
      cases hran
    finished := fun hfinished => by cases hworkers _ hfinished
    staff := hstaff
    staffed := fun _ hopen => hstaffed hopen
    unstarted := fun hunstarted => by cases hunstarted }

/-- The books are kept when the pool is started. -/
theorem Books.start (h : r.Books m w) {p : WorkerPool α ε σ}
    (hstart : r.pool.start.toOption = some p) :
    ({ r with pool := p } : PoolRun α ε σ).Books m w := by
  obtain ⟨hunstarted, rfl⟩ := WorkerPool.eq_of_start hstart
  refine h.start_staff (h.unstarted hunstarted) (fun phase hphase => ?_) ?_ fun hopen => ?_
  · split at hphase
    · cases hphase
    · exact List.eq_of_mem_replicate hphase
  · split
    · exact Nat.zero_le _
    · exact Nat.le_of_eq List.length_replicate
  · rw [hopen]
    exact List.length_replicate

/-- The books are kept when no more tasks are accepted. -/
theorem Books.close (h : r.Books m w) :
    ({ r with pool := r.pool.close } : PoolRun α ε σ).Books m w :=
  { h with
    finished := fun hfinished => by
      rcases h.finished hfinished with hcancelled | ⟨-, htasks⟩ | hpanics
      · exact Or.inl hcancelled
      · exact Or.inr (Or.inl ⟨rfl, htasks⟩)
      · exact Or.inr (Or.inr hpanics)
    staffed := nofun }

/-- The books are kept when the oldest result is read. -/
theorem Books.takeResult (h : r.Books m w) {result : TaskResult ε} {rest : List (TaskResult ε)}
    (hresults : r.pool.results = result :: rest) :
    ({ r with pool := { r.pool with results := rest }, read := r.read ++ [result] } :
      PoolRun α ε σ).Books m w :=
  { h with
    published := by rw [h.published, hresults, List.append_assoc]; rfl
    room := by
      have hroom := h.room.2
      rw [hresults, List.length_cons] at hroom
      exact ⟨h.room.1, Nat.le_of_succ_le hroom⟩ }

/-- **The books are kept by every move.** -/
theorem Books.step {act : PoolAct α ε σ} (h : r.Books m w) (hstep : r.step? act = some r') :
    ∃ w', r'.Books m w' := by
  cases act with
  | look task =>
    cases hstep
    refine ⟨w, ?_⟩
    split
    · exact h
    · exact { h with }
  | send k =>
    obtain ⟨task, -, rfl⟩ := Option.map_eq_some_iff.mp hstep
    exact ⟨w, h.send task _⟩
  | move m =>
    obtain ⟨p, hmove, rfl⟩ := Option.map_eq_some_iff.mp hstep
    cases m with
    | work i =>
      obtain ⟨a, b, v, hshift⟩ := (WorkerPool.works_of_work? hmove).shift
      simp only [WorkerPool.newTasks, WorkerPool.newlyRead, List.append_nil]
      exact ⟨w.add v, h.work hshift⟩
    | timeOut i =>
      obtain ⟨a, b, hshift⟩ := (WorkerPool.timesOut_of_timeOut? hmove).shift
      simp only [WorkerPool.newTasks, WorkerPool.newlyRead, List.append_nil]
      exact ⟨w.add {}, h.work hshift⟩
    | submit task =>
      cases hmove
      simp only [WorkerPool.newTasks, WorkerPool.newlyRead, List.append_nil]
      exact ⟨w, h.submit task⟩
    | start =>
      simp only [WorkerPool.newTasks, WorkerPool.newlyRead, List.append_nil]
      exact ⟨w, h.start hmove⟩
    | cancel =>
      cases hmove
      simp only [WorkerPool.newTasks, WorkerPool.newlyRead, List.append_nil]
      exact ⟨w, { h with single := nofun, dropped := nofun, finished := fun _ => Or.inl rfl }⟩
    | close =>
      cases hmove
      simp only [WorkerPool.newTasks, WorkerPool.newlyRead, List.append_nil]
      exact ⟨w, h.close⟩
    | openGate =>
      cases hmove
      simp only [WorkerPool.newTasks, WorkerPool.newlyRead, List.append_nil]
      exact ⟨w, { h with }⟩
    | takeResult =>
      obtain ⟨⟨result, q⟩, htake, rfl⟩ := Option.map_eq_some_iff.mp hmove
      have hread : r.pool.newlyRead .takeResult = [result] := by
        rw [WorkerPool.newlyRead, htake]
        rfl
      obtain ⟨rest, hresults, rfl⟩ := WorkerPool.eq_of_takeResult htake
      rw [hread]
      simp only [WorkerPool.newTasks, List.append_nil]
      exact ⟨w, h.takeResult hresults⟩

theorem start_books (workers capacity : Nat) (memory : σ) :
    (start workers capacity memory : PoolRun α ε σ).Books memory {} where
  accepted := rfl
  published := rfl
  begun := rfl
  ended := rfl
  memory := rfl
  inHand := List.Perm.refl _
  unpublished := List.Perm.refl _
  single _ _ := ⟨rfl, rfl⟩
  dropped _ := rfl
  ran := nofun
  finished := nofun
  room := ⟨Nat.zero_le _, Nat.zero_le _⟩
  staff := Nat.zero_le _
  staffed := nofun
  unstarted _ := rfl

/-- There are books of everything that can come about. -/
theorem books_of_reaches {workers capacity : Nat}
    (h : Reaches step? (start workers capacity m) r) : ∃ w, r.Books m w :=
  h.keeps (P := fun r => ∃ w, r.Books m w) (fun ⟨_, hbooks⟩ hstep => hbooks.step hstep)
    ⟨{}, start_books workers capacity m⟩

end PoolRun

/-! ## 3. What is never undone -/

namespace WorkerPool

variable {p p' p'' : WorkerPool α ε σ}

/-- What is so of a pool for good, once it is so. -/
structure Continues (p p' : WorkerPool α ε σ) : Prop where
  workerCount : p'.workerCount = p.workerCount
  capacity : p'.capacity = p.capacity
  started : p.started = true → p'.started = true ∧ p'.workers.length = p.workers.length
  cancelled : p.cancelled = true → p'.cancelled = true

theorem Continues.refl (p : WorkerPool α ε σ) : p.Continues p := ⟨rfl, rfl, fun h => ⟨h, rfl⟩, id⟩

theorem Continues.trans (h : p.Continues p') (h' : p'.Continues p'') : p.Continues p'' where
  workerCount := h'.workerCount.trans h.workerCount
  capacity := h'.capacity.trans h.capacity
  started hstarted := by
    obtain ⟨hstarted', hlength⟩ := h.started hstarted
    exact ⟨(h'.started hstarted').1, (h'.started hstarted').2.trans hlength⟩
  cancelled := h'.cancelled ∘ h.cancelled

theorem Continues.send (p : WorkerPool α ε σ) (task : Task α ε σ) :
    p.Continues (p.send task).2 := by
  rw [WorkerPool.send]
  split
  · exact ⟨rfl, rfl, fun h => ⟨h, rfl⟩, id⟩
  · exact .refl p

theorem Continues.shift {i : Nat} {a b : WorkerPhase α ε σ} {w : Work α ε σ}
    (h : p.Shift i a b w p') : p.Continues p' where
  workerCount := h.workerCount_eq
  capacity := h.capacity_eq
  started hstarted :=
    ⟨h.started_eq.trans hstarted, by rw [h.workers_eq, List.length_set]⟩
  cancelled hcancelled := h.cancelled_eq.trans hcancelled

theorem Continues.step? {m : Move α ε σ} (h : p.step? m = some p') : p.Continues p' := by
  cases m with
  | work i =>
    obtain ⟨a, b, w, hshift⟩ := (works_of_work? h).shift
    exact .shift hshift
  | timeOut i =>
    obtain ⟨a, b, hshift⟩ := (timesOut_of_timeOut? h).shift
    exact .shift hshift
  | submit task =>
    cases h
    rw [submit_eq_send]
    split
    · exact .refl p
    · exact .send p task
  | start =>
    obtain ⟨hunstarted, rfl⟩ := eq_of_start h
    refine ⟨rfl, rfl, fun hstarted => ?_, id⟩
    rw [hunstarted] at hstarted
    cases hstarted
  | cancel =>
    cases h
    exact ⟨rfl, rfl, fun hstarted => ⟨hstarted, rfl⟩, fun _ => rfl⟩
  | close | openGate =>
    cases h
    exact ⟨rfl, rfl, fun hstarted => ⟨hstarted, rfl⟩, id⟩
  | takeResult =>
    obtain ⟨⟨result, q⟩, htake, rfl⟩ := Option.map_eq_some_iff.mp h
    obtain ⟨rest, -, rfl⟩ := eq_of_takeResult htake
    exact ⟨rfl, rfl, fun hstarted => ⟨hstarted, rfl⟩, id⟩

/-- A cancelled pool accepts nothing that is submitted. -/
theorem newTasks_of_cancelled (h : p.cancelled = true) (m : Move α ε σ) : p.newTasks m = [] := by
  cases m with
  | submit task =>
    rw [newTasks, submit_eq_send, if_pos h]
    rfl
  | work | timeOut | start | cancel | close | openGate | takeResult => rfl

end WorkerPool

namespace PoolRun

variable {r r' s : PoolRun α ε σ} {w : Work α ε σ}

theorem continues_step? {act : PoolAct α ε σ} (h : r.step? act = some r') :
    r.pool.Continues r'.pool := by
  cases act with
  | move m =>
    obtain ⟨p, hmove, rfl⟩ := Option.map_eq_some_iff.mp h
    exact .step? hmove
  | look task =>
    cases h
    split
    · exact .refl _
    · exact .refl _
  | send k =>
    obtain ⟨task, -, rfl⟩ := Option.map_eq_some_iff.mp h
    exact .send _ task

theorem continues_of_reaches (h : Reaches step? s r) : s.pool.Continues r.pool :=
  h.keeps (P := fun r => s.pool.Continues r.pool)
    (fun hcontinues hstep => hcontinues.trans (continues_step? hstep)) (.refl _)

/-- In one move, a cancelled pool accepts only the task of a submit that has looked at the token
before. -/
theorem step?_late {act : PoolAct α ε σ} (h : r.step? act = some r')
    (hcancelled : r.pool.cancelled = true) :
    ∃ late, r'.accepted = r.accepted ++ late ∧ (late ++ r'.looked) <+~ r.looked := by
  cases act with
  | move m =>
    obtain ⟨p, -, rfl⟩ := Option.map_eq_some_iff.mp h
    exact ⟨[], by rw [WorkerPool.newTasks_of_cancelled hcancelled], List.Subperm.refl _⟩
  | look task =>
    cases h
    rw [if_pos hcancelled]
    exact ⟨[], (List.append_nil _).symm, List.Subperm.refl _⟩
  | send k =>
    obtain ⟨task, htask, rfl⟩ := Option.map_eq_some_iff.mp h
    refine ⟨_, rfl, ?_⟩
    obtain ⟨hlt, rfl⟩ := List.getElem?_eq_some_iff.mp htask
    split
    · exact (List.getElem_cons_eraseIdx_perm hlt).subperm
    · exact (List.eraseIdx_sublist _ _).subperm

/-- **No submit that begins after the cancellation is accepted.** -/
theorem late_of_reaches (hcancelled : s.pool.cancelled = true) (h : Reaches step? s r) :
    ∃ late, r.accepted = s.accepted ++ late ∧ (late ++ r.looked) <+~ s.looked := by
  refine (h.keeps (P := fun r => r.pool.cancelled = true ∧
    ∃ late, r.accepted = s.accepted ++ late ∧ (late ++ r.looked) <+~ s.looked)
    (fun {u v act} ⟨hcancelled, late, haccepted, hlooked⟩ hstep => ?_)
    ⟨hcancelled, [], (List.append_nil _).symm, List.Subperm.refl _⟩).2
  obtain ⟨more, haccepted', hlooked'⟩ := step?_late hstep hcancelled
  refine ⟨(continues_step? hstep).cancelled hcancelled, late ++ more, ?_, ?_⟩
  · rw [haccepted', haccepted, List.append_assoc]
  · rw [List.append_assoc]
    exact ((List.subperm_append_left late).mpr hlooked').trans hlooked

/-! ## 4. What the books say -/

/-- What is true of a pool whose books are kept. -/
structure Accounted (r : PoolRun α ε σ) (w : Work α ε σ) : Prop where
  accepts : ∀ task, (r.pool.submit task).1 = true ↔
    r.pool.cancelled = false ∧ r.pool.stopped = false ∧ r.pool.tasks.length < r.pool.capacity
  /-- Tasks are begun in the order in which they were submitted. -/
  inOrder : r.pool.begun ++ r.pool.tasks.map Task.label = r.accepted.map Task.label
  /-- Tasks that are labelled apart are begun and ended at most once each. -/
  notTwice : (r.accepted.map Task.label).Nodup →
    r.pool.begun.Nodup ∧ (r.pool.ended.map Prod.fst).Nodup
  /-- A result is that of a task which was run, by one of the workers. -/
  published : ∀ result ∈ r.read ++ r.pool.results, result.worker < r.pool.workerCount ∧
    ∃ d ∈ w.done, d.task ∈ w.taken ∧ d.result? = some result

theorem accepts_iff (p : WorkerPool α ε σ) (task : Task α ε σ) : (p.submit task).1 = true ↔
    p.cancelled = false ∧ p.stopped = false ∧ p.tasks.length < p.capacity := by
  simp [WorkerPool.submit, WorkerPool.accepts, and_assoc]

/-- Only what has ended is kept as ended. -/
theorem ended_sublist (done : List (Run α ε σ)) :
    ((done.filterMap Run.ending?).map Prod.fst).Sublist (done.map fun d => d.task.label) := by
  induction done with
  | nil => exact .slnil
  | cons d done ih =>
    cases hresult : d.result? with
    | none =>
      rw [List.filterMap_cons_none (by rw [Run.ending?, hresult]; rfl)]
      exact ih.cons _
    | some r =>
      rw [List.filterMap_cons_some (by rw [Run.ending?, hresult]; rfl)]
      exact ih.cons_cons _

theorem Books.mem_taken (h : r.Books m w) {d : Run α ε σ} (hd : d ∈ w.done) : d.task ∈ w.taken :=
  h.inHand.mem_iff.mpr (List.mem_append_left _ (List.mem_map_of_mem hd))

/-- What waits or is in hand was accepted. -/
theorem Books.mem_accepted (h : r.Books m w) {task : Task α ε σ}
    (htask : task ∈ r.pool.inHand ++ r.pool.tasks) : task ∈ r.accepted := by
  rw [h.accepted]
  rcases List.mem_append.mp htask with hhand | hqueue
  · exact List.mem_append_left _ (h.inHand.mem_iff.mpr (List.mem_append_right _ hhand))
  · exact List.mem_append_right _ hqueue

/-- No more is on its way, or was read, than was accepted. -/
theorem Books.load_le (h : r.Books m w) : r.pool.load + r.read.length ≤ r.accepted.length := by
  have haccepted := congrArg List.length h.accepted
  have hpublished := congrArg List.length h.published
  have hinHand := h.inHand.length_eq
  have hunpublished := h.unpublished.length_eq
  have hresults : (w.done.filterMap Run.result?).length ≤ w.done.length :=
    List.length_filterMap_le _ _
  simp only [List.length_append, List.length_map] at haccepted hpublished hinHand hunpublished
  rw [WorkerPool.load]
  omega

theorem Books.accounted (h : r.Books m w) : r.Accounted w where
  accepts := accepts_iff r.pool
  inOrder := by rw [h.begun, h.accepted, List.map_append]
  notTwice hnodup := by
    rw [h.accepted, List.map_append] at hnodup
    have hbegun : (w.taken.map Task.label).Nodup := (List.nodup_append.mp hnodup).1
    have hdone : ((w.done.map Run.task).map Task.label).Nodup := by
      have hparts := (h.inHand.map Task.label).nodup_iff.mp hbegun
      rw [List.map_append] at hparts
      exact (List.nodup_append.mp hparts).1
    rw [h.begun, h.ended]
    rw [List.map_map] at hdone
    exact ⟨hbegun, hdone.sublist (ended_sublist w.done)⟩
  published result hresult := by
    rw [← h.published] at hresult
    have hmem := h.unpublished.mem_iff.mpr
      (List.mem_append_left _ (List.mem_append_left w.dropped hresult))
    obtain ⟨d, hd, hresult'⟩ := List.mem_filterMap.mp hmem
    have hworker : result.worker = d.worker := d.result?_worker hresult'
    rw [hworker]
    exact ⟨Nat.lt_of_lt_of_le (h.ran d hd) h.staff, d, hd, h.mem_taken hd, hresult'⟩

/-- What is true of a pool that has stopped. -/
structure AllRun (r : PoolRun α ε σ) (w : Work α ε σ) : Prop where
  begun : r.pool.begun = r.accepted.map Task.label
  /-- Every task that was accepted has been run once. -/
  done : w.done.map Run.task ~ r.accepted
  ended : r.pool.ended = w.done.map (fun d => (d.task.label, ⟨d.worker, d.task.outcome.error⟩))
  /-- The results that were read or wait to be read are the outcomes of the tasks. -/
  outcomes : (r.read ++ r.pool.results).map TaskResult.error ~
    r.accepted.map (fun task => task.outcome.error)
  /-- A single worker has run the tasks, and published the outcomes, in order. -/
  single : r.pool.workerCount = 1 → w.done.map Run.task = r.accepted ∧
    (r.read ++ r.pool.results).map TaskResult.error =
      r.accepted.map (fun task => task.outcome.error)

/-- The results of tasks that return. -/
theorem results_of_return {done : List (Run α ε σ)}
    (h : ∀ d ∈ done, d.task.outcome ≠ .panics) :
    done.filterMap Run.result? = done.map (fun d => ⟨d.worker, d.task.outcome.error⟩) := by
  rw [← List.filterMap_eq_map]
  exact List.filterMap_congr fun d hd => TaskOutcome.result?_of_returns (h d hd) d.worker

theorem ended_of_return {done : List (Run α ε σ)}
    (h : ∀ d ∈ done, d.task.outcome ≠ .panics) :
    done.filterMap Run.ending? =
      done.map (fun d => (d.task.label, ⟨d.worker, d.task.outcome.error⟩)) := by
  have hending : ∀ d ∈ done, d.ending? =
      some (d.task.label, ⟨d.worker, d.task.outcome.error⟩) := by
    intro d hd
    rw [Run.ending?, Run.result?, TaskOutcome.result?_of_returns (h d hd)]
    rfl
  rw [List.filterMap_congr hending, List.filterMap_eq_map']

/-- No task is left in the queue of a pool that has stopped, unless it was cancelled or a task has
panicked. -/
theorem Books.tasks_eq_nil (h : r.Books m w) (hworkers : r.pool.workers ≠ [])
    (hstopped : r.pool.HasStopped) (hcancelled : r.pool.cancelled = false)
    (hreturns : ∀ d ∈ w.done, d.task.outcome ≠ .panics) : r.pool.tasks = [] := by
  obtain ⟨phase, hphase⟩ := List.exists_mem_of_ne_nil _ hworkers
  rcases h.finished (hstopped.2 phase hphase ▸ hphase) with hgone | hover | ⟨d, hd, hpanics⟩
  · rw [hcancelled] at hgone
    cases hgone
  · exact hover.2
  · exact absurd hpanics (hreturns d hd)

/-- **A pool that has stopped has run every task once**, if it was started and not cancelled. -/
theorem Books.allRun (h : r.Books m w) (hworkers : r.pool.workers ≠ [])
    (hstopped : r.pool.HasStopped) (hcancelled : r.pool.cancelled = false)
    (hreturns : ∀ task ∈ r.accepted, task.outcome ≠ .panics) : r.AllRun w := by
  have hdone : ∀ d ∈ w.done, d.task.outcome ≠ .panics := by
    intro d hd
    refine hreturns d.task ?_
    rw [h.accepted]
    exact List.mem_append_left _ (h.mem_taken hd)
  have htaken : w.taken = r.accepted := by
    rw [h.accepted, h.tasks_eq_nil hworkers hstopped hcancelled hdone, List.append_nil]
  have hresults : w.done.filterMap Run.result? =
      w.done.map (fun d => ⟨d.worker, d.task.outcome.error⟩) := results_of_return hdone
  have herrors : (w.done.filterMap Run.result?).map TaskResult.error =
      (w.done.map Run.task).map (fun task => task.outcome.error) := by
    rw [hresults, List.map_map, List.map_map]
    rfl
  have hall : w.done.map Run.task ~ r.accepted := by
    have hinHand := h.inHand
    rw [hstopped.inHand_eq, List.append_nil, htaken] at hinHand
    exact hinHand.symm
  have hpublished : w.done.filterMap Run.result? ~ (r.read ++ r.pool.results) := by
    have hunpublished := h.unpublished
    rwa [hstopped.unpublished_eq, h.dropped hcancelled, List.append_nil, List.append_nil,
      h.published] at hunpublished
  exact {
    begun := by rw [h.begun, htaken]
    done := hall
    ended := by rw [h.ended, ended_of_return hdone]
    outcomes := by
      have hmap := hpublished.map TaskResult.error
      rw [herrors] at hmap
      exact hmap.symm.trans (hall.map _)
    single := fun hone => by
      obtain ⟨hinHand, hunpublished⟩ := h.single hcancelled (hone ▸ h.staff)
      rw [heldAt_of_forall hstopped.idle.1, List.append_nil, htaken] at hinHand
      rw [heldAt_of_forall hstopped.idle.2, List.append_nil, h.published] at hunpublished
      refine ⟨hinHand.symm, ?_⟩
      rw [← hunpublished, herrors, hinHand] }

end PoolRun

/-- **A pool accounts for its tasks.** After any moves, before and after a state `s`, there are
books of everything that has happened since the pool was made. If it was started and not stopped at
`s` and has stopped since, without having been cancelled, then every task has been run once and its
outcome published, unless a task panics. If it was cancelled at `s`, then nothing was accepted since
but what had been looked at before. -/
theorem pool_accounts (workers capacity : Nat) (memory : σ) (hworkers : 0 < workers)
    (s r : PoolRun α ε σ)
    (hs : Reaches PoolRun.step? (PoolRun.start workers capacity memory) s)
    (hr : Reaches PoolRun.step? s r) :
    r.pool.workerCount = workers ∧ r.pool.capacity = capacity ∧ ∃ w,
      r.Books memory w ∧ r.Accounted w ∧
      (s.pool.started = true → s.pool.stopped = false → r.pool.HasStopped →
        r.pool.cancelled = false → (∀ task ∈ r.accepted, task.outcome ≠ .panics) → r.AllRun w) ∧
      (s.pool.cancelled = true →
        ∃ late, r.accepted = s.accepted ++ late ∧ (late ++ r.looked) <+~ s.looked) := by
  obtain ⟨w, hbooks⟩ := PoolRun.books_of_reaches (hs.trans hr)
  obtain ⟨v, hbooksAt⟩ := PoolRun.books_of_reaches hs
  have hcontinues := PoolRun.continues_of_reaches (hs.trans hr)
  refine ⟨hcontinues.workerCount, hcontinues.capacity, w, hbooks, hbooks.accounted,
    fun hstarted hopen hstopped hcancelled hreturns => ?_,
    fun hcancelled => PoolRun.late_of_reaches hcancelled hr⟩
  refine hbooks.allRun ?_ hstopped hcancelled hreturns
  -- The workers were there at `s`, and they have not gone away since.
  have hlength : r.pool.workers.length = workers := by
    rw [((PoolRun.continues_of_reaches hr).started hstarted).2, hbooksAt.staffed hstarted hopen,
      (PoolRun.continues_of_reaches hs).workerCount]
    rfl
  exact List.ne_nil_of_length_pos (hlength ▸ hworkers)

/-- A task that writes its label. -/
def noting (label : Nat) (outcome : TaskOutcome String) : Task Nat String (List Nat) :=
  ⟨label, false, outcome, fun labels => labels ++ [label]⟩

/-- Two tasks of a pool with two workers, one of which waits in vain at first: the second task ends
before the first, and all is accounted for. -/
theorem pool_accounts_two :
    ∃ s r : PoolRun Nat String (List Nat), Reaches PoolRun.step? (PoolRun.start 2 2 []) s ∧
      Reaches PoolRun.step? s r ∧ r.pool.HasStopped ∧ r.pool.memory = [1, 0] ∧
      r.read ++ r.pool.results = [⟨1, some "no"⟩, ⟨0, none⟩] ∧ ∃ w, r.AllRun w := by
  have hbefore : ∃ s : PoolRun Nat String (List Nat),
      [.move .start, .move (.work 1), .move (.timeOut 1), .move (.submit (noting 0 .succeeds)),
        .look (noting 1 (.fails "no")), .move (.work 0), .send 0, .move (.work 0),
        .move (.work 1)].foldlM PoolRun.step? (PoolRun.start 2 2 []) = some s ∧
      s.pool.started = true ∧ s.pool.stopped = false ∧
      ∃ r : PoolRun Nat String (List Nat),
        [.move (.work 1), .move (.work 1), .move (.work 1), .move .takeResult, .move .close,
          .move (.work 1), .move (.work 0), .move (.work 0), .move (.work 0), .move (.work 1),
          .move (.work 0)].foldlM PoolRun.step? s = some r ∧
        r.pool.stopped = true ∧ r.pool.workers = [.finished, .finished] ∧
        r.pool.cancelled = false ∧ r.pool.memory = [1, 0] ∧
        r.accepted = [noting 0 .succeeds, noting 1 (.fails "no")] ∧
        r.read ++ r.pool.results = [⟨1, some "no"⟩, ⟨0, none⟩] :=
    ⟨_, rfl, rfl, rfl, _, rfl, rfl, rfl, rfl, rfl, rfl, rfl⟩
  obtain ⟨s, hs, hstarted, hopen, r, hr, hclosed, hended, hcancelled, hmemory, haccepted,
    hread⟩ := hbefore
  have hreaches : Reaches PoolRun.step? (PoolRun.start 2 2 []) s := reaches_of_foldlM hs
  have hreaches' : Reaches PoolRun.step? s r := reaches_of_foldlM hr
  have hstopped : r.pool.HasStopped := ⟨hclosed, by simp [hended]⟩
  obtain ⟨-, -, w, -, -, hall, -⟩ := pool_accounts 2 2 [] (by decide) s r hreaches hreaches'
  refine ⟨s, r, hreaches, hreaches', hstopped, hmemory, hread, w, ?_⟩
  refine hall hstarted hopen hstopped hcancelled fun task htask => ?_
  rw [haccepted] at htask
  revert task
  decide

end StoreQL.Concurrency
