/-
# What workers do

`WorkerPool.Works` has one rule for each move of a worker, and `works_of_work?` reads a move as one
of them; `TimesOut` has the two rules for a wait that runs out. `Shift` says of all of them at once
what passes through a worker: it takes a task that is waiting, ends it when it has written what it
has to, and publishes its result or drops it. Whatever is true of all moves is derived from that.

Workers that are left alone come to rest (`Works.rank_lt`, `settle_stuck`): each move brings a task
nearer to its result, or the worker to its end. Where nothing holds them up they have come to their
end then.

Main statements: `Works.shift`, what passes; `idle_of_work?`, why a worker has no move; and
`stop_hasStopped`, when stopping a pool ends all its workers.
-/
import Mathlib.Algebra.Order.BigOperators.Group.List
import Mathlib.Algebra.Order.Group.Nat
import StoreQL.Concurrency.WorkerPool
import StoreQL.Proofs.Concurrency.Moves

namespace StoreQL.Concurrency

variable {α ε σ : Type}

/-! ## 1. The moves of a worker -/

namespace WorkerPool

/-- The moves of worker `i`. -/
inductive Works (p : WorkerPool α ε σ) (i : Nat) : WorkerPool α ε σ → Prop where
  | check (hworker : p.workers[i]? = some .checking) (hgoes : p.cancelled = false) :
      Works p i (p.setWorker i .waiting)
  | quit (hworker : p.workers[i]? = some .checking) (hcancelled : p.cancelled = true) :
      Works p i (p.setWorker i .finished)
  | take {task : Task α ε σ} {rest : List (Task α ε σ)}
      (hworker : p.workers[i]? = some .waiting) (htasks : p.tasks = task :: rest) :
      Works p i
        { p.setWorker i (.running task) with tasks := rest, begun := p.begun ++ [task.label] }
  | leave (hworker : p.workers[i]? = some .waiting) (htasks : p.tasks = [])
      (hover : p.stopped = true ∨ p.cancelled = true) : Works p i (p.setWorker i .finished)
  | finish {task : Task α ε σ} {r : TaskResult ε} (hworker : p.workers[i]? = some (.running task))
      (hresult : task.outcome.result? i = some r) :
      Works p i { p.setWorker i (.publishing r) with
        ended := p.ended ++ [(task.label, r)], memory := task.effect p.memory }
  | panic {task : Task α ε σ} (hworker : p.workers[i]? = some (.running task))
      (hresult : task.outcome.result? i = none) :
      Works p i { p.setWorker i .finished with memory := task.effect p.memory }
  | publish {r : TaskResult ε} (hworker : p.workers[i]? = some (.publishing r))
      (hroom : p.results.length < p.capacity) :
      Works p i { p.setWorker i .checking with results := p.results ++ [r] }
  | drop {r : TaskResult ε} (hworker : p.workers[i]? = some (.publishing r))
      (hcancelled : p.cancelled = true) : Works p i (p.setWorker i .finished)
  | retry {r : TaskResult ε} (hworker : p.workers[i]? = some (.unsent r))
      (hgoes : p.cancelled = false) : Works p i (p.setWorker i (.publishing r))
  | abandon {r : TaskResult ε} (hworker : p.workers[i]? = some (.unsent r))
      (hcancelled : p.cancelled = true) : Works p i (p.setWorker i .finished)

/-- What comes of a wait of worker `i` that runs out. -/
inductive TimesOut (p : WorkerPool α ε σ) (i : Nat) : WorkerPool α ε σ → Prop where
  | idle (hworker : p.workers[i]? = some .waiting) (htasks : p.tasks = [])
      (hopen : p.stopped = false) : TimesOut p i (p.setWorker i .checking)
  | full {r : TaskResult ε} (hworker : p.workers[i]? = some (.publishing r))
      (hfull : p.capacity ≤ p.results.length) : TimesOut p i (p.setWorker i (.unsent r))

variable {p p' : WorkerPool α ε σ} {i : Nat}

/-- A move of a worker is by one of the rules. -/
theorem works_of_work? (h : p.work? i = some p') : p.Works i p' := by
  obtain ⟨phase, hworker, h⟩ := Option.bind_eq_some_iff.mp h
  cases phase with
  | checking =>
    cases h
    cases hcancelled : p.cancelled with
    | true => exact .quit hworker hcancelled
    | false => exact .check hworker hcancelled
  | waiting =>
    simp only [takeTask?] at h
    split at h
    · rename_i htasks
      cases h
      exact .take hworker htasks
    · rename_i htasks
      split at h
      · rename_i hover
        cases h
        exact .leave hworker htasks (by simpa using hover)
      · cases h
  | running task =>
    simp only [endTask?] at h
    split at h
    · cases h
    · split at h
      · rename_i hresult
        cases h
        exact .finish hworker hresult
      · rename_i hresult
        cases h
        exact .panic hworker hresult
  | publishing r =>
    simp only [publish?] at h
    split at h
    · rename_i hroom
      cases h
      exact .publish hworker hroom
    · split at h
      · rename_i hcancelled
        cases h
        exact .drop hworker hcancelled
      · cases h
  | unsent r =>
    cases h
    cases hcancelled : p.cancelled with
    | true => exact .abandon hworker hcancelled
    | false => exact .retry hworker hcancelled
  | finished => cases h

/-- A wait that runs out is by one of the rules. -/
theorem timesOut_of_timeOut? (h : p.timeOut? i = some p') : p.TimesOut i p' := by
  obtain ⟨phase, hworker, h⟩ := Option.bind_eq_some_iff.mp h
  cases phase with
  | waiting =>
    simp only [Option.ite_none_right_eq_some, Bool.and_eq_true, List.isEmpty_iff,
      Bool.not_eq_true', Option.some.injEq] at h
    obtain ⟨⟨htasks, hopen⟩, rfl⟩ := h
    exact .idle hworker htasks hopen
  | publishing r =>
    simp only [Option.ite_none_left_eq_some, Option.some.injEq] at h
    obtain ⟨hfull, rfl⟩ := h
    exact .full hworker (Nat.le_of_not_lt hfull)
  | checking | running | unsent | finished => cases h

/-- Why a worker has no move: it has finished, it waits for a task, for the gate, or for room. -/
theorem idle_of_work? {phase : WorkerPhase α ε σ} (hworker : p.workers[i]? = some phase)
    (h : p.work? i = none) :
    phase = .finished ∨
      (phase = .waiting ∧ p.tasks = [] ∧ p.stopped = false ∧ p.cancelled = false) ∨
      (∃ task, phase = .running task ∧ task.gated = true ∧ p.gateOpen = false) ∨
      (∃ r, phase = .publishing r ∧ p.capacity ≤ p.results.length ∧ p.cancelled = false) := by
  simp only [work?, hworker, Option.bind_eq_bind, Option.bind_some] at h
  cases phase with
  | checking => cases h
  | waiting =>
    simp only [takeTask?] at h
    split at h
    · cases h
    · rename_i htasks
      refine Or.inr (Or.inl ⟨rfl, htasks, ?_⟩)
      simpa using h
  | running task =>
    simp only [endTask?] at h
    split at h
    · rename_i hgate
      refine Or.inr (Or.inr (Or.inl ⟨task, rfl, ?_⟩))
      simpa using hgate
    · split at h <;> cases h
  | publishing r =>
    simp only [publish?] at h
    split at h
    · cases h
    · rename_i hfull
      refine Or.inr (Or.inr (Or.inr ⟨r, rfl, Nat.le_of_not_lt hfull, ?_⟩))
      simpa using h
  | unsent r => cases h
  | finished => exact Or.inl rfl

end WorkerPool

/-! ## 2. What passes through a worker -/

/-- The task that a worker has in hand. -/
def WorkerPhase.inHand : WorkerPhase α ε σ → List (Task α ε σ)
  | .running task => [task]
  | .checking | .waiting | .publishing _ | .unsent _ | .finished => []

/-- The result that a worker has still to publish. -/
def WorkerPhase.unpublished : WorkerPhase α ε σ → List (TaskResult ε)
  | .publishing r | .unsent r => [r]
  | .checking | .waiting | .running _ | .finished => []

/-- A task that has ended, and the number of the worker that ran it. -/
structure Run (α ε σ : Type) where
  task : Task α ε σ
  worker : Nat

namespace Run

/-- The result of the task, if it has one. -/
def result? (d : Run α ε σ) : Option (TaskResult ε) := d.task.outcome.result? d.worker

/-- What a pool keeps of the end of the task. -/
def ending? (d : Run α ε σ) : Option (α × TaskResult ε) :=
  d.result?.map (fun r => (d.task.label, r))

/-- What the tasks leave in a memory, one after the other. -/
def effects (done : List (Run α ε σ)) (memory : σ) : σ :=
  done.foldl (fun memory d => d.task.effect memory) memory

theorem result?_worker (d : Run α ε σ) {r : TaskResult ε} (h : d.result? = some r) :
    r.worker = d.worker := by
  obtain ⟨⟨label, gated, outcome, effect⟩, worker⟩ := d
  cases outcome <;> cases h <;> rfl

end Run

/-- What a worker does in one move: the tasks that it takes and those that it ends, and the results
that it publishes and those that it drops. -/
structure Work (α ε σ : Type) where
  taken : List (Task α ε σ) := []
  done : List (Run α ε σ) := []
  published : List (TaskResult ε) := []
  dropped : List (TaskResult ε) := []

namespace WorkerPool

/-- The tasks that workers have in hand. -/
def inHand (p : WorkerPool α ε σ) : List (Task α ε σ) := p.workers.flatMap WorkerPhase.inHand

/-- The results that workers have still to publish. -/
def unpublished (p : WorkerPool α ε σ) : List (TaskResult ε) :=
  p.workers.flatMap WorkerPhase.unpublished

/-- Worker `i` comes from phase `a` to phase `b` by the work `w`. -/
structure Shift (p : WorkerPool α ε σ) (i : Nat) (a b : WorkerPhase α ε σ) (w : Work α ε σ)
    (p' : WorkerPool α ε σ) : Prop where
  worker : p.workers[i]? = some a
  same : p' = { p.setWorker i b with
    tasks := p'.tasks, begun := p'.begun, ended := p'.ended, memory := p'.memory,
    results := p'.results }
  tasks : p.tasks = w.taken ++ p'.tasks
  begun : p'.begun = p.begun ++ w.taken.map Task.label
  ended : p'.ended = p.ended ++ w.done.filterMap Run.ending?
  memory : p'.memory = Run.effects w.done p.memory
  results : p'.results = p.results ++ w.published
  inHand : a.inHand ++ w.taken = w.done.map Run.task ++ b.inHand
  unpublished : a.unpublished ++ w.done.filterMap Run.result? =
    w.published ++ w.dropped ++ b.unpublished
  ran : ∀ d ∈ w.done, d.worker = i
  dropped : p.cancelled = false → w.dropped = []
  bounded : p.results.length ≤ p.capacity → p'.results.length ≤ p'.capacity
  finished : b = .finished → p.cancelled = true ∨ (p.stopped = true ∧ p'.tasks = []) ∨
    ∃ d ∈ w.done, d.task.outcome = .panics

variable {p p' : WorkerPool α ε σ} {i : Nat}

namespace Shift

variable {a b : WorkerPhase α ε σ} {w : Work α ε σ}

theorem workers_eq (h : p.Shift i a b w p') : p'.workers = p.workers.set i b :=
  (congrArg WorkerPool.workers h.same).trans rfl

theorem cancelled_eq (h : p.Shift i a b w p') : p'.cancelled = p.cancelled :=
  (congrArg WorkerPool.cancelled h.same).trans rfl

theorem stopped_eq (h : p.Shift i a b w p') : p'.stopped = p.stopped :=
  (congrArg WorkerPool.stopped h.same).trans rfl

theorem started_eq (h : p.Shift i a b w p') : p'.started = p.started :=
  (congrArg WorkerPool.started h.same).trans rfl

theorem workerCount_eq (h : p.Shift i a b w p') : p'.workerCount = p.workerCount :=
  (congrArg WorkerPool.workerCount h.same).trans rfl

theorem capacity_eq (h : p.Shift i a b w p') : p'.capacity = p.capacity :=
  (congrArg WorkerPool.capacity h.same).trans rfl

end Shift

/-- A worker that only goes on. -/
theorem shift_of_idle {a b : WorkerPhase α ε σ} (hworker : p.workers[i]? = some a)
    (hinHand : a.inHand = b.inHand) (hunpublished : a.unpublished = b.unpublished)
    (hfinished : b = .finished → p.cancelled = true ∨ (p.stopped = true ∧ p.tasks = [])) :
    p.Shift i a b {} (p.setWorker i b) where
  worker := hworker
  same := rfl
  tasks := rfl
  begun := (List.append_nil _).symm
  ended := (List.append_nil _).symm
  memory := rfl
  results := (List.append_nil _).symm
  inHand := (List.append_nil _).trans hinHand
  unpublished := (List.append_nil _).trans hunpublished
  ran := nofun
  dropped _ := rfl
  bounded := id
  finished h := (hfinished h).imp_right Or.inl

/-- A worker that ends its task, with a result or without one. -/
theorem shift_of_end {task : Task α ε σ} {b : WorkerPhase α ε σ}
    (hworker : p.workers[i]? = some (.running task)) (hinHand : b.inHand = [])
    (hunpublished : b.unpublished = (task.outcome.result? i).toList)
    (hfinished : b = .finished → task.outcome = .panics) :
    p.Shift i (.running task) b { done := [⟨task, i⟩] } { p.setWorker i b with
      ended := p.ended ++ ((task.outcome.result? i).map (fun r => (task.label, r))).toList
      memory := task.effect p.memory } where
  worker := hworker
  same := rfl
  tasks := rfl
  begun := (List.append_nil _).symm
  ended := by
    cases hresult : task.outcome.result? i <;> simp [Run.ending?, Run.result?, hresult]
  memory := rfl
  results := (List.append_nil _).symm
  inHand := by rw [hinHand]; rfl
  unpublished := by
    rw [hunpublished]
    cases hresult : task.outcome.result? i <;>
      simp [WorkerPhase.unpublished, Run.result?, hresult]
  ran := by simp
  dropped _ := rfl
  bounded := id
  finished h := Or.inr (Or.inr ⟨_, List.mem_singleton_self _, hfinished h⟩)

/-- A worker that takes the oldest task. -/
theorem shift_of_take {task : Task α ε σ} {rest : List (Task α ε σ)}
    (hworker : p.workers[i]? = some .waiting) (htasks : p.tasks = task :: rest) :
    p.Shift i .waiting (.running task) { taken := [task] }
      { p.setWorker i (.running task) with tasks := rest, begun := p.begun ++ [task.label] } where
  worker := hworker
  same := rfl
  tasks := htasks
  begun := rfl
  ended := (List.append_nil _).symm
  memory := rfl
  results := (List.append_nil _).symm
  inHand := rfl
  unpublished := rfl
  ran := nofun
  dropped _ := rfl
  bounded := id
  finished := nofun

/-- A worker that publishes a result. -/
theorem shift_of_publish {r : TaskResult ε} (hworker : p.workers[i]? = some (.publishing r))
    (hroom : p.results.length < p.capacity) :
    p.Shift i (.publishing r) .checking { published := [r] }
      { p.setWorker i .checking with results := p.results ++ [r] } where
  worker := hworker
  same := rfl
  tasks := rfl
  begun := (List.append_nil _).symm
  ended := (List.append_nil _).symm
  memory := rfl
  results := rfl
  inHand := rfl
  unpublished := rfl
  ran := nofun
  dropped _ := rfl
  bounded _ := by
    rw [List.length_append, List.length_singleton]
    exact hroom
  finished := nofun

/-- A worker that drops its result, since the pool is cancelled. -/
theorem shift_of_drop {a : WorkerPhase α ε σ} {r : TaskResult ε}
    (hworker : p.workers[i]? = some a) (hinHand : a.inHand = []) (hunpublished : a.unpublished = [r])
    (hcancelled : p.cancelled = true) :
    p.Shift i a .finished { dropped := [r] } (p.setWorker i .finished) where
  worker := hworker
  same := rfl
  tasks := rfl
  begun := (List.append_nil _).symm
  ended := (List.append_nil _).symm
  memory := rfl
  results := (List.append_nil _).symm
  inHand := by rw [hinHand]; rfl
  unpublished := by rw [hunpublished]; rfl
  ran := nofun
  dropped huncancelled := by
    rw [hcancelled] at huncancelled
    cases huncancelled
  bounded := id
  finished _ := Or.inl hcancelled

theorem outcome_of_result? {outcome : TaskOutcome ε} (h : outcome.result? i = none) :
    outcome = .panics := by
  cases outcome with
  | panics => rfl
  | succeeds | fails => cases h

/-- **What passes through a worker in one move.** -/
theorem Works.shift (h : p.Works i p') : ∃ a b w, p.Shift i a b w p' := by
  cases h with
  | check hworker => exact ⟨_, _, _, shift_of_idle hworker rfl rfl nofun⟩
  | quit hworker hcancelled =>
    exact ⟨_, _, _, shift_of_idle hworker rfl rfl fun _ => Or.inl hcancelled⟩
  | leave hworker htasks hover =>
    refine ⟨_, _, _, shift_of_idle hworker rfl rfl fun _ => ?_⟩
    rcases hover with hstopped | hcancelled
    · exact Or.inr ⟨hstopped, htasks⟩
    · exact Or.inl hcancelled
  | take hworker htasks => exact ⟨_, _, _, shift_of_take hworker htasks⟩
  | @finish task r hworker hresult =>
    have hshift : p.Shift i _ (.publishing r) _ _ :=
      shift_of_end hworker rfl (by rw [hresult]; rfl) nofun
    rw [hresult] at hshift
    exact ⟨_, _, _, hshift⟩
  | @panic task hworker hresult =>
    have hshift : p.Shift i _ .finished _ _ :=
      shift_of_end hworker rfl (by rw [hresult]; rfl) fun _ => outcome_of_result? hresult
    rw [hresult, Option.map_none, Option.toList_none, List.append_nil] at hshift
    exact ⟨_, _, _, hshift⟩
  | publish hworker hroom => exact ⟨_, _, _, shift_of_publish hworker hroom⟩
  | drop hworker hcancelled | abandon hworker hcancelled =>
    exact ⟨_, _, _, shift_of_drop hworker rfl rfl hcancelled⟩
  | retry hworker => exact ⟨_, _, _, shift_of_idle hworker rfl rfl nofun⟩

/-- Nothing passes through a worker whose wait runs out. -/
theorem TimesOut.shift (h : p.TimesOut i p') : ∃ a b, p.Shift i a b {} p' := by
  cases h with
  | idle hworker | full hworker => exact ⟨_, _, shift_of_idle hworker rfl rfl nofun⟩

/-! ## 3. Workers that are left alone -/

end WorkerPool

/-- How many moves a worker has still to make, if it takes no further task. -/
def WorkerPhase.weight : WorkerPhase α ε σ → Nat
  | .running _ | .unsent _ => 4
  | .publishing _ => 3
  | .checking => 2
  | .waiting => 1
  | .finished => 0

namespace WorkerPool

variable {p p' : WorkerPool α ε σ} {i : Nat}

/-- How many moves the workers have still to make at most. -/
def rank (p : WorkerPool α ε σ) : Nat :=
  4 * p.tasks.length + (p.workers.map WorkerPhase.weight).sum

/-- A worker that is nearer to its end than the tasks are further from theirs. -/
theorem rank_lt_of_weight {a b : WorkerPhase α ε σ} (hworker : p.workers[i]? = some a)
    (hworkers : p'.workers = p.workers.set i b)
    (hlt : 4 * p'.tasks.length + b.weight < 4 * p.tasks.length + a.weight) : p'.rank < p.rank := by
  have hsum := sum_set (b := b) WorkerPhase.weight hworker
  rw [rank, rank, hworkers]
  omega

/-- **Every move of a worker brings the end nearer.** -/
theorem Works.rank_lt (h : p.Works i p') : p'.rank < p.rank := by
  cases h with
  | check hworker | quit hworker | panic hworker | drop hworker | retry hworker
  | abandon hworker =>
    exact rank_lt_of_weight hworker rfl (by simp [WorkerPhase.weight, setWorker])
  | leave hworker => exact rank_lt_of_weight hworker rfl (by simp [WorkerPhase.weight, setWorker])
  | take hworker htasks =>
    refine rank_lt_of_weight hworker rfl ?_
    rw [htasks]
    simp only [WorkerPhase.weight, List.length_cons]
    omega
  | finish hworker | publish hworker =>
    exact rank_lt_of_weight hworker rfl (by simp [WorkerPhase.weight, setWorker])

theorem rank_le_workBound (p : WorkerPool α ε σ) : p.rank ≤ p.workBound := by
  have hweights : ∀ n ∈ p.workers.map WorkerPhase.weight, n ≤ 8 := by
    intro n hn
    obtain ⟨phase, -, rfl⟩ := List.mem_map.mp hn
    cases phase <;> simp [WorkerPhase.weight]
  have hsum : (p.workers.map WorkerPhase.weight).sum ≤ p.workers.length * 8 := by
    simpa using List.sum_le_card_nsmul _ _ hweights
  rw [rank, workBound]
  omega

/-- **When the workers have been left alone, none of them has a move**; and what their moves keep
is kept. -/
theorem settle_stuck {P : WorkerPool α ε σ → Prop}
    (hstep : ∀ {q q' : WorkerPool α ε σ} {i : Nat}, P q → q.work? i = some q' → P q') (hp : P p) :
    P p.settle ∧ ∀ i, p.settle.work? i = none := by
  have hmoves : ∀ {q q' : WorkerPool α ε σ} {m : Move α ε σ}, P q → false = false →
      m ∈ q.workMoves → q.step? m = some q' → P q' ∧ q'.rank < q.rank := by
    intro q q' m hq _ hm hmove
    obtain ⟨i, -, rfl⟩ := List.mem_map.mp hm
    exact ⟨hstep hq hmove, (works_of_work? hmove).rank_lt⟩
  have hends := runUntil_ends rank hmoves p.workBound p hp p.rank_le_workBound
  refine ⟨hends.1, fun i => ?_⟩
  have hnone := hends.2.resolve_left Bool.false_ne_true
  rcases Nat.lt_or_ge i p.settle.workers.length with hlt | hge
  · exact hnone (.work i) (List.mem_map_of_mem (List.mem_range.mpr hlt))
  · rw [work?, List.getElem?_eq_none hge]
    rfl

/-! ## 4. Workers that nothing holds up -/

/-- Whether the pool has been stopped and all its workers have ended. -/
def HasStopped (p : WorkerPool α ε σ) : Prop :=
  p.stopped = true ∧ ∀ phase ∈ p.workers, phase = .finished

theorem HasStopped.idle (h : p.HasStopped) :
    (∀ phase ∈ p.workers, phase.inHand = []) ∧ ∀ phase ∈ p.workers, phase.unpublished = [] := by
  constructor <;> intro phase hphase <;> rw [h.2 phase hphase] <;> rfl

theorem HasStopped.inHand_eq (h : p.HasStopped) : p.inHand = [] :=
  List.flatMap_eq_nil_iff.mpr h.idle.1

theorem HasStopped.unpublished_eq (h : p.HasStopped) : p.unpublished = [] :=
  List.flatMap_eq_nil_iff.mpr h.idle.2

/-- How many tasks and results are on their way. -/
def load (p : WorkerPool α ε σ) : Nat :=
  p.tasks.length + p.inHand.length + p.unpublished.length + p.results.length

/-- A pool in which no worker waits: no task will come any more, none waits for the gate, and there
is room for all results, or else the pool is cancelled. -/
structure Unhindered (p : WorkerPool α ε σ) : Prop where
  stopped : p.stopped = true
  gate : p.gateOpen = true ∨ ∀ task ∈ p.inHand ++ p.tasks, task.gated = false
  room : p.cancelled = true ∨ p.load ≤ p.capacity

/-- What a worker has in hand is in hand. -/
theorem mem_inHand {task : Task α ε σ} (h : p.workers[i]? = some (.running task)) :
    task ∈ p.inHand :=
  List.mem_flatMap.mpr ⟨_, List.mem_of_getElem? h, List.mem_singleton_self task⟩

/-- A worker that publishes finds room, if there is room for all. -/
theorem results_length_lt {r : TaskResult ε} (h : p.workers[i]? = some (.publishing r))
    (hroom : p.load ≤ p.capacity) : p.results.length < p.capacity := by
  have hmem : r ∈ p.unpublished :=
    List.mem_flatMap.mpr ⟨_, List.mem_of_getElem? h, List.mem_singleton_self r⟩
  have hpos : 0 < p.unpublished.length := List.length_pos_of_mem hmem
  rw [load] at hroom
  omega

/-- No move brings more on its way. -/
theorem Shift.load_le {a b : WorkerPhase α ε σ} {w : Work α ε σ} (h : p.Shift i a b w p') :
    p'.load ≤ p.load := by
  have htasks := congrArg List.length h.tasks
  have hresults := congrArg List.length h.results
  have hinHand := (flatMap_set_passes h.worker h.inHand).length_eq
  have hunpublished := (flatMap_set_passes h.worker h.unpublished).length_eq
  have hdone : (w.done.filterMap Run.result?).length ≤ w.done.length :=
    List.length_filterMap_le _ _
  rw [← h.workers_eq] at hinHand hunpublished
  simp only [List.length_append, List.length_map] at htasks hresults hinHand hunpublished
  simp only [load, WorkerPool.inHand, WorkerPool.unpublished]
  omega

/-- Tasks come into hands out of the queue. -/
theorem Shift.subset {a b : WorkerPhase α ε σ} {w : Work α ε σ} (h : p.Shift i a b w p')
    {task : Task α ε σ} (htask : task ∈ p'.inHand ++ p'.tasks) : task ∈ p.inHand ++ p.tasks := by
  have hinHand := flatMap_set_passes h.worker h.inHand
  rw [← h.workers_eq] at hinHand
  rw [h.tasks]
  rcases List.mem_append.mp htask with hhand | hqueue
  · have hmem := hinHand.mem_iff.mpr (List.mem_append_right (w.done.map Run.task) hhand)
    rcases List.mem_append.mp hmem with hmem | hmem
    · exact List.mem_append_left _ hmem
    · exact List.mem_append_right _ (List.mem_append_left _ hmem)
  · exact List.mem_append_right _ (List.mem_append_right _ hqueue)

/-- Nothing holds up the workers after a move either. -/
theorem Unhindered.work (h : p.Unhindered) (hwork : p.Works i p') : p'.Unhindered := by
  obtain ⟨a, b, w, hshift⟩ := hwork.shift
  have hgate : p'.gateOpen = p.gateOpen := (congrArg WorkerPool.gateOpen hshift.same).trans rfl
  exact {
    stopped := hshift.stopped_eq.trans h.stopped
    gate := h.gate.imp (fun hopen => hgate.trans hopen)
      fun hungated task htask => hungated task (hshift.subset htask)
    room := by
      rw [hshift.cancelled_eq, hshift.capacity_eq]
      exact h.room.imp_right fun hroom => Nat.le_trans hshift.load_le hroom }

/-- **A worker that nothing holds up has a move until it has finished.** -/
theorem Unhindered.moves (h : p.Unhindered) {phase : WorkerPhase α ε σ}
    (hworker : p.workers[i]? = some phase) (hmove : p.work? i = none) : phase = .finished := by
  rcases idle_of_work? hworker hmove with
    hfinished | ⟨-, -, hopen, -⟩ | ⟨task, rfl, hgated, hclosed⟩ | ⟨r, rfl, hfull, hgoes⟩
  · exact hfinished
  · rw [h.stopped] at hopen
    cases hopen
  · rcases h.gate with hgate | hungated
    · rw [hclosed] at hgate
      cases hgate
    · rw [hungated task (List.mem_append_left _ (mem_inHand hworker))] at hgated
      cases hgated
  · rcases h.room with hcancelled | hroom
    · rw [hgoes] at hcancelled
      cases hcancelled
    · exact absurd (results_length_lt hworker hroom) (Nat.not_lt_of_le hfull)

/-- Workers that nothing holds up end, if they are left alone. -/
theorem Unhindered.settle (h : p.Unhindered) : p.settle.HasStopped := by
  have hends : p.settle.Unhindered ∧ ∀ i, p.settle.work? i = none :=
    settle_stuck (fun hq hmove => hq.work (works_of_work? hmove)) h
  refine ⟨hends.1.stopped, fun phase hphase => ?_⟩
  obtain ⟨i, hi⟩ := List.getElem?_of_mem hphase
  exact hends.1.moves hi (hends.2 i)

/-- **A pool stops** when no task waits for the gate and there is room for all results, and always
when it is cancelled and the gate is open. -/
theorem stop_hasStopped
    (hgate : p.gateOpen = true ∨ ∀ task ∈ p.inHand ++ p.tasks, task.gated = false)
    (hroom : p.cancelled = true ∨ p.load ≤ p.capacity) : p.stop.HasStopped :=
  Unhindered.settle (p := p.close) ⟨rfl, hgate, hroom⟩

end WorkerPool
end StoreQL.Concurrency
