/-
# A batch gives the same under every schedule

A batch is run by a thread that submits a task for each item, one after the other, stops the pool
and waits, while the workers make their moves in any order (`BatchRun`).

Both queues have room for every item (`Sound.load_le`), so no submit is rejected and no worker waits
to publish; the thread and the workers have a move until the pool has stopped (`Sound.moves`), and
each move brings the end nearer (`Sound.nearer`). A task writes into the slot of its item and
into no other (`getElem?_effect`), and at the end every task has been run once, so the slots hold
the errors of the items (`effects_eq`).

Main statement: `batch_schedule_independent`, for every schedule, and for the one by which a batch
is processed.
-/
import StoreQL.Concurrency.Batch
import StoreQL.Proofs.Concurrency.Accounting

namespace StoreQL.Concurrency

open scoped List

variable {α ε : Type}

/-! ## 1. Runs of a batch -/

/-- The pool of a batch, the tasks that are still to be submitted, and whether those that were
submitted have been accepted. -/
structure BatchRun (ε : Type) where
  pool : BatchPool ε
  pending : List (BatchTask ε)
  answers : List Bool

/-- What can happen: the next task is submitted, the pool is stopped, or a worker makes a move or its
wait runs out. -/
inductive BatchAct where
  | submit
  | close
  | work (worker : Nat)
  | timeOut (worker : Nat)

namespace BatchRun

/-- A batch before its first task is submitted. -/
def start (message : ε → String) (process : α → TaskOutcome ε) (items : List α)
    (workers : Nat) : BatchRun ε :=
  ⟨batchPool workers items.length, batchTasks message process items, []⟩

/-- Do what can happen. The pool is stopped when everything has been submitted. -/
def step? (r : BatchRun ε) : BatchAct → Option (BatchRun ε)
  | .submit =>
    match r.pending with
    | [] => none
    | task :: rest =>
      some ⟨(r.pool.submit task).2, rest, r.answers ++ [(r.pool.submit task).1]⟩
  | .close =>
    if r.pending.isEmpty && !r.pool.stopped then some { r with pool := r.pool.close } else none
  | .work i => (r.pool.work? i).map fun p => { r with pool := p }
  | .timeOut i => (r.pool.timeOut? i).map fun p => { r with pool := p }

/-- The run of the pool of a batch, in which no result is read. -/
def poolRun (r : BatchRun ε) (submitted : List (BatchTask ε)) :
    PoolRun Nat String (List (Option ε)) :=
  ⟨r.pool, [], submitted, []⟩

/-! ## 2. What every move keeps -/

/-- The tasks of a batch are accounted for, and there is room for them. -/
structure Sound (tasks : List (BatchTask ε)) (r : BatchRun ε) (submitted : List (BatchTask ε))
    (w : Work Nat String (List (Option ε))) : Prop where
  books : (r.poolRun submitted).Books (List.replicate tasks.length none) w
  all : submitted ++ r.pending = tasks
  room : tasks.length ≤ r.pool.capacity
  uncancelled : r.pool.cancelled = false
  staffed : r.pool.workers ≠ []
  pending : r.pool.stopped = true → r.pending = []
  answers : r.answers = List.replicate submitted.length true

variable {tasks submitted : List (BatchTask ε)} {r r' : BatchRun ε}
  {w : Work Nat String (List (Option ε))}

/-- No more is on its way than was submitted. -/
theorem Sound.load_le (h : r.Sound tasks submitted w) : r.pool.load ≤ submitted.length :=
  Nat.le_of_add_right_le h.books.load_le

theorem Sound.submitted_le (h : r.Sound tasks submitted w) :
    submitted.length + r.pending.length = tasks.length := by
  rw [← h.all, List.length_append]

/-- The next task is accepted. -/
theorem Sound.accepts {task : BatchTask ε} {rest : List (BatchTask ε)}
    (h : r.Sound tasks submitted w)
    (hpending : r.pending = task :: rest) : (r.pool.submit task).1 = true := by
  refine (PoolRun.accepts_iff r.pool task).mpr ⟨h.uncancelled, ?_, ?_⟩
  · cases hstopped : r.pool.stopped with
    | false => rfl
    | true =>
      rw [h.pending hstopped] at hpending
      cases hpending
  · have hlength := h.submitted_le
    have hload := h.load_le
    have hroom := h.room
    rw [hpending, List.length_cons] at hlength
    rw [WorkerPool.load] at hload
    omega

/-- A worker finds room for its result. -/
theorem Sound.room_of_publishing (h : r.Sound tasks submitted w) {i : Nat}
    {result : TaskResult String} (hworker : r.pool.workers[i]? = some (.publishing result)) :
    r.pool.results.length < r.pool.capacity := by
  have hload := h.load_le
  have hlength := h.submitted_le
  have hroom := h.room
  exact WorkerPool.results_length_lt hworker (by omega)

/-- A batch stays sound when something passes through a worker. -/
theorem Sound.shift {i : Nat} {a b : WorkerPhase Nat String (List (Option ε))}
    {v : Work Nat String (List (Option ε))} {p' : BatchPool ε} (h : r.Sound tasks submitted w)
    (hshift : r.pool.Shift i a b v p') :
    ({ r with pool := p' } : BatchRun ε).Sound tasks submitted (w.add v) where
  books := h.books.work hshift
  all := h.all
  room := hshift.capacity_eq ▸ h.room
  uncancelled := hshift.cancelled_eq.trans h.uncancelled
  staffed := by
    show p'.workers ≠ []
    rw [hshift.workers_eq]
    exact fun hnil => h.staffed ((List.set_eq_nil_iff _ _).mp hnil)
  pending hstopped := h.pending (hshift.stopped_eq ▸ hstopped)
  answers := h.answers

/-- **Every move of a batch keeps it sound.** -/
theorem Sound.step {act : BatchAct} (h : r.Sound tasks submitted w)
    (hstep : r.step? act = some r') : ∃ submitted' w', r'.Sound tasks submitted' w' := by
  cases act with
  | submit =>
    rw [step?] at hstep
    split at hstep
    · cases hstep
    rename_i task rest hpending
    cases hstep
    have haccepts : r.pool.accepts = true := h.accepts hpending
    have hsubmit : r.pool.submit task =
        (true, { r.pool with tasks := r.pool.tasks ++ [task] }) := by
      rw [WorkerPool.submit, if_pos haccepts, haccepts]
    have hbooks := h.books.submit task
    simp only [poolRun, hsubmit, if_true] at hbooks
    rw [hsubmit]
    exact ⟨submitted ++ [task], w, {
      books := hbooks
      all := by rw [List.append_assoc, ← h.all, hpending]; rfl
      room := h.room
      uncancelled := h.uncancelled
      staffed := h.staffed
      pending := fun hstopped => by
        rw [h.pending hstopped] at hpending
        cases hpending
      answers := by
        rw [h.answers, List.length_append, List.length_singleton, List.replicate_succ'] }⟩
  | close =>
    rw [step?] at hstep
    split at hstep
    · rename_i hdone
      cases hstep
      rw [Bool.and_eq_true, List.isEmpty_iff] at hdone
      exact ⟨submitted, w, { h with books := h.books.close, pending := fun _ => hdone.1 }⟩
    · cases hstep
  | work i =>
    obtain ⟨p, hmove, rfl⟩ := Option.map_eq_some_iff.mp hstep
    obtain ⟨a, b, v, hshift⟩ := (WorkerPool.works_of_work? hmove).shift
    exact ⟨submitted, w.add v, h.shift hshift⟩
  | timeOut i =>
    obtain ⟨p, hmove, rfl⟩ := Option.map_eq_some_iff.mp hstep
    obtain ⟨a, b, hshift⟩ := (WorkerPool.timesOut_of_timeOut? hmove).shift
    exact ⟨submitted, w.add {}, h.shift hshift⟩

theorem start_sound (message : ε → String) (process : α → TaskOutcome ε) (items : List α)
    (workers : Nat) :
    (start message process items workers).Sound (batchTasks message process items) [] {} where
  books := by
    rw [batchTasks, List.length_mapIdx]
    exact (PoolRun.start_books (max workers 1) (max items.length 1) _).start rfl
  all := rfl
  room := by
    rw [batchTasks, List.length_mapIdx]
    exact Nat.le_max_left _ _
  uncancelled := rfl
  staffed := by
    refine List.ne_nil_of_length_pos ?_
    rw [start, batchPool, List.length_replicate]
    exact Nat.le_max_right _ _
  pending := nofun
  answers := rfl

theorem sound_of_reaches {message : ε → String} {process : α → TaskOutcome ε} {items : List α}
    {workers : Nat} (h : Reaches step? (start message process items workers) r) :
    ∃ submitted w, r.Sound (batchTasks message process items) submitted w :=
  h.keeps (P := fun r => ∃ submitted w, r.Sound (batchTasks message process items) submitted w)
    (fun ⟨_, _, hsound⟩ hstep => hsound.step hstep)
    ⟨[], {}, start_sound message process items workers⟩

/-! ## 3. No schedule gets stuck, and none goes on for ever -/

/-- Nothing holds up the workers of a batch whose pool was stopped. -/
theorem Sound.unhindered (h : r.Sound tasks submitted w)
    (hungated : ∀ task ∈ tasks, task.gated = false) (hstopped : r.pool.stopped = true) :
    r.pool.Unhindered where
  stopped := hstopped
  gate := by
    refine Or.inr fun task htask => hungated task ?_
    rw [← h.all]
    exact List.mem_append_left _ (h.books.mem_accepted htask)
  room := by
    have hlength := h.submitted_le
    have hload := h.load_le
    have hroom := h.room
    exact Or.inr (by omega)

/-- **Something can move until the pool has stopped.** -/
theorem Sound.moves (h : r.Sound tasks submitted w)
    (hungated : ∀ task ∈ tasks, task.gated = false) :
    r.pool.HasStopped ∨ ∃ act r', r.step? act = some r' := by
  cases hpending : r.pending with
  | cons task rest =>
    refine Or.inr ⟨.submit, ?_⟩
    rw [step?, hpending]
    exact ⟨_, rfl⟩
  | nil =>
    cases hstopped : r.pool.stopped with
    | false =>
      refine Or.inr ⟨.close, ?_⟩
      rw [step?, hpending, hstopped]
      exact ⟨_, rfl⟩
    | true =>
      by_cases hrunning : ∃ phase ∈ r.pool.workers, phase ≠ .finished
      · obtain ⟨phase, hphase, hrunning⟩ := hrunning
        obtain ⟨i, hi⟩ := List.getElem?_of_mem hphase
        cases hmove : r.pool.work? i with
        | none => exact absurd ((h.unhindered hungated hstopped).moves hi hmove) hrunning
        | some p =>
          refine Or.inr ⟨.work i, ?_⟩
          rw [step?, hmove]
          exact ⟨_, rfl⟩
      · refine Or.inl ⟨hstopped, fun phase hphase => ?_⟩
        by_contra hne
        exact hrunning ⟨phase, hphase, hne⟩

/-- How many moves are still to be made at most. -/
def rank (r : BatchRun ε) : Nat :=
  5 * r.pending.length + (if r.pool.stopped then 0 else 1) + r.pool.rank

/-- **Every move brings the end nearer**, but a wait for a task that runs out; and that happens only
before the pool is stopped. -/
theorem Sound.nearer {act : BatchAct} (h : r.Sound tasks submitted w)
    (hstep : r.step? act = some r') :
    r'.rank < r.rank ∨ (∃ i, act = .timeOut i) ∧ r.pool.stopped = false := by
  cases act with
  | submit =>
    rw [step?] at hstep
    split at hstep
    · cases hstep
    rename_i task rest hpending
    cases hstep
    refine Or.inl ?_
    rw [rank, rank, hpending, WorkerPool.submit]
    split
    · simp only [WorkerPool.rank, List.length_append, List.length_cons, List.length_nil]
      omega
    · simp only [List.length_cons]
      omega
  | close =>
    rw [step?] at hstep
    split at hstep
    · rename_i hopen
      cases hstep
      rw [Bool.and_eq_true, Bool.not_eq_true'] at hopen
      refine Or.inl ?_
      rw [rank, rank, hopen.2]
      simp [WorkerPool.close, WorkerPool.rank]
    · cases hstep
  | work i =>
    obtain ⟨p, hmove, rfl⟩ := Option.map_eq_some_iff.mp hstep
    have hwork := WorkerPool.works_of_work? hmove
    obtain ⟨a, b, v, hshift⟩ := hwork.shift
    have hlt : p.rank < r.pool.rank := hwork.rank_lt
    refine Or.inl ?_
    simp only [rank, hshift.stopped_eq]
    omega
  | timeOut i =>
    obtain ⟨p, hmove, rfl⟩ := Option.map_eq_some_iff.mp hstep
    cases WorkerPool.timesOut_of_timeOut? hmove with
    | idle _ _ hopen => exact Or.inr ⟨⟨i, rfl⟩, hopen⟩
    | full hworker hfull => exact absurd hfull (Nat.not_le_of_lt (h.room_of_publishing hworker))

end BatchRun

/-! ## 4. Tasks and slots -/

section Tasks

variable {message : ε → String} {process : α → TaskOutcome ε} {items : List α}

theorem mem_batchTasks {task : BatchTask ε} (h : task ∈ batchTasks message process items) :
    ∃ i x, items[i]? = some x ∧ task = batchTask message process i x := by
  obtain ⟨i, hi, rfl⟩ := List.mem_mapIdx.mp h
  exact ⟨i, items[i], List.getElem?_eq_getElem hi, rfl⟩

@[simp] theorem label_batchTask (i : Nat) (x : α) :
    (batchTask message process i x).label = i := by
  rw [batchTask]
  cases process x <;> rfl

@[simp] theorem gated_batchTask (i : Nat) (x : α) :
    (batchTask message process i x).gated = false := by
  rw [batchTask]
  cases process x <;> rfl

/-- The task fails with the message of the error. -/
theorem error_batchTask (i : Nat) (x : α) :
    (batchTask message process i x).outcome.error = (process x).error.map message := by
  rw [batchTask]
  cases process x <;> rfl

theorem panics_of_batchTask {i : Nat} {x : α}
    (h : (batchTask message process i x).outcome = .panics) : process x = .panics := by
  rw [batchTask] at h
  cases hx : process x with
  | panics => rfl
  | succeeds | fails => rw [hx] at h; cases h

theorem ungated_batchTasks : ∀ task ∈ batchTasks message process items, task.gated = false := by
  intro task htask
  obtain ⟨i, x, -, rfl⟩ := mem_batchTasks htask
  exact gated_batchTask i x

/-- What is the same for each task as for its item is so for all of them in order. -/
theorem map_batchTasks {β : Type} {f : BatchTask ε → β} {g : α → β}
    (h : ∀ i x, f (batchTask message process i x) = g x) :
    (batchTasks message process items).map f = items.map g := by
  refine List.ext_getElem (by simp [batchTasks]) fun i _ _ => ?_
  simp [batchTasks, h]

/-- The tasks are labelled with the places of the items. -/
theorem labels_batchTasks (message : ε → String) (process : α → TaskOutcome ε) (items : List α) :
    (batchTasks message process items).map Task.label = List.range items.length := by
  refine List.ext_getElem (by simp [batchTasks]) fun i _ _ => ?_
  simp [batchTasks]

variable {slots : List (Option ε)} {k : Nat} {x : α} {before : Option ε}

/-- A task writes into the slot of its item, and into no other. -/
theorem getElem?_effect (message : ε → String) (process : α → TaskOutcome ε) (i : Nat) (x : α)
    (hbefore : slots[k]? = some before)
    (hnone : (process x).error = none → i = k → before = none) :
    ((batchTask message process i x).effect slots)[k]? =
      some (if i = k then (process x).error else before) := by
  rw [batchTask]
  by_cases hi : i = k
  · rw [if_pos hi]
    cases houtcome : process x with
    | fails error =>
      show (slots.set i (some error))[k]? = some (some error)
      rw [hi, getElem?_set_of_eq_some hbefore, if_pos rfl]
    | succeeds | panics =>
      rw [houtcome] at hnone
      exact hbefore.trans (congrArg some (hnone rfl hi))
  · rw [if_neg hi]
    cases process x with
    | fails error => exact (List.getElem?_set_ne hi).trans hbefore
    | succeeds | panics => exact hbefore

theorem length_effect (i : Nat) (x : α) :
    ((batchTask message process i x).effect slots).length = slots.length := by
  rw [batchTask]
  cases process x with
  | fails error => exact List.length_set
  | succeeds | panics => rfl

variable {done : List (Run Nat String (List (Option ε)))}

theorem length_effects (hbatch : ∀ d ∈ done, d.task ∈ batchTasks message process items) :
    (Run.effects done slots).length = slots.length := by
  induction done generalizing slots with
  | nil => rfl
  | cons d done ih =>
    obtain ⟨i, y, -, htask⟩ := mem_batchTasks (hbatch d List.mem_cons_self)
    have hrest : (Run.effects done (d.task.effect slots)).length = (d.task.effect slots).length :=
      ih fun d' hd' => hbatch d' (List.mem_cons_of_mem d hd')
    exact hrest.trans (by rw [htask, length_effect])

/-- What the slot of an item holds when some tasks have ended, if its own is among them or has been
before. -/
theorem getElem?_effects (hx : items[k]? = some x)
    (hbatch : ∀ d ∈ done, d.task ∈ batchTasks message process items)
    (hbefore : slots[k]? = some before) (hnone : (process x).error = none → before = none)
    (hwritten : before = (process x).error ∨ ∃ d ∈ done, d.task.label = k) :
    (Run.effects done slots)[k]? = some (process x).error := by
  induction done generalizing slots before with
  | nil =>
    rcases hwritten with heq | ⟨d, hd, -⟩
    · exact heq ▸ hbefore
    · cases hd
  | cons d done ih =>
    have hrest : ∀ d' ∈ done, d'.task ∈ batchTasks message process items :=
      fun d' hd' => hbatch d' (List.mem_cons_of_mem d hd')
    obtain ⟨i, y, hy, htask⟩ := mem_batchTasks (hbatch d List.mem_cons_self)
    have hlabel : d.task.label = i := htask ▸ label_batchTask i y
    show (Run.effects done (d.task.effect slots))[k]? = _
    by_cases hi : i = k
    · -- The task is that of the item, and whatever writes into the slot later is so too.
      have hyx : y = x := Option.some.inj (hy.symm.trans (hi ▸ hx))
      subst hyx
      have hstep := getElem?_effect message process i y hbefore fun h _ => hnone h
      rw [if_pos hi, ← htask] at hstep
      exact ih hrest hstep id (Or.inl rfl)
    · have hstep := getElem?_effect message process i y hbefore fun _ h => absurd h hi
      rw [if_neg hi, ← htask] at hstep
      refine ih hrest hstep hnone ?_
      rcases hwritten with heq | ⟨d', hd', hk⟩
      · exact Or.inl heq
      · rcases List.mem_cons.mp hd' with rfl | hmem
        · exact absurd (hlabel.symm.trans hk) hi
        · exact Or.inr ⟨d', hmem, hk⟩

/-- **The slots hold the errors of the items**, in whatever order the tasks have ended. -/
theorem effects_eq (hdone : done.map Run.task ~ batchTasks message process items) :
    Run.effects done (List.replicate items.length none) =
      items.map (fun x => (process x).error) := by
  have hbatch : ∀ d ∈ done, d.task ∈ batchTasks message process items :=
    fun d hd => hdone.mem_iff.mp (List.mem_map_of_mem hd)
  refine List.ext_getElem? fun k => ?_
  rcases Nat.lt_or_ge k items.length with hlt | hge
  · have hx := List.getElem?_eq_getElem hlt
    have hbefore : (List.replicate items.length (none : Option ε))[k]? = some none := by
      simp [hlt]
    have hlabel : k ∈ (done.map Run.task).map Task.label := by
      rw [(hdone.map Task.label).mem_iff, labels_batchTasks]
      exact List.mem_range.mpr hlt
    obtain ⟨task, htask, hk⟩ := List.mem_map.mp hlabel
    obtain ⟨d, hd, rfl⟩ := List.mem_map.mp htask
    rw [getElem?_effects hx hbatch hbefore (fun _ => rfl) (Or.inr ⟨d, hd, hk⟩),
      List.getElem?_map, hx]
    rfl
  · rw [List.getElem?_eq_none, List.getElem?_eq_none]
    · simpa using hge
    · simpa [length_effects hbatch] using hge

end Tasks

/-! ## 5. The same under every schedule -/

namespace BatchRun

variable {message : ε → String} {process : α → TaskOutcome ε} {items : List α} {workers : Nat}
  {submitted : List (BatchTask ε)} {r : BatchRun ε} {w : Work Nat String (List (Option ε))}

/-- The labels of what was submitted are the first places. -/
theorem Sound.labels (h : r.Sound (batchTasks message process items) submitted w) :
    submitted.map Task.label ++ r.pending.map Task.label = List.range items.length := by
  rw [← List.map_append, h.all, labels_batchTasks]

/-- No item is processed twice. -/
theorem Sound.begun (h : r.Sound (batchTasks message process items) submitted w) :
    r.pool.begun <+: List.range items.length := by
  have hbegun : r.pool.begun <+: submitted.map Task.label := ⟨_, h.books.accounted.inOrder⟩
  exact hbegun.trans ⟨_, h.labels⟩

theorem Sound.ended (h : r.Sound (batchTasks message process items) submitted w) :
    (r.pool.ended.map Prod.fst).Nodup := by
  have hnodup : (submitted.map Task.label).Nodup := by
    have hrange : (List.range items.length).Nodup := List.nodup_range
    rw [← h.labels] at hrange
    exact (List.nodup_append.mp hrange).1
  exact (h.books.accounted.notTwice hnodup).2

/-- When the pool of a batch has stopped, everything has been run once. -/
theorem Sound.allRun (h : r.Sound (batchTasks message process items) submitted w)
    (hreturns : ∀ x ∈ items, process x ≠ .panics) (hstopped : r.pool.HasStopped) :
    submitted = batchTasks message process items ∧
      (r.poolRun (batchTasks message process items)).AllRun w := by
  have hsubmitted : submitted = batchTasks message process items := by
    have hall := h.all
    rwa [h.pending hstopped.1, List.append_nil] at hall
  subst hsubmitted
  refine ⟨rfl, h.books.allRun h.staffed hstopped h.uncancelled fun task htask => ?_⟩
  obtain ⟨i, x, hx, rfl⟩ := mem_batchTasks htask
  intro hpanics
  exact hreturns x (List.mem_of_getElem? hx) (panics_of_batchTask hpanics)

/-- What is true of a batch after any moves. -/
structure Independent (message : ε → String) (process : α → TaskOutcome ε) (items : List α)
    (r : BatchRun ε) : Prop where
  /-- No submit was rejected. -/
  answers : ∀ answer ∈ r.answers, answer = true
  /-- No worker waits for room. -/
  room : ∀ (i : Nat) (result : TaskResult String),
    r.pool.workers[i]? = some (.publishing result) → r.pool.results.length < r.pool.capacity
  /-- Items are processed in order, and none of them twice. -/
  begun : r.pool.begun <+: List.range items.length
  ended : (r.pool.ended.map Prod.fst).Nodup
  moves : r.pool.HasStopped ∨ ∃ act r', r.step? act = some r'
  /-- Only a wait for a task may be in vain, and not when the pool has been stopped. -/
  nearer : ∀ act r', r.step? act = some r' →
    r'.rank < r.rank ∨ (∃ i, act = .timeOut i) ∧ r.pool.stopped = false
  /-- At the end every item has been processed once, and the slots hold the errors; the results of
  the tasks have their messages. -/
  stopped : r.pool.HasStopped → r.answers.length = items.length ∧
    r.pool.begun = List.range items.length ∧
    r.pool.ended.map Prod.fst ~ List.range items.length ∧
    r.pool.memory = items.map (fun x => (process x).error) ∧
    r.pool.results.map TaskResult.error ~ items.map (fun x => (process x).error.map message)

theorem Sound.independent (h : r.Sound (batchTasks message process items) submitted w)
    (hreturns : ∀ x ∈ items, process x ≠ .panics) : r.Independent message process items where
  answers answer hanswer := by
    rw [h.answers] at hanswer
    exact List.eq_of_mem_replicate hanswer
  room i result hworker := h.room_of_publishing hworker
  begun := h.begun
  ended := h.ended
  moves := h.moves ungated_batchTasks
  nearer _ _ hstep := h.nearer hstep
  stopped hstopped := by
    obtain ⟨hsubmitted, hall⟩ := h.allRun hreturns hstopped
    have hlength : (batchTasks message process items).length = items.length := by
      rw [batchTasks, List.length_mapIdx]
    have hbegun : r.pool.begun = (batchTasks message process items).map Task.label := hall.begun
    have hended : r.pool.ended = _ := hall.ended
    have hmemory : r.pool.memory = _ := h.books.memory
    have houtcomes : r.pool.results.map TaskResult.error ~ _ := hall.outcomes
    refine ⟨?_, ?_, ?_, ?_, ?_⟩
    · rw [h.answers, List.length_replicate, hsubmitted, hlength]
    · rw [hbegun, labels_batchTasks]
    · have hlabels := hall.done.map Task.label
      rw [List.map_map] at hlabels
      rw [hended, List.map_map, ← labels_batchTasks message process items]
      exact hlabels
    · rw [hmemory, hlength]
      exact effects_eq hall.done
    · rwa [poolRun, map_batchTasks error_batchTask] at houtcomes

/-! The schedule by which a batch is processed: everything is submitted, and then the workers are
left alone. -/

theorem submitAll_reaches (pending : List (BatchTask ε)) :
    ∀ r : BatchRun ε, r.pending = pending → ∃ r' : BatchRun ε, Reaches step? r r' ∧
      r'.pool = pending.foldl (fun p task => (p.submit task).2) r.pool ∧ r'.pending = [] ∧
      r'.pool.stopped = r.pool.stopped := by
  induction pending with
  | nil => exact fun r hpending => ⟨r, .refl, rfl, hpending, rfl⟩
  | cons task pending ih =>
    intro r hpending
    obtain ⟨r', hreaches, hpool, hdone, hstopped⟩ := ih
      ⟨(r.pool.submit task).2, pending, r.answers ++ [(r.pool.submit task).1]⟩ rfl
    refine ⟨r', Reaches.trans (.move .submit .refl ?_) hreaches, hpool, hdone, ?_⟩
    · rw [step?, hpending]
    · rw [hstopped, WorkerPool.submit]
      split <;> rfl

theorem runBatch_reaches (message : ε → String) (process : α → TaskOutcome ε) (items : List α)
    (workers : Nat) :
    ∃ r, Reaches step? (start message process items workers) r ∧
      r.pool = runBatch message items workers process ∧ r.pool.HasStopped := by
  obtain ⟨r, hreaches, hpool, hdone, hopen⟩ := submitAll_reaches
    (batchTasks message process items) (start message process items workers) rfl
  have hclose : r.step? .close = some { r with pool := r.pool.close } := by
    rw [step?, hdone, hopen]
    rfl
  have hclosed := Reaches.move .close hreaches hclose
  obtain ⟨submitted, w, hsound⟩ := sound_of_reaches hclosed
  -- The workers, left alone, make moves of the batch.
  have hsettles := WorkerPool.settle_stuck (p := r.pool.close)
    (P := fun q => ∃ r', Reaches step? (start message process items workers) r' ∧ r'.pool = q)
    (fun {q q' i} ⟨r', hreaches', hpool'⟩ hmove => by
      subst hpool'
      refine ⟨{ r' with pool := q' }, .move (.work i) hreaches' ?_, rfl⟩
      rw [step?, hmove]
      rfl)
    ⟨_, hclosed, rfl⟩
  obtain ⟨r', hreaches', hpool'⟩ := hsettles.1
  refine ⟨r', hreaches', ?_, ?_⟩
  · rw [hpool', hpool]
    rfl
  · rw [hpool']
    exact (hsound.unhindered ungated_batchTasks rfl).settle

end BatchRun

/-- **A batch gives the same under every schedule.** After any moves of the thread that submits and
of the workers, no submit has been rejected, no worker waits for room, and no item has been
processed twice; something can move until the pool has stopped, and no schedule goes on for ever
but one in which the thread never stops the pool; and when the pool has stopped, each item has been
processed once and the slots hold the errors of the items in order. So they do in the result. -/
theorem batch_schedule_independent (message : ε → String) (process : α → TaskOutcome ε)
    (items : List α) (workers : Nat) (hreturns : ∀ x ∈ items, process x ≠ .panics) :
    (∀ r, Reaches BatchRun.step? (BatchRun.start message process items workers) r →
      r.Independent message process items) ∧
    batchProcess message items workers process = items.map (fun x => (process x).error) := by
  have hall : ∀ r, Reaches BatchRun.step? (BatchRun.start message process items workers) r →
      r.Independent message process items := by
    intro r hreaches
    obtain ⟨submitted, w, hsound⟩ := BatchRun.sound_of_reaches hreaches
    exact hsound.independent hreturns
  obtain ⟨r, hreaches, hpool, hstopped⟩ :=
    BatchRun.runBatch_reaches message process items workers
  refine ⟨hall, ?_⟩
  rw [batchProcess, ← hpool]
  exact ((hall r hreaches).stopped hstopped).2.2.2.1

/-- Two items and no worker asked for: one is there all the same, and the second item fails. -/
theorem batch_schedule_independent_two :
    batchProcess Nat.repr [1, 2] 0 (fun x => if x = 1 then .succeeds else .fails 7) =
        [none, some 7] ∧
      ∃ r, Reaches BatchRun.step?
          (BatchRun.start Nat.repr (fun x => if x = 1 then .succeeds else .fails 7) [1, 2] 0) r ∧
        r.pool.HasStopped ∧ r.pool.memory = [none, some 7] ∧
        r.pool.results.map TaskResult.error ~ [none, some "7"] := by
  have hreturns : ∀ x ∈ [1, 2],
      (if x = 1 then TaskOutcome.succeeds else .fails 7) ≠ .panics := by decide
  obtain ⟨hall, hresult⟩ := batch_schedule_independent Nat.repr _ [1, 2] 0 hreturns
  obtain ⟨r, hreaches, -, hstopped⟩ := BatchRun.runBatch_reaches Nat.repr
    (fun x => if x = 1 then TaskOutcome.succeeds else .fails 7) [1, 2] 0
  obtain ⟨-, -, -, hmemory, hmessages⟩ := (hall r hreaches).stopped hstopped
  exact ⟨hresult, r, hreaches, hstopped, hmemory, hmessages⟩

end StoreQL.Concurrency
