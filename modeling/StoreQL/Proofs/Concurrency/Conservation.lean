/-
# Producers and consumers lose nothing

Beside a system of producers and consumers a journal is kept of what happens to its items: an item
is produced, it enters the buffer or is given back to its producer, it is removed from the buffer by
a consumer, and it is handled. Loops may be started at any time, the token may be cancelled at any
time, and the loops make their moves in any order.

Items pass through producers, the buffer and consumers, each of which holds what it has taken in and
not yet given out. `Passes` says so of one step, with all that can be noted in the journal then; the
other statements follow from it. Main statements: `step?_passes`, that every step is of that kind;
`Balanced.reaches`, that the journal and what is held are balanced for ever; and `system_conserves`,
what follows for items, their order, the items that were given back, and a single producer with a
single consumer.
-/
import StoreQL.Concurrency.ProducerConsumer
import StoreQL.Proofs.Concurrency.Fifo
import StoreQL.Proofs.Concurrency.Moves

namespace StoreQL.Concurrency

open scoped List

variable {α : Type}

/-! ## 1. The journal -/

/-- What can happen to an item. -/
inductive Passage where
  | produced
  | entered
  | returned
  | removed
  | handled
deriving DecidableEq, Repr

/-- What happened to an item, and the number of the loop that did it: of a producer where the item
is produced, enters the buffer or is returned, and of a consumer otherwise. -/
structure Event (α : Type) where
  passage : Passage
  loop : Nat
  item : α
deriving DecidableEq, Repr

/-- The items to which something happened, in order. -/
def itemsOf (passage : Passage) (events : List (Event α)) : List α :=
  (events.filter (fun e => e.passage = passage)).map Event.item

/-- The items to which a loop did something, in order. -/
def itemsBy (passage : Passage) (loop : Nat) (events : List (Event α)) : List α :=
  (events.filter (fun e => e.passage = passage ∧ e.loop = loop)).map Event.item

@[simp] theorem itemsOf_append (passage : Passage) (events more : List (Event α)) :
    itemsOf passage (events ++ more) = itemsOf passage events ++ itemsOf passage more := by
  simp [itemsOf]

@[simp] theorem itemsBy_append (passage : Passage) (loop : Nat) (events more : List (Event α)) :
    itemsBy passage loop (events ++ more) =
      itemsBy passage loop events ++ itemsBy passage loop more := by
  simp [itemsBy]

@[simp] theorem itemsOf_nil (passage : Passage) : itemsOf passage ([] : List (Event α)) = [] := rfl

@[simp] theorem itemsBy_nil (passage : Passage) (loop : Nat) :
    itemsBy passage loop ([] : List (Event α)) = [] := rfl

/-- What one loop has done was done by that loop. -/
theorem itemsBy_of_loop {events : List (Event α)} {i : Nat} (h : ∀ e ∈ events, e.loop = i)
    (passage : Passage) (k : Nat) :
    itemsBy passage k events = if i = k then itemsOf passage events else [] := by
  induction events with
  | nil => simp
  | cons e events ih =>
    have hrest : ∀ e' ∈ events, e'.loop = i := fun e' he' => h e' (List.mem_cons_of_mem _ he')
    have hloop : e.loop = i := h e List.mem_cons_self
    have hcons := ih hrest
    simp only [itemsBy, itemsOf] at hcons ⊢
    by_cases hk : i = k
    · by_cases hp : e.passage = passage <;> simp_all
    · have hne : ¬ e.loop = k := hloop ▸ hk
      simp_all

/-! ## 2. What the loops hold -/

/-- The item that a producer holds or was given back. -/
def ProducerPhase.held : ProducerPhase α → List α
  | .holding item | .finished (some item) => [item]
  | .checking | .calling | .finished none => []

/-- The item that a producer was given back. -/
def ProducerPhase.returned : ProducerPhase α → List α
  | .finished (some item) => [item]
  | .checking | .calling | .holding _ | .finished none => []

/-- The items that the calls of a producer have returned. -/
def Producer.results (p : Producer α) : List α := (List.range p.calls).filterMap p.result

/-- The item that a consumer has taken and is about to hand to its function. -/
def ConsumerPhase.held : ConsumerPhase α → List α
  | .handling item => [item]
  | .checking | .waiting | .finished => []

/-- What can be seen of a move of producer `i`. -/
def ProducerPhase.events (i : Nat) : ProducerPhase α → ProducerPhase α → List (Event α)
  | .calling, .holding item => [⟨.produced, i, item⟩]
  | .holding item, .checking => [⟨.entered, i, item⟩]
  | .holding _, .finished (some item) => [⟨.returned, i, item⟩]
  | _, _ => []

/-- What can be seen of a move of consumer `j`. -/
def ConsumerPhase.events (j : Nat) : ConsumerPhase α → ConsumerPhase α → List (Event α)
  | .waiting, .handling item => [⟨.removed, j, item⟩]
  | .handling item, .checking => [⟨.handled, j, item⟩]
  | _, _ => []

/-- A system and what happened in it so far. -/
structure Account (α : Type) where
  system : ProducerConsumerSystem α
  events : List (Event α)

namespace Account

/-- What is done with a system: a loop is started, or the system makes a move. -/
inductive Act (α : Type) where
  | startProducer (result : Nat → Option α)
  | startConsumer
  | move (m : ProducerConsumerSystem.Move)

/-- Before anything has happened. -/
def start (s : ProducerConsumerSystem α) : Account α := ⟨s, []⟩

/-- What can be seen of a move that leads from one state of a system to another. -/
def observed (s s' : ProducerConsumerSystem α) : ProducerConsumerSystem.Move → List (Event α)
  | .producer i =>
    match s.producers[i]?, s'.producers[i]? with
    | some p, some p' => p.phase.events i p'.phase
    | _, _ => []
  | .consumer j =>
    match s.consumers[j]?, s'.consumers[j]? with
    | some c, some c' => c.events j c'
    | _, _ => []
  | .cancel => []

/-- Do something with a system, if it is possible, and note what happened. -/
def step? (a : Account α) : Act α → Option (Account α)
  | .startProducer result => some { a with system := a.system.startProducer result }
  | .startConsumer => some { a with system := a.system.startConsumer }
  | .move m => (a.system.step? m).map fun s => ⟨s, a.events ++ observed a.system s m⟩

end Account

/-! ## 3. What one loop does -/

/-- What a move of producer `i` does: items pass through the producer, and those that it gives out
enter the buffer, which held `q` and then holds `q'`, or stay with it when it has ended. -/
structure Producer.Passes (i : Nat) (cancelled : Bool) (p p' : Producer α) (q q' : List α)
    (events : List (Event α)) : Prop where
  held : p.phase.held ++ itemsOf .produced events = itemsOf .entered events ++ p'.phase.held
  results : p.results ++ itemsOf .produced events = p'.results
  returned : p.phase.returned ++ itemsOf .returned events = p'.phase.returned
  returned_nil : cancelled = false → itemsOf .returned events = []
  buffer : q ++ itemsOf .entered events = q'
  removed_nil : itemsOf .removed events = []
  handled_nil : itemsOf .handled events = []
  loop : ∀ e ∈ events, e.loop = i

theorem Producer.results_succ (result : Nat → Option α) (calls : Nat)
    (phase phase' : ProducerPhase α) :
    (⟨result, calls + 1, phase⟩ : Producer α).results =
      (⟨result, calls, phase'⟩ : Producer α).results ++ (result calls).toList := by
  simp only [Producer.results, List.range_succ, List.filterMap_append]
  cases hresult : result calls <;> simp [hresult]

theorem Producer.step?_passes (i : Nat) {cancelled : Bool} {p p' : Producer α}
    {b b' : BoundedBuffer α} {q : List α} (hq : b.Holds q)
    (h : p.step? cancelled b = some (p', b')) :
    ∃ q', b'.Holds q' ∧ b'.capacity = b.capacity ∧
      Producer.Passes i cancelled p p' q q' (p.phase.events i p'.phase) := by
  obtain ⟨result, calls, phase⟩ := p
  cases phase with
  | checking =>
    simp only [Producer.step?, Option.some.injEq, Prod.mk.injEq] at h
    obtain ⟨rfl, rfl⟩ := h
    refine ⟨q, hq, rfl, ?_⟩
    cases cancelled <;> constructor <;>
      simp [ProducerPhase.events, ProducerPhase.held, ProducerPhase.returned, Producer.results]
  | calling =>
    simp only [Producer.step?, Option.some.injEq, Prod.mk.injEq] at h
    obtain ⟨rfl, rfl⟩ := h
    refine ⟨q, hq, rfl, ?_⟩
    have hresults := Producer.results_succ result calls
    cases hresult : result calls <;> constructor <;>
      simp [ProducerPhase.events, ProducerPhase.held, ProducerPhase.returned, hresults _ .calling,
        hresult, itemsOf]
  | holding item =>
    simp only [Producer.step?, BoundedBuffer.produceUntil] at h
    by_cases hfull : b.isFull = true
    · -- There is no room: the item is given back if the token is cancelled.
      cases cancelled with
      | false => simp [hfull] at h
      | true =>
        simp only [hfull, if_true, Option.some.injEq, Prod.mk.injEq] at h
        obtain ⟨rfl, rfl⟩ := h
        refine ⟨q, hq, rfl, ?_⟩
        constructor <;>
          simp [ProducerPhase.events, ProducerPhase.held, ProducerPhase.returned, itemsOf,
            Producer.results]
    · have hroom : b.count < b.capacity :=
        Nat.lt_of_le_of_ne hq.count_le (mt BoundedBuffer.isFull_iff.mpr hfull)
      simp only [hfull, Bool.false_eq_true, if_false, Option.some.injEq, Prod.mk.injEq] at h
      obtain ⟨rfl, rfl⟩ := h
      refine ⟨q ++ [item], hq.push hroom item, BoundedBuffer.capacity_push b item, ?_⟩
      constructor <;>
        simp [ProducerPhase.events, ProducerPhase.held, ProducerPhase.returned, itemsOf,
          Producer.results]
  | finished returned => simp [Producer.step?] at h

/-- What a move of consumer `j` does: items leave the buffer, which held `q` and then holds `q'`,
and pass through the consumer. -/
structure ConsumerPhase.Passes (j : Nat) (c c' : ConsumerPhase α) (q q' : List α)
    (handled : Option α) (events : List (Event α)) : Prop where
  held : c.held ++ itemsOf .removed events = itemsOf .handled events ++ c'.held
  buffer : q = itemsOf .removed events ++ q'
  handled : itemsOf .handled events = handled.toList
  produced_nil : itemsOf .produced events = []
  entered_nil : itemsOf .entered events = []
  returned_nil : itemsOf .returned events = []
  loop : ∀ e ∈ events, e.loop = j

theorem ConsumerPhase.step?_passes (j : Nat) {cancelled : Bool} {c c' : ConsumerPhase α}
    {b b' : BoundedBuffer α} {q : List α} {handled : Option α} (hq : b.Holds q)
    (h : c.step? cancelled b = some (c', b', handled)) :
    ∃ q', b'.Holds q' ∧ b'.capacity = b.capacity ∧
      ConsumerPhase.Passes j c c' q q' handled (c.events j c') := by
  cases c with
  | checking =>
    simp only [ConsumerPhase.step?, Option.some.injEq, Prod.mk.injEq] at h
    obtain ⟨rfl, rfl, rfl⟩ := h
    refine ⟨q, hq, rfl, ?_⟩
    cases cancelled <;> constructor <;> simp [ConsumerPhase.events, ConsumerPhase.held]
  | waiting =>
    simp only [ConsumerPhase.step?, BoundedBuffer.consumeUntil, BoundedBuffer.consumeOr] at h
    cases q with
    | nil =>
      cases cancelled with
      | false => simp [hq.pop_nil] at h
      | true =>
        simp only [hq.pop_nil, if_true, Option.some.injEq, Prod.mk.injEq] at h
        obtain ⟨rfl, rfl, rfl⟩ := h
        refine ⟨[], hq, rfl, ?_⟩
        constructor <;> simp [ConsumerPhase.events, ConsumerPhase.held]
    | cons x q =>
      simp only [hq.pop_cons, Option.some.injEq, Prod.mk.injEq] at h
      obtain ⟨rfl, rfl, rfl⟩ := h
      refine ⟨q, hq.dropHead, BoundedBuffer.capacity_dropHead b, ?_⟩
      constructor <;> simp [ConsumerPhase.events, ConsumerPhase.held, itemsOf]
  | handling item =>
    simp only [ConsumerPhase.step?, Option.some.injEq, Prod.mk.injEq] at h
    obtain ⟨rfl, rfl, rfl⟩ := h
    refine ⟨q, hq, rfl, ?_⟩
    constructor <;> simp [ConsumerPhase.events, ConsumerPhase.held, itemsOf]
  | finished => simp [ConsumerPhase.step?] at h

/-! ## 4. What one step does -/

namespace ProducerConsumerSystem

variable {s s' : ProducerConsumerSystem α} {i : Nat}

theorem step?_producer (h : s.step? (.producer i) = some s') :
    ∃ p p' b, s.producers[i]? = some p ∧ p.step? s.cancelled s.buffer = some (p', b) ∧
      s' = { s with producers := s.producers.set i p', buffer := b } := by
  cases hp : s.producers[i]? with
  | none => simp [step?, hp] at h
  | some p =>
    cases hstep : p.step? s.cancelled s.buffer with
    | none => simp [step?, hp, hstep] at h
    | some r =>
      obtain ⟨p', b⟩ := r
      simp only [step?, hp, hstep, Option.bind_eq_bind, Option.bind_some, Option.pure_def,
        Option.some.injEq] at h
      exact ⟨p, p', b, rfl, hstep, h.symm⟩

theorem step?_consumer (h : s.step? (.consumer i) = some s') :
    ∃ c c' b handled, s.consumers[i]? = some c ∧
      c.step? s.cancelled s.buffer = some (c', b, handled) ∧
      s' = { s with
        consumers := s.consumers.set i c', buffer := b,
        consumed := s.consumed ++ handled.toList } := by
  cases hc : s.consumers[i]? with
  | none => simp [step?, hc] at h
  | some c =>
    cases hstep : c.step? s.cancelled s.buffer with
    | none => simp [step?, hc, hstep] at h
    | some r =>
      obtain ⟨c', b, handled⟩ := r
      simp only [step?, hc, hstep, Option.bind_eq_bind, Option.bind_some, Option.pure_def,
        Option.some.injEq] at h
      exact ⟨c, c', b, handled, rfl, hstep, h.symm⟩

/-- The items that the producers hold or were given back. -/
def heldByProducers (s : ProducerConsumerSystem α) : List α :=
  s.producers.flatMap (fun p => p.phase.held)

/-- The items that the consumers are about to hand to their functions. -/
def heldByConsumers (s : ProducerConsumerSystem α) : List α :=
  s.consumers.flatMap ConsumerPhase.held

end ProducerConsumerSystem

namespace Account

/-- What a step does, with what is seen of it: items pass through the producers, the buffer and the
consumers, through each of them and through all together. -/
structure Passes (s s' : ProducerConsumerSystem α) (events : List (Event α)) : Prop where
  holds : s'.buffer.Holds s'.buffer.items
  capacity : s'.buffer.capacity = s.buffer.capacity
  buffer : s.buffer.items ++ itemsOf .entered events = itemsOf .removed events ++ s'.buffer.items
  producer : ∀ i, heldAt (fun p => p.phase.held) s.producers i ++ itemsBy .produced i events =
    itemsBy .entered i events ++ heldAt (fun p => p.phase.held) s'.producers i
  results : ∀ i, heldAt Producer.results s.producers i ++ itemsBy .produced i events =
    heldAt Producer.results s'.producers i
  returned : ∀ i, heldAt (fun p => p.phase.returned) s.producers i ++ itemsBy .returned i events =
    heldAt (fun p => p.phase.returned) s'.producers i
  consumer : ∀ j, heldAt ConsumerPhase.held s.consumers j ++ itemsBy .removed j events =
    itemsBy .handled j events ++ heldAt ConsumerPhase.held s'.consumers j
  producers : (s.heldByProducers ++ itemsOf .produced events) ~
    (itemsOf .entered events ++ s'.heldByProducers)
  consumers : (s.heldByConsumers ++ itemsOf .removed events) ~
    (itemsOf .handled events ++ s'.heldByConsumers)
  consumed : s'.consumed = s.consumed ++ itemsOf .handled events
  uncancelled : s'.cancelled = false → s.cancelled = false ∧ itemsOf .returned events = []
  idle : ∀ j, s'.consumers.length ≤ j → s.consumers.length ≤ j ∧ itemsBy .removed j events = []

variable {s s' : ProducerConsumerSystem α} {i : Nat}

theorem passes_producer (hs : s.buffer.Holds s.buffer.items)
    (h : s.step? (.producer i) = some s') : Passes s s' (observed s s' (.producer i)) := by
  obtain ⟨p, p', b, hp, hstep, rfl⟩ := ProducerConsumerSystem.step?_producer h
  obtain ⟨q, hq, hcapacity, hpass⟩ := Producer.step?_passes i hs hstep
  have hseen : observed s { s with producers := s.producers.set i p', buffer := b } (.producer i) =
      p.phase.events i p'.phase := by
    simp [observed, hp, getElem?_set_of_eq_some hp]
  have hitems : b.items = q := hq.items_eq
  rw [hseen]
  exact {
    holds := hitems.symm ▸ hq
    capacity := hcapacity
    buffer := by rw [hpass.buffer, hpass.removed_nil, hitems, List.nil_append]
    producer := fun k => by
      rw [itemsBy_of_loop hpass.loop, itemsBy_of_loop hpass.loop]
      exact heldAt_set_passes hp hpass.held k
    results := fun k => by
      have hresults : p.results ++ itemsOf .produced (p.phase.events i p'.phase) =
          [] ++ p'.results := hpass.results
      rw [itemsBy_of_loop hpass.loop, heldAt_set_passes hp hresults k, ite_self, List.nil_append]
    returned := fun k => by
      have hreturned : p.phase.returned ++ itemsOf .returned (p.phase.events i p'.phase) =
          [] ++ p'.phase.returned := hpass.returned
      rw [itemsBy_of_loop hpass.loop, heldAt_set_passes (f := fun p => p.phase.returned) hp
        hreturned k, ite_self, List.nil_append]
    consumer := fun j => by
      rw [itemsBy_of_loop hpass.loop, itemsBy_of_loop hpass.loop, hpass.removed_nil,
        hpass.handled_nil, ite_self, List.append_nil, List.nil_append]
    producers := flatMap_set_passes hp hpass.held
    consumers := by
      rw [hpass.removed_nil, hpass.handled_nil, List.append_nil, List.nil_append]
      exact List.Perm.refl _
    consumed := by rw [hpass.handled_nil, List.append_nil]
    uncancelled := fun hcancelled => ⟨hcancelled, hpass.returned_nil hcancelled⟩
    idle := fun j hj => by
      rw [itemsBy_of_loop hpass.loop, hpass.removed_nil, ite_self]
      exact ⟨hj, rfl⟩ }

theorem passes_consumer (hs : s.buffer.Holds s.buffer.items)
    (h : s.step? (.consumer i) = some s') : Passes s s' (observed s s' (.consumer i)) := by
  obtain ⟨c, c', b, handled, hc, hstep, rfl⟩ := ProducerConsumerSystem.step?_consumer h
  obtain ⟨q, hq, hcapacity, hpass⟩ := ConsumerPhase.step?_passes i hs hstep
  have hseen : observed s { s with
      consumers := s.consumers.set i c', buffer := b, consumed := s.consumed ++ handled.toList }
      (.consumer i) = c.events i c' := by
    simp [observed, hc, getElem?_set_of_eq_some hc]
  have hitems : b.items = q := hq.items_eq
  have hnone (passage : Passage) (k : Nat) (hnil : itemsOf passage (c.events i c') = []) :
      itemsBy passage k (c.events i c') = [] := by
    rw [itemsBy_of_loop hpass.loop, hnil, ite_self]
  rw [hseen]
  exact {
    holds := hitems.symm ▸ hq
    capacity := hcapacity
    buffer := by rw [hpass.entered_nil, List.append_nil, hitems, ← hpass.buffer]
    producer := fun k => by
      rw [hnone _ k hpass.produced_nil, hnone _ k hpass.entered_nil, List.append_nil,
        List.nil_append]
    results := fun k => by rw [hnone _ k hpass.produced_nil, List.append_nil]
    returned := fun k => by rw [hnone _ k hpass.returned_nil, List.append_nil]
    consumer := fun j => by
      rw [itemsBy_of_loop hpass.loop, itemsBy_of_loop hpass.loop]
      exact heldAt_set_passes hc hpass.held j
    producers := by
      rw [hpass.produced_nil, hpass.entered_nil, List.append_nil, List.nil_append]
      exact List.Perm.refl _
    consumers := flatMap_set_passes hc hpass.held
    consumed := by rw [hpass.handled]
    uncancelled := fun hcancelled => ⟨hcancelled, hpass.returned_nil⟩
    idle := fun j hj => by
      rw [List.length_set] at hj
      have hne : i ≠ j := Nat.ne_of_lt (Nat.lt_of_lt_of_le (lt_of_getElem?_eq_some hc) hj)
      rw [itemsBy_of_loop hpass.loop, if_neg hne]
      exact ⟨hj, rfl⟩ }

/-- A step in which no item moves. -/
theorem passes_nothing (hs : s.buffer.Holds s.buffer.items) (hbuffer : s'.buffer = s.buffer)
    (hproducers : ∀ i, heldAt (fun p => p.phase.held) s'.producers i =
      heldAt (fun p => p.phase.held) s.producers i)
    (hresults : ∀ i, heldAt Producer.results s'.producers i = heldAt Producer.results s.producers i)
    (hreturned : ∀ i, heldAt (fun p => p.phase.returned) s'.producers i =
      heldAt (fun p => p.phase.returned) s.producers i)
    (hconsumers : ∀ j, heldAt ConsumerPhase.held s'.consumers j =
      heldAt ConsumerPhase.held s.consumers j)
    (hheld : s'.heldByProducers = s.heldByProducers)
    (hheld' : s'.heldByConsumers = s.heldByConsumers)
    (hconsumed : s'.consumed = s.consumed)
    (hcancelled : s'.cancelled = false → s.cancelled = false)
    (hlength : s.consumers.length ≤ s'.consumers.length) : Passes s s' [] where
  holds := hbuffer ▸ hs
  capacity := by rw [hbuffer]
  buffer := by simp [hbuffer]
  producer i := by simp [hproducers]
  results i := by simp [hresults]
  returned i := by simp [hreturned]
  consumer j := by simp [hconsumers]
  producers := by simp [hheld]
  consumers := by simp [hheld']
  consumed := by simp [hconsumed]
  uncancelled h := ⟨hcancelled h, rfl⟩
  idle j hj := ⟨Nat.le_trans hlength hj, rfl⟩

/-- **Whatever is done with a system, items pass through it.** -/
theorem step?_passes {a a' : Account α} {act : Act α}
    (hs : a.system.buffer.Holds a.system.buffer.items) (h : a.step? act = some a') :
    ∃ events, a'.events = a.events ++ events ∧ Passes a.system a'.system events := by
  cases act with
  | startProducer result =>
    cases h
    refine ⟨[], (List.append_nil _).symm, ?_⟩
    refine passes_nothing hs rfl ?_ ?_ ?_ ?_ ?_ ?_ rfl id (Nat.le_refl _)
    · exact heldAt_append_of_nil rfl
    · exact heldAt_append_of_nil rfl
    · exact heldAt_append_of_nil rfl
    · exact fun _ => rfl
    · simp [ProducerConsumerSystem.heldByProducers, ProducerConsumerSystem.startProducer,
        Producer.start, ProducerPhase.held]
    · rfl
  | startConsumer =>
    cases h
    refine ⟨[], (List.append_nil _).symm, ?_⟩
    refine passes_nothing hs rfl ?_ ?_ ?_ ?_ ?_ ?_ rfl id ?_
    · exact fun _ => rfl
    · exact fun _ => rfl
    · exact fun _ => rfl
    · exact heldAt_append_of_nil rfl
    · rfl
    · simp [ProducerConsumerSystem.heldByConsumers, ProducerConsumerSystem.startConsumer,
        ConsumerPhase.held]
    · simp [ProducerConsumerSystem.startConsumer]
  | move m =>
    obtain ⟨s', hstep, rfl⟩ := Option.map_eq_some_iff.mp h
    refine ⟨_, rfl, ?_⟩
    cases m with
    | producer i => exact passes_producer hs hstep
    | consumer i => exact passes_consumer hs hstep
    | cancel =>
      cases hstep
      exact passes_nothing hs rfl (fun _ => rfl) (fun _ => rfl) (fun _ => rfl) (fun _ => rfl) rfl
        rfl rfl nofun (Nat.le_refl _)

end Account

/-! ## 5. What any steps do -/

namespace Account

/-- The journal and what is held are balanced: what each producer, the buffer and each consumer has
taken in is what it has given out and what it holds. -/
structure Balanced (capacity : Nat) (a : Account α) : Prop where
  holds : a.system.buffer.Holds a.system.buffer.items
  capacity : a.system.buffer.capacity = capacity
  buffer : itemsOf .entered a.events = itemsOf .removed a.events ++ a.system.buffer.items
  producer : ∀ i, itemsBy .produced i a.events =
    itemsBy .entered i a.events ++ heldAt (fun p => p.phase.held) a.system.producers i
  results : ∀ i, itemsBy .produced i a.events = heldAt Producer.results a.system.producers i
  returned : ∀ i, itemsBy .returned i a.events =
    heldAt (fun p => p.phase.returned) a.system.producers i
  consumer : ∀ j, itemsBy .removed j a.events =
    itemsBy .handled j a.events ++ heldAt ConsumerPhase.held a.system.consumers j
  producers : itemsOf .produced a.events ~ (itemsOf .entered a.events ++ a.system.heldByProducers)
  consumers : itemsOf .removed a.events ~ (itemsOf .handled a.events ++ a.system.heldByConsumers)
  consumed : a.system.consumed = itemsOf .handled a.events
  uncancelled : a.system.cancelled = false → itemsOf .returned a.events = []
  idle : ∀ j, a.system.consumers.length ≤ j → itemsBy .removed j a.events = []

/-- One step keeps the balance. -/
theorem Balanced.step {capacity : Nat} {a a' : Account α} {act : Act α} (h : a.Balanced capacity)
    (hstep : a.step? act = some a') : a'.Balanced capacity := by
  obtain ⟨events, hevents, hpass⟩ := step?_passes h.holds hstep
  exact {
    holds := hpass.holds
    capacity := hpass.capacity.trans h.capacity
    buffer := by
      rw [hevents, itemsOf_append, itemsOf_append]
      exact append_passes h.buffer hpass.buffer
    producer := fun i => by
      rw [hevents, itemsBy_append, itemsBy_append]
      exact append_passes (h.producer i) (hpass.producer i)
    results := fun i => by rw [hevents, itemsBy_append, h.results, hpass.results]
    returned := fun i => by rw [hevents, itemsBy_append, h.returned, hpass.returned]
    consumer := fun j => by
      rw [hevents, itemsBy_append, itemsBy_append]
      exact append_passes (h.consumer j) (hpass.consumer j)
    producers := by
      rw [hevents, itemsOf_append, itemsOf_append]
      exact append_passes_perm h.producers hpass.producers
    consumers := by
      rw [hevents, itemsOf_append, itemsOf_append]
      exact append_passes_perm h.consumers hpass.consumers
    consumed := by rw [hevents, itemsOf_append, hpass.consumed, h.consumed]
    uncancelled := fun hcancelled => by
      obtain ⟨hbefore, hnone⟩ := hpass.uncancelled hcancelled
      rw [hevents, itemsOf_append, h.uncancelled hbefore, hnone, List.append_nil]
    idle := fun j hj => by
      obtain ⟨hbefore, hnone⟩ := hpass.idle j hj
      rw [hevents, itemsBy_append, h.idle j hbefore, hnone, List.append_nil] }

/-- **Any steps keep the balance.** -/
theorem Balanced.reaches {capacity : Nat} {a a' : Account α} (h : a.Balanced capacity)
    (hreaches : Reaches step? a a') : a'.Balanced capacity :=
  hreaches.keeps (fun hbalanced hstep => hbalanced.step hstep) h

theorem balanced_start {capacity : Nat} (hpos : 0 < capacity) :
    (start ⟨BoundedBuffer.ofCapacity capacity, false, [], [], []⟩ : Account α).Balanced
      capacity := by
  have hholds : (BoundedBuffer.ofCapacity capacity : BoundedBuffer α).Holds [] :=
    BoundedBuffer.ofCapacity_holds hpos
  have hitems : (BoundedBuffer.ofCapacity capacity : BoundedBuffer α).items = [] := hholds.items_eq
  exact {
    holds := hitems.symm ▸ hholds
    capacity := by simp [start, BoundedBuffer.ofCapacity, BoundedBuffer.capacity]
    buffer := hitems.symm
    producer := fun _ => rfl
    results := fun _ => rfl
    returned := fun _ => rfl
    consumer := fun _ => rfl
    producers := List.Perm.refl _
    consumers := List.Perm.refl _
    consumed := rfl
    uncancelled := fun _ => rfl
    idle := fun _ _ => rfl }

end Account

/-! ## 6. What follows for a system -/

/-- What was done by one loop only was done by that loop. -/
theorem itemsOf_eq_itemsBy {passage : Passage} {i : Nat} {events : List (Event α)}
    (h : ∀ k, k ≠ i → itemsBy passage k events = []) :
    itemsOf passage events = itemsBy passage i events := by
  refine congrArg (List.map Event.item) (List.filter_congr fun e he => ?_)
  by_cases hpassage : e.passage = passage
  · have hloop : e.loop = i := by
      by_contra hne
      have hmem : e.item ∈ itemsBy passage e.loop events :=
        List.mem_map_of_mem (List.mem_filter.mpr ⟨he, by simp [hpassage]⟩)
      rw [h e.loop hne] at hmem
      exact absurd hmem List.not_mem_nil
    simp [hpassage, hloop]
  · simp [hpassage]

/-- A producer that was given an item back holds no other. -/
theorem ProducerPhase.held_of_returned (phase : ProducerPhase α) :
    phase.returned = [] ∨ ∃ item, phase.returned = [item] ∧ phase.held = [item] ∧
      phase = .finished (some item) := by
  cases phase with
  | checking | calling | holding => exact Or.inl rfl
  | finished returned =>
    cases returned with
    | none => exact Or.inl rfl
    | some item => exact Or.inr ⟨item, rfl, rfl, rfl⟩

namespace Account

/-- Nothing is lost, and order is kept. -/
structure Conserved (capacity : Nat) (a : Account α) : Prop where
  /-- The items that were produced: those that were handled, those that a consumer is about to
  handle, those in the buffer, and those that a producer holds or was given back. -/
  items : itemsOf .produced a.events ~ (a.system.consumed ++ a.system.heldByConsumers ++
    a.system.buffer.items ++ a.system.heldByProducers)
  handled : a.system.consumed = itemsOf .handled a.events
  /-- The items are removed from the buffer in the order in which they entered it. -/
  fifo : itemsOf .entered a.events = itemsOf .removed a.events ++ a.system.buffer.items
  /-- The items of a producer are what its calls returned, and enter in that order. -/
  own : ∀ i p, a.system.producers[i]? = some p →
    itemsBy .produced i a.events = p.results ∧
      itemsBy .produced i a.events = itemsBy .entered i a.events ++ p.phase.held
  unreturned : a.system.cancelled = false → itemsOf .returned a.events = []
  /-- A producer is given back one item at most, the last that it produced, and has ended then. -/
  last : ∀ i, itemsBy .returned i a.events = [] ∨
    ∃ item p, itemsBy .returned i a.events = [item] ∧
      itemsBy .produced i a.events = itemsBy .entered i a.events ++ [item] ∧
      a.system.producers[i]? = some p ∧ p.phase = .finished (some item)
  bounded : a.system.buffer.count ≤ capacity ∧
    a.system.buffer.items.length = a.system.buffer.count
  /-- One consumer handles the items of one producer in the order in which they were produced. -/
  single : a.system.producers.length = 1 → a.system.consumers.length = 1 →
    a.system.consumed <+: itemsOf .produced a.events

variable {capacity : Nat} {a : Account α}

theorem Balanced.items (h : a.Balanced capacity) :
    itemsOf .produced a.events ~ (a.system.consumed ++ a.system.heldByConsumers ++
      a.system.buffer.items ++ a.system.heldByProducers) := by
  calc
    itemsOf .produced a.events
        ~ itemsOf .entered a.events ++ a.system.heldByProducers := h.producers
    _ = itemsOf .removed a.events ++ a.system.buffer.items ++ a.system.heldByProducers := by
        rw [h.buffer]
    _ ~ itemsOf .handled a.events ++ a.system.heldByConsumers ++ a.system.buffer.items ++
          a.system.heldByProducers := (h.consumers.append_right _).append_right _
    _ = _ := by rw [h.consumed]

theorem Balanced.last (h : a.Balanced capacity) (i : Nat) :
    itemsBy .returned i a.events = [] ∨
      ∃ item p, itemsBy .returned i a.events = [item] ∧
        itemsBy .produced i a.events = itemsBy .entered i a.events ++ [item] ∧
        a.system.producers[i]? = some p ∧ p.phase = .finished (some item) := by
  rw [h.returned, h.producer]
  cases hp : a.system.producers[i]? with
  | none =>
    refine Or.inl ?_
    rw [heldAt, hp]
    rfl
  | some p =>
    rw [heldAt_of_eq_some hp, heldAt_of_eq_some hp]
    rcases p.phase.held_of_returned with hnone | ⟨item, hret, hheld, hend⟩
    · exact Or.inl hnone
    · exact Or.inr ⟨item, p, hret, by rw [hheld], rfl, hend⟩

/-- With one producer, all items are its own, and with one consumer that one removes them all. -/
theorem Balanced.single (h : a.Balanced capacity) (hproducers : a.system.producers.length = 1)
    (hconsumers : a.system.consumers.length = 1) :
    a.system.consumed <+: itemsOf .produced a.events := by
  have hproduced : ∀ k, k ≠ 0 → itemsBy .produced k a.events = [] := by
    intro k hk
    rw [h.results, heldAt_of_le (by omega)]
  have hentered : ∀ k, k ≠ 0 → itemsBy .entered k a.events = [] := by
    intro k hk
    have hall := h.producer k
    rw [hproduced k hk] at hall
    exact (List.append_eq_nil_iff.mp hall.symm).1
  have hremoved : ∀ k, k ≠ 0 → itemsBy .removed k a.events = [] := by
    intro k hk
    exact h.idle k (by omega)
  have hhandled : ∀ k, k ≠ 0 → itemsBy .handled k a.events = [] := by
    intro k hk
    have hall := h.consumer k
    rw [hremoved k hk] at hall
    exact (List.append_eq_nil_iff.mp hall.symm).1
  rw [h.consumed, itemsOf_eq_itemsBy hhandled, itemsOf_eq_itemsBy hproduced, h.producer,
    ← itemsOf_eq_itemsBy hentered, h.buffer, itemsOf_eq_itemsBy hremoved, h.consumer]
  simp only [List.append_assoc]
  exact List.prefix_append _ _

theorem Balanced.conserved (h : a.Balanced capacity) : a.Conserved capacity where
  items := h.items
  handled := h.consumed
  fifo := h.buffer
  own i p hp := by
    refine ⟨?_, ?_⟩
    · rw [h.results, heldAt_of_eq_some hp]
    · rw [h.producer, heldAt_of_eq_some hp]
  unreturned := h.uncancelled
  last := h.last
  bounded := ⟨h.capacity ▸ h.holds.count_le, h.holds.count_eq.symm⟩
  single := h.single

end Account

/-- **A system of producers and consumers loses nothing and keeps order.** Whatever loops are
started and whenever the token is cancelled, after any moves in any order every item that was
produced is in one place, the buffer hands the items on as they came, an item is given back only
after the token was cancelled and only as the last of its producer, and the buffer holds no more
than its capacity. -/
theorem system_conserves (capacity : Nat) (hpos : 0 < capacity) :
    ∃ s : ProducerConsumerSystem α, ProducerConsumerSystem.create capacity = .ok s ∧
      ∀ a : Account α, Reaches Account.step? (Account.start s) a → a.Conserved capacity := by
  refine ⟨⟨BoundedBuffer.ofCapacity capacity, false, [], [], []⟩, ?_, fun a hreaches => ?_⟩
  · simp [ProducerConsumerSystem.create, BoundedBuffer.create, hpos, Except.map]
  · exact ((Account.balanced_start hpos).reaches hreaches).conserved

/-- One item is with the consumer, one in the buffer, and one was given back. -/
theorem system_conserves_everywhere :
    ∃ s : ProducerConsumerSystem Nat, ProducerConsumerSystem.create 1 = .ok s ∧
      ∃ a : Account Nat, Reaches Account.step? (Account.start s) a ∧
        itemsOf .produced a.events = [0, 1, 2] ∧ a.system.heldByConsumers = [0] ∧
        a.system.buffer.items = [1] ∧ itemsOf .returned a.events = [2] ∧ a.Conserved 1 := by
  obtain ⟨s, hs, hall⟩ := system_conserves (α := Nat) 1 (by decide)
  cases hs
  have hrun : ∃ a : Account Nat,
      [.startProducer some, .startConsumer, .move (.producer 0), .move (.producer 0),
        .move (.producer 0), .move (.producer 0), .move (.producer 0), .move (.consumer 0),
        .move (.consumer 0), .move (.producer 0), .move (.producer 0), .move (.producer 0),
        .move .cancel, .move (.producer 0)].foldlM Account.step?
        (Account.start ⟨BoundedBuffer.ofCapacity 1, false, [], [], []⟩) = some a ∧
      itemsOf .produced a.events = [0, 1, 2] ∧ a.system.heldByConsumers = [0] ∧
        a.system.buffer.items = [1] ∧ itemsOf .returned a.events = [2] :=
    ⟨_, rfl, rfl, rfl, rfl, rfl⟩
  obtain ⟨a, hmoves, hproduced, hheld, hitems, hreturned⟩ := hrun
  have hreaches := reaches_of_foldlM hmoves
  exact ⟨_, rfl, a, hreaches, hproduced, hheld, hitems, hreturned, hall a hreaches⟩

end StoreQL.Concurrency
