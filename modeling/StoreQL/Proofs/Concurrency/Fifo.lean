/-
# The ring is a queue

A bounded buffer keeps its items in a ring of slots, and what it does is what a queue of bounded
length does. `BoundedBuffer.Holds b q` says that the ring holds the items `q`: the slot `k` places
after the head holds the item `k` of `q`, and every other slot is empty.

Each operation is one atomic step, `BoundedBuffer.perform`, which is `none` where a thread has to
wait. What threads can bring about under any interleaving is then what some sequence of steps leads
to, and `History` keeps, beside the buffer, the items that were accepted and those that were taken
out. `queuePerform` says what the same operation is on a queue.

Main statements: `Holds.push` and `Holds.dropHead`, what the two moves of the ring do to the items;
`Holds.perform`, that an operation on the ring is the operation on the queue; `History.Fifo.reaches`,
that this goes on for ever; and `boundedBuffer_fifo`, which says what follows for every reachable
buffer.
-/
import Mathlib.Data.List.Basic
import Mathlib.Data.Nat.ModEq
import StoreQL.Concurrency.Buffer
import StoreQL.Concurrency.Schedule
import StoreQL.Container.Sequence

namespace StoreQL.Concurrency

variable {α : Type}

/-! ## 1. Operations as steps -/

/-- An operation on a buffer. One that has a token says whether the token is cancelled. -/
inductive Operation (α : Type) where
  | tryProduce (item : α)
  | produce (item : α)
  | produceUntil (cancelled : Bool) (item : α)
  | tryConsume
  | consume
  | consumeUntil (cancelled : Bool)
deriving Repr

/-- What an operation answers. -/
inductive Answer (α : Type) where
  | stored
  | returned (item : α)
  | taken (item : α)
  | nothing
deriving Repr

namespace Operation

/-- The item that is to be put in. -/
def item? : Operation α → Option α
  | .tryProduce item | .produce item | .produceUntil _ item => some item
  | .tryConsume | .consume | .consumeUntil _ => none

/-- What the operation answers where it cannot be done, unless it has to wait. -/
def refusal? : Operation α → Option (Answer α)
  | .tryProduce item => some (.returned item)
  | .produce _ => none
  | .produceUntil cancelled item => if cancelled then some (.returned item) else none
  | .tryConsume => some .nothing
  | .consume => none
  | .consumeUntil cancelled => if cancelled then some .nothing else none

end Operation

/-- What comes of an item that is to be put into the buffer `b`. -/
def Produced.outcome (b : BoundedBuffer α) : Produced α → Option (Answer α × BoundedBuffer α)
  | .stored b' => some (.stored, b')
  | .returned item => some (.returned item, b)
  | .waits => none

/-- What comes of taking an item out of the buffer `b`. -/
def Consumed.outcome (b : BoundedBuffer α) : Consumed α → Option (Answer α × BoundedBuffer α)
  | .taken item b' => some (.taken item, b')
  | .nothing => some (.nothing, b)
  | .waits => none

/-- The step of an operation: its answer and the buffer afterwards, or none while it waits. -/
def BoundedBuffer.perform (b : BoundedBuffer α) :
    Operation α → Option (Answer α × BoundedBuffer α)
  | .tryProduce item => (b.tryProduce item).outcome b
  | .produce item => (b.produce item).outcome b
  | .produceUntil cancelled item => (b.produceUntil cancelled item).outcome b
  | .tryConsume => b.tryConsume.outcome b
  | .consume => b.consume.outcome b
  | .consumeUntil cancelled => (b.consumeUntil cancelled).outcome b

/-- The same operation on a queue of at most `capacity` items. -/
def queuePerform (capacity : Nat) (q : Queue α) (op : Operation α) :
    Option (Answer α × Queue α) :=
  match op.item? with
  | some item =>
    if q.size < capacity then some (.stored, q.enqueue item)
    else op.refusal?.map (fun answer => (answer, q))
  | none =>
    match q.dequeue with
    | .ok (item, q') => some (.taken item, q')
    | .error _ => op.refusal?.map (fun answer => (answer, q))

/-- Whether the answer is that the operation was not done. -/
def Answer.isRefusal : Answer α → Bool
  | .returned _ | .nothing => true
  | .stored | .taken _ => false

/-- The item that an operation has put in. -/
def Operation.putIn (op : Operation α) : Answer α → List α
  | .stored => op.item?.toList
  | .returned _ | .taken _ | .nothing => []

/-- The item that an operation has taken out. -/
def Answer.takenOut : Answer α → List α
  | .taken item => [item]
  | .stored | .returned _ | .nothing => []

/-- A buffer, the items that were accepted so far and those that were taken out, in order. -/
structure History (α : Type) where
  buffer : BoundedBuffer α
  accepted : List α
  removed : List α

namespace History

/-- Before the first operation. -/
def start (b : BoundedBuffer α) : History α := ⟨b, [], []⟩

/-- Make the step of an operation, unless it waits. -/
def step? (h : History α) (op : Operation α) : Option (History α) :=
  (h.buffer.perform op).map fun (answer, b) =>
    ⟨b, h.accepted ++ op.putIn answer, h.removed ++ answer.takenOut⟩

end History

/-! ## 2. Refusals -/

namespace Operation

/-- What an operation answers where it cannot be done: nothing is put in, nothing is taken out, and
an item that is given back is the one that came with it. -/
theorem refusal_idle {op : Operation α} {answer : Answer α} (h : op.refusal? = some answer) :
    answer.isRefusal = true ∧ op.putIn answer = [] ∧ answer.takenOut = [] ∧
      (∀ item, answer = .returned item → op.item? = some item) ∧
      (answer = .nothing → op.item? = none) := by
  cases op with
  | produce | consume => cases h
  | tryProduce | tryConsume =>
    cases h
    simp [Answer.isRefusal, putIn, Answer.takenOut, item?]
  | produceUntil cancelled | consumeUntil cancelled =>
    cases cancelled <;> cases h
    simp [Answer.isRefusal, putIn, Answer.takenOut, item?]

end Operation

/-! ## 3. The items in the ring -/

namespace BoundedBuffer

/-- The places after the head are different slots, up to a full turn. -/
theorem add_mod_inj {head capacity i j : Nat} (hi : i < capacity) (hj : j < capacity)
    (h : (head + i) % capacity = (head + j) % capacity) : i = j := by
  have hmod : i % capacity = j % capacity := Nat.ModEq.add_left_cancel' head h
  rwa [Nat.mod_eq_of_lt hi, Nat.mod_eq_of_lt hj] at hmod

theorem filterMap_getElem?_range (q : List α) :
    (List.range q.length).filterMap (fun k => q[k]?) = q := by
  induction q with
  | nil => rfl
  | cons x q ih =>
    simp [List.range_succ_eq_map, List.filterMap_map, ih]

/-- The ring holds the items `q`, in slots that follow one another from the head on, and nothing
else. -/
structure Holds (b : BoundedBuffer α) (q : List α) : Prop where
  head_lt : b.head < b.capacity
  count_eq : b.count = q.length
  count_le : b.count ≤ b.capacity
  occupied : ∀ k (hk : k < q.length), b.slots[b.slotAt k]? = some (some q[k])
  free : ∀ i < b.capacity, (∀ k < q.length, i ≠ b.slotAt k) → b.slots[i]? = some none

variable {b : BoundedBuffer α} {q : List α} {x : α}

theorem Holds.slotAt_lt (h : b.Holds q) (k : Nat) : b.slotAt k < b.capacity :=
  Nat.mod_lt _ (Nat.zero_lt_of_lt h.head_lt)

theorem Holds.slotAt_zero (h : b.Holds q) : b.slotAt 0 = b.head := by
  rw [slotAt, Nat.add_zero, Nat.mod_eq_of_lt h.head_lt]

theorem Holds.slotAt_ne (h : b.Holds q) {i j : Nat} (hi : i < q.length) (hj : j < b.capacity)
    (hne : i ≠ j) : b.slotAt i ≠ b.slotAt j := by
  have hle : q.length ≤ b.capacity := h.count_eq ▸ h.count_le
  exact fun heq => hne (add_mod_inj (Nat.lt_of_lt_of_le hi hle) hj heq)

/-- The items that are listed are the items that are held. -/
theorem Holds.items_eq (h : b.Holds q) : b.items = q := by
  have hitem : ∀ k ∈ List.range q.length, b.slots[b.slotAt k]?.join = q[k]? := by
    intro k hk
    have hlt : k < q.length := List.mem_range.mp hk
    rw [h.occupied k hlt, List.getElem?_eq_getElem hlt]
    rfl
  rw [items, h.count_eq, List.filterMap_congr hitem, filterMap_getElem?_range]

/-- The slot that is written next is empty, so no item is written over. -/
theorem Holds.next_free (h : b.Holds q) (hroom : b.count < b.capacity) :
    b.slots[b.slotAt b.count]? = some none := by
  refine h.free _ (h.slotAt_lt _) fun k hk heq => ?_
  exact h.slotAt_ne hk hroom (Nat.ne_of_lt (h.count_eq ▸ hk)) heq.symm

theorem ofCapacity_holds {capacity : Nat} (hpos : 0 < capacity) :
    (ofCapacity capacity : BoundedBuffer α).Holds [] where
  head_lt := by simpa [ofCapacity, BoundedBuffer.capacity] using hpos
  count_eq := rfl
  count_le := Nat.zero_le _
  occupied k hk := absurd hk (Nat.not_lt_zero k)
  free i hi _ := by
    simp only [ofCapacity, BoundedBuffer.capacity, Array.size_replicate] at hi
    simp [ofCapacity, hi]

@[simp] theorem capacity_push (b : BoundedBuffer α) (x : α) : (b.push x).capacity = b.capacity := by
  simp [push, capacity]

@[simp] theorem slotAt_push (b : BoundedBuffer α) (x : α) (k : Nat) :
    (b.push x).slotAt k = b.slotAt k := by
  simp [slotAt, push, capacity]

/-- What stands in the slots after a push. -/
theorem Holds.slots_push (h : b.Holds q) (x : α) (i : Nat) :
    (b.push x).slots[i]? = if i = b.slotAt b.count then some (some x) else b.slots[i]? := by
  have hlt : b.slotAt b.count < b.slots.size := h.slotAt_lt _
  simp only [push, Array.getElem?_setIfInBounds, hlt, if_true, eq_comm]

/-- **A push puts the item behind the others.** -/
theorem Holds.push (h : b.Holds q) (hroom : b.count < b.capacity) (x : α) :
    (b.push x).Holds (q ++ [x]) where
  head_lt := by
    rw [capacity_push]
    exact h.head_lt
  count_eq := by simp [BoundedBuffer.push, h.count_eq]
  count_le := by
    rw [capacity_push]
    exact hroom
  occupied k hk := by
    rw [slotAt_push, h.slots_push]
    by_cases hlast : k = q.length
    · subst hlast
      simp [h.count_eq]
    · have hk' : k < q.length := by
        rw [List.length_append, List.length_singleton] at hk
        omega
      rw [if_neg (h.slotAt_ne hk' hroom (h.count_eq ▸ hlast)), h.occupied k hk',
        List.getElem_append_left hk']
  free i hi hfree := by
    simp only [capacity_push, slotAt_push, List.length_append, List.length_singleton] at hi hfree
    rw [h.slots_push, if_neg (h.count_eq ▸ hfree _ (Nat.lt_succ_self _))]
    exact h.free i hi fun k hk => hfree k (Nat.lt_succ_of_lt hk)

/-- The buffer without the item at the head. -/
def dropHead (b : BoundedBuffer α) : BoundedBuffer α :=
  ⟨b.slots.setIfInBounds b.head none, b.slotAt 1, b.count - 1⟩

/-- The places after the new head are those after the old one, one further on. -/
theorem slotAt_dropHead (b : BoundedBuffer α) (k : Nat) :
    b.dropHead.slotAt k = b.slotAt (k + 1) := by
  simp [slotAt, dropHead, capacity, Nat.add_assoc, Nat.add_comm 1 k]

theorem Holds.slots_dropHead (h : b.Holds q) (i : Nat) :
    b.dropHead.slots[i]? = if i = b.head then some none else b.slots[i]? := by
  have hlt : b.head < b.slots.size := h.head_lt
  simp only [dropHead, Array.getElem?_setIfInBounds, hlt, if_true, eq_comm]

theorem capacity_dropHead (b : BoundedBuffer α) : b.dropHead.capacity = b.capacity := by
  simp [dropHead, capacity]

theorem Holds.dropHead (h : b.Holds (x :: q)) : b.dropHead.Holds q where
  head_lt := by
    rw [capacity_dropHead]
    exact h.slotAt_lt 1
  count_eq := by simp [BoundedBuffer.dropHead, h.count_eq]
  count_le := by
    rw [capacity_dropHead]
    exact Nat.le_trans (Nat.sub_le _ _) h.count_le
  occupied k hk := by
    have hk' : k + 1 < (x :: q).length := Nat.succ_lt_succ hk
    have hpos : 0 < b.capacity := Nat.zero_lt_of_lt h.head_lt
    have hne : b.slotAt (k + 1) ≠ b.head :=
      h.slotAt_zero ▸ h.slotAt_ne hk' hpos (Nat.succ_ne_zero k)
    rw [slotAt_dropHead, h.slots_dropHead, if_neg hne, h.occupied (k + 1) hk']
    rfl
  free i hi hfree := by
    rw [capacity_dropHead] at hi
    rw [h.slots_dropHead]
    split
    · rfl
    · rename_i hne
      refine h.free i hi fun k hk => ?_
      cases k with
      | zero => rwa [h.slotAt_zero]
      | succ k => exact slotAt_dropHead b k ▸ hfree k (Nat.lt_of_succ_lt_succ hk)

/-- **A pop takes the first item out.** -/
theorem Holds.pop_cons (h : b.Holds (x :: q)) : b.pop = (some x, b.dropHead) := by
  have hcount : b.count ≠ 0 := by
    rw [h.count_eq]
    exact Nat.succ_ne_zero _
  have hitem := h.occupied 0 (Nat.succ_pos _)
  rw [h.slotAt_zero] at hitem
  rw [pop, if_neg hcount, hitem]
  rfl

theorem Holds.pop_nil (h : b.Holds []) : b.pop = (none, b) :=
  if_pos h.count_eq

/-! ## 4. Operations on the ring and on the queue -/

theorem isFull_iff : b.isFull = true ↔ b.count = b.capacity := beq_iff_eq

/-- The three ways of putting an item in differ in what is done when there is no room. -/
theorem outcome_ifFull (b : BoundedBuffer α) (x : α) (otherwise : Produced α) :
    (if b.isFull then otherwise else .stored (b.push x)).outcome b =
      if b.count = b.capacity then otherwise.outcome b else some (.stored, b.push x) := by
  simp only [isFull_iff]
  split <;> rfl

/-- The three ways of taking an item out differ in what is done when there is none. -/
theorem outcome_consumeOr (b : BoundedBuffer α) (otherwise : Consumed α) :
    (b.consumeOr otherwise).outcome b =
      match b.pop with
      | (some item, b') => some (.taken item, b')
      | (none, _) => otherwise.outcome b := by
  unfold consumeOr
  rcases b.pop with ⟨_ | item, b'⟩ <;> rfl

/-- What is put in is stored if there is room, and refused or kept waiting if there is none. -/
theorem perform_put {op : Operation α} (hop : op.item? = some x) :
    b.perform op =
      if b.count = b.capacity then op.refusal?.map (fun answer => (answer, b))
      else some (.stored, b.push x) := by
  cases op with
  | tryProduce item =>
    cases hop
    exact outcome_ifFull b x _
  | produce item =>
    cases hop
    exact outcome_ifFull b x _
  | produceUntil cancelled item =>
    cases hop
    cases cancelled <;> exact outcome_ifFull b x _
  | tryConsume | consume | consumeUntil => cases hop

/-- What is at the head is taken out, if there is something. -/
theorem perform_get {op : Operation α} (hop : op.item? = none) :
    b.perform op =
      match b.pop with
      | (some item, b') => some (.taken item, b')
      | (none, _) => op.refusal?.map (fun answer => (answer, b)) := by
  cases op with
  | tryProduce | produce | produceUntil => cases hop
  | tryConsume | consume => exact outcome_consumeOr b _
  | consumeUntil cancelled => cases cancelled <;> exact outcome_consumeOr b _

/-- The ring is full where the queue has no room. -/
theorem Holds.count_eq_capacity_iff (h : b.Holds q) :
    b.count = b.capacity ↔ ¬ (Queue.mk q).size < b.capacity := by
  have hle := h.count_le
  rw [h.count_eq] at hle ⊢
  show _ ↔ ¬ q.length < b.capacity
  omega

/-- The step on the ring and the step on the queue: both wait, or both give the same answer and
leave the same items. -/
def Matches (capacity : Nat) (r : Answer α × BoundedBuffer α) (s : Answer α × Queue α) : Prop :=
  r.1 = s.1 ∧ r.2.Holds s.2.items ∧ r.2.capacity = capacity

/-- **An operation on the ring is the operation on the queue.** -/
theorem Holds.perform (h : b.Holds q) (op : Operation α) :
    Option.Rel (Matches b.capacity) (b.perform op) (queuePerform b.capacity ⟨q⟩ op) := by
  have hrefused : Option.Rel (Matches b.capacity) (op.refusal?.map fun answer => (answer, b))
      (op.refusal?.map fun answer => (answer, ⟨q⟩)) := by
    cases op.refusal? with
    | none => exact .none
    | some answer => exact .some ⟨rfl, h, rfl⟩
  cases hop : op.item? with
  | some item =>
    rw [perform_put hop, queuePerform, hop]
    simp only [h.count_eq_capacity_iff]
    by_cases hroom : (Queue.mk q).size < b.capacity
    · rw [if_neg (not_not_intro hroom), if_pos hroom]
      exact .some ⟨rfl, h.push (h.count_eq ▸ hroom) item, capacity_push b item⟩
    · rw [if_pos hroom, if_neg hroom]
      exact hrefused
  | none =>
    rw [perform_get hop, queuePerform, hop]
    cases q with
    | nil =>
      rw [h.pop_nil]
      exact hrefused
    | cons x q =>
      rw [h.pop_cons]
      exact .some ⟨rfl, h.dropHead, capacity_dropHead b⟩

theorem Holds.perform_eq_some (h : b.Holds q) {op : Operation α} {answer : Answer α}
    {b' : BoundedBuffer α} (hperform : b.perform op = some (answer, b')) :
    ∃ q', queuePerform b.capacity ⟨q⟩ op = some (answer, q') ∧ b'.Holds q'.items ∧
      b'.capacity = b.capacity := by
  have hmatch := h.perform op
  rw [hperform] at hmatch
  generalize hqueue : queuePerform b.capacity ⟨q⟩ op = s at hmatch
  cases hmatch with
  | @some _ s hmatch =>
    obtain ⟨rfl, hholds, hcapacity⟩ := hmatch
    exact ⟨s.2, rfl, hholds, hcapacity⟩

/-- To the items in the ring, an operation does what it does to the queue of them. -/
theorem Holds.perform_items (h : b.Holds q) (op : Operation α) :
    (b.perform op).map (fun (answer, b') => (answer, Queue.mk b'.items)) =
      queuePerform b.capacity ⟨b.items⟩ op := by
  rw [h.items_eq]
  have hmatch := h.perform op
  generalize b.perform op = r at hmatch
  generalize queuePerform b.capacity ⟨q⟩ op = s at hmatch
  cases hmatch with
  | none => rfl
  | @some r s hmatch =>
    obtain ⟨hanswer, hholds, -⟩ := hmatch
    show some (r.1, Queue.mk r.2.items) = some s
    rw [hanswer, hholds.items_eq]

/-! ## 5. Operations that cannot be done -/

/-- There is no room for the item, or no item to take. -/
def Blocks (b : BoundedBuffer α) (op : Operation α) : Prop :=
  if op.item?.isSome then b.count = b.capacity else b.count = 0

/-- The operation ends without having been done. -/
def Fails (b : BoundedBuffer α) (op : Operation α) : Prop :=
  ∃ answer b', b.perform op = some (answer, b') ∧ answer.isRefusal = true

theorem Holds.perform_of_blocks (h : b.Holds q) {op : Operation α} (hblocks : b.Blocks op) :
    b.perform op = op.refusal?.map (fun answer => (answer, b)) := by
  cases hop : op.item? with
  | some item =>
    have hfull : b.count = b.capacity := by simpa [Blocks, hop] using hblocks
    rw [perform_put hop, if_pos hfull]
  | none =>
    have hcount : b.count = 0 := by simpa [Blocks, hop] using hblocks
    have hnil : q = [] := List.eq_nil_of_length_eq_zero (h.count_eq.symm.trans hcount)
    subst hnil
    rw [perform_get hop, h.pop_nil]

theorem Holds.perform_of_not_blocks (h : b.Holds q) {op : Operation α} (hblocks : ¬ b.Blocks op) :
    ∃ answer b', b.perform op = some (answer, b') ∧ answer.isRefusal = false := by
  cases hop : op.item? with
  | some item =>
    have hroom : b.count ≠ b.capacity := by simpa [Blocks, hop] using hblocks
    rw [perform_put hop, if_neg hroom]
    exact ⟨_, _, rfl, rfl⟩
  | none =>
    have hcount : b.count ≠ 0 := by simpa [Blocks, hop] using hblocks
    cases q with
    | nil => exact absurd h.count_eq hcount
    | cons x q =>
      rw [perform_get hop, h.pop_cons]
      exact ⟨_, _, rfl, rfl⟩

/-- An operation fails where it cannot be done and does not wait. -/
theorem Holds.fails_iff (h : b.Holds q) (op : Operation α) :
    b.Fails op ↔ b.Blocks op ∧ op.refusal?.isSome = true := by
  constructor
  · rintro ⟨answer, b', hperform, hrefusal⟩
    by_cases hblocks : b.Blocks op
    · rw [h.perform_of_blocks hblocks] at hperform
      obtain ⟨_, hsome, -⟩ := Option.map_eq_some_iff.mp hperform
      exact ⟨hblocks, Option.isSome_iff_exists.mpr ⟨_, hsome⟩⟩
    · obtain ⟨answer', b'', hdone, hdone'⟩ := h.perform_of_not_blocks hblocks
      cases hperform.symm.trans hdone
      cases hrefusal.symm.trans hdone'
  · rintro ⟨hblocks, hsome⟩
    obtain ⟨answer, hsome⟩ := Option.isSome_iff_exists.mp hsome
    refine ⟨answer, b, ?_, (Operation.refusal_idle hsome).1⟩
    rw [h.perform_of_blocks hblocks, hsome]
    rfl

/-- An operation waits where it cannot be done and does not fail. -/
theorem Holds.waits_iff (h : b.Holds q) (op : Operation α) :
    b.perform op = none ↔ b.Blocks op ∧ op.refusal? = none := by
  by_cases hblocks : b.Blocks op
  · simp [h.perform_of_blocks hblocks, hblocks]
  · obtain ⟨answer, b', hdone, -⟩ := h.perform_of_not_blocks hblocks
    simp [hdone, hblocks]

/-- An operation that fails leaves the buffer as it was, and answers with its own item. -/
theorem Holds.perform_of_refusal (h : b.Holds q) {op : Operation α} {answer : Answer α}
    {b' : BoundedBuffer α} (hperform : b.perform op = some (answer, b'))
    (hrefusal : answer.isRefusal = true) : b' = b ∧ op.refusal? = some answer := by
  obtain ⟨hblocks, -⟩ := (h.fails_iff op).mp ⟨answer, b', hperform, hrefusal⟩
  rw [h.perform_of_blocks hblocks] at hperform
  obtain ⟨_, hsome, heq⟩ := Option.map_eq_some_iff.mp hperform
  cases heq
  exact ⟨rfl, hsome⟩

end BoundedBuffer

/-! ## 6. Histories -/

/-- A queue loses nothing and invents nothing. -/
theorem queuePerform_conserves {capacity : Nat} {q q' : Queue α} {op : Operation α}
    {answer : Answer α} (h : queuePerform capacity q op = some (answer, q')) :
    q.items ++ op.putIn answer = answer.takenOut ++ q'.items := by
  have hrefused (hmap : op.refusal?.map (fun answer => (answer, q)) = some (answer, q')) :
      q.items ++ op.putIn answer = answer.takenOut ++ q'.items := by
    obtain ⟨_, hsome, heq⟩ := Option.map_eq_some_iff.mp hmap
    cases heq
    obtain ⟨-, hin, hout, -, -⟩ := Operation.refusal_idle hsome
    rw [hin, hout, List.append_nil, List.nil_append]
  unfold queuePerform at h
  cases hop : op.item? with
  | some item =>
    simp only [hop] at h
    split at h
    · cases h
      simp [Operation.putIn, Answer.takenOut, hop, Queue.enqueue]
    · exact hrefused h
  | none =>
    obtain ⟨items⟩ := q
    simp only [hop] at h
    cases items with
    | nil => exact hrefused h
    | cons x items =>
      cases h
      simp [Operation.putIn, Answer.takenOut]

/-- What is true of a buffer of a given capacity after any operations: the items that were taken out
and those that are in the ring are the items that were accepted. -/
def History.Fifo (capacity : Nat) (h : History α) : Prop :=
  ∃ q, h.buffer.Holds q ∧ h.buffer.capacity = capacity ∧ h.removed ++ q = h.accepted

/-- One operation keeps it so. -/
theorem History.Fifo.step {capacity : Nat} {h h' : History α} {op : Operation α}
    (hfifo : h.Fifo capacity) (hstep : h.step? op = some h') : h'.Fifo capacity := by
  obtain ⟨q, hholds, rfl, hitems⟩ := hfifo
  obtain ⟨⟨answer, b⟩, hperform, rfl⟩ := Option.map_eq_some_iff.mp hstep
  obtain ⟨q', hqueue, hholds', hcapacity⟩ := hholds.perform_eq_some hperform
  have hconserves : q ++ op.putIn answer = answer.takenOut ++ q'.items :=
    queuePerform_conserves hqueue
  refine ⟨q'.items, hholds', hcapacity, ?_⟩
  calc
    (h.removed ++ answer.takenOut) ++ q'.items
        = h.removed ++ (q ++ op.putIn answer) := by rw [List.append_assoc, hconserves]
    _ = h.accepted ++ op.putIn answer := by rw [← List.append_assoc, hitems]

/-- **Any operations keep it so**, whichever threads make them. -/
theorem History.Fifo.reaches {capacity : Nat} {h h' : History α} (hfifo : h.Fifo capacity)
    (hreaches : Reaches History.step? h h') : h'.Fifo capacity := by
  induction hreaches with
  | refl => exact hfifo
  | move op _ hstep ih => exact ih.step hstep

theorem History.fifo_start {capacity : Nat} (hpos : 0 < capacity) :
    (History.start (BoundedBuffer.ofCapacity capacity) : History α).Fifo capacity := by
  refine ⟨[], BoundedBuffer.ofCapacity_holds hpos, ?_, rfl⟩
  simp [History.start, BoundedBuffer.ofCapacity, BoundedBuffer.capacity]

/-! ## 7. What follows for a buffer -/

namespace BoundedBuffer

/-- The items stand in the slots that follow the head, and nothing stands in the others. -/
structure WellPlaced (b : BoundedBuffer α) (capacity : Nat) : Prop where
  capacity_eq : b.capacity = capacity
  count_le : b.count ≤ capacity
  length_items : b.items.length = b.count
  occupied : ∀ k < b.count, ∃ item, b.slots[(b.head + k) % capacity]? = some (some item)
  empty : ∀ i < capacity, (∀ k < b.count, i ≠ (b.head + k) % capacity) → b.slots[i]? = some none
  push_free : b.count < capacity → b.slots[(b.head + b.count) % capacity]? = some none
  pop_some : 0 < b.count → ∃ item b', b.pop = (some item, b') ∧ b.items = item :: b'.items

/-- Operations on the buffer answer as on a queue of at most `capacity` items. -/
structure ServesAsQueue (b : BoundedBuffer α) (capacity : Nat) : Prop where
  simulates : ∀ op, (b.perform op).map (fun (answer, b') => (answer, Queue.mk b'.items)) =
    queuePerform capacity ⟨b.items⟩ op
  tryProduce_fails : ∀ item, b.Fails (.tryProduce item) ↔ b.count = capacity
  produceUntil_fails : ∀ cancelled item,
    b.Fails (.produceUntil cancelled item) ↔ b.count = capacity ∧ cancelled = true
  tryConsume_fails : b.Fails .tryConsume ↔ b.count = 0
  consumeUntil_fails : ∀ cancelled,
    b.Fails (.consumeUntil cancelled) ↔ b.count = 0 ∧ cancelled = true
  produce_waits : ∀ item, b.perform (.produce item) = none ↔ b.count = capacity
  consume_waits : b.perform .consume = none ↔ b.count = 0
  returned : ∀ op item b', b.perform op = some (.returned item, b') →
    b' = b ∧ op.item? = some item
  nothing : ∀ op b', b.perform op = some (.nothing, b') → b' = b ∧ op.item? = none

variable {b : BoundedBuffer α} {q : List α}

theorem Holds.wellPlaced (h : b.Holds q) : b.WellPlaced b.capacity where
  capacity_eq := rfl
  count_le := h.count_le
  length_items := by rw [h.items_eq, h.count_eq]
  occupied k hk := ⟨_, h.occupied k (h.count_eq ▸ hk)⟩
  empty i hi hfree := h.free i hi fun k hk => hfree k (h.count_eq ▸ hk)
  push_free := h.next_free
  pop_some hpos := by
    cases q with
    | nil => exact absurd h.count_eq (Nat.ne_of_gt hpos)
    | cons x q => exact ⟨x, b.dropHead, h.pop_cons, by rw [h.items_eq, h.dropHead.items_eq]⟩

theorem Holds.servesAsQueue (h : b.Holds q) : b.ServesAsQueue b.capacity where
  simulates := h.perform_items
  tryProduce_fails item := by simp [h.fails_iff, Blocks, Operation.item?, Operation.refusal?]
  produceUntil_fails cancelled item := by
    cases cancelled <;> simp [h.fails_iff, Blocks, Operation.item?, Operation.refusal?]
  tryConsume_fails := by simp [h.fails_iff, Blocks, Operation.item?, Operation.refusal?]
  consumeUntil_fails cancelled := by
    cases cancelled <;> simp [h.fails_iff, Blocks, Operation.item?, Operation.refusal?]
  produce_waits item := by simp [h.waits_iff, Blocks, Operation.item?, Operation.refusal?]
  consume_waits := by simp [h.waits_iff, Blocks, Operation.item?, Operation.refusal?]
  returned op item b' hperform := by
    obtain ⟨hsame, hrefusal⟩ := h.perform_of_refusal hperform rfl
    obtain ⟨-, -, -, hitem, -⟩ := Operation.refusal_idle hrefusal
    exact ⟨hsame, hitem item rfl⟩
  nothing op b' hperform := by
    obtain ⟨hsame, hrefusal⟩ := h.perform_of_refusal hperform rfl
    obtain ⟨-, -, -, -, hnone⟩ := Operation.refusal_idle hrefusal
    exact ⟨hsame, hnone rfl⟩

end BoundedBuffer

/-- **A bounded buffer is a queue of bounded length.** After any operations of any threads, what was
taken out and what is in the ring is, in order, what was accepted; the items stand in the slots
that follow the head; and every operation does what it does to the queue. -/
theorem boundedBuffer_fifo (capacity : Nat) (hpos : 0 < capacity) :
    ∃ b : BoundedBuffer α, BoundedBuffer.create capacity = .ok b ∧
      ∀ h : History α, Reaches History.step? (History.start b) h →
        h.removed ++ h.buffer.items = h.accepted ∧ h.buffer.WellPlaced capacity ∧
          h.buffer.ServesAsQueue capacity := by
  refine ⟨BoundedBuffer.ofCapacity capacity, if_pos hpos, fun h hreaches => ?_⟩
  obtain ⟨q, hholds, rfl, hitems⟩ := (History.fifo_start hpos).reaches hreaches
  refine ⟨?_, hholds.wellPlaced, hholds.servesAsQueue⟩
  rw [hholds.items_eq, hitems]

/-- Of two slots, the first is used again: the items come out in the order in which they came. -/
theorem boundedBuffer_fifo_wraps :
    ∃ b : BoundedBuffer Nat, BoundedBuffer.create 2 = .ok b ∧
      ∃ h : History Nat, Reaches History.step? (History.start b) h ∧
        h.buffer.slots = #[some 3, some 2] ∧ h.buffer.head = 1 ∧ h.removed = [1] ∧
        h.accepted = [1, 2, 3] ∧ h.removed ++ h.buffer.items = h.accepted ∧
        h.buffer.WellPlaced 2 ∧ h.buffer.ServesAsQueue 2 := by
  obtain ⟨b, hb, hall⟩ := boundedBuffer_fifo (α := Nat) 2 (by decide)
  cases hb
  have hreaches : Reaches History.step? (History.start (BoundedBuffer.ofCapacity 2))
      ⟨⟨#[some 3, some 2], 1, 2⟩, [1, 2, 3], [1]⟩ :=
    .move (.produceUntil true 3) (.move .tryConsume (.move (.produce 2)
      (.move (.tryProduce 1) .refl rfl) rfl) rfl) rfl
  exact ⟨_, rfl, _, hreaches, rfl, rfl, rfl, rfl, hall _ hreaches⟩

end StoreQL.Concurrency
