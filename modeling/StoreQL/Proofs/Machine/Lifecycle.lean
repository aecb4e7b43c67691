/-
# The life of an order

Whatever events are triggered on the machine of an order, those that are accepted tell one of two
stories, as far as it has come: the order is confirmed, processed, shipped, delivered and refunded;
or it is cancelled somewhere on the way before it is delivered, and refunded. `Lifecycle` says that
a word is the beginning of such a story.

What carries this is what a state knows of the past: `Tells s word` says that the word is one by
which an order comes to the state `s`. Main statements: `Tells.snoc`, that an edge leads from a word
of its source to one of its target, with a case for each edge; `exists_leads_iff`, that the words
that lead somewhere are the beginnings of stories; and `orderMachine_lifecycle`, what follows for
every run.
-/
import Mathlib.Data.List.Infix
import StoreQL.Machine.Order
import StoreQL.Proofs.Machine.Words

namespace StoreQL

open OrderEvent

variable {ω : Type} {word : List OrderEvent} {s t : OrderStatus}

/-! ## 1. Stories -/

/-- The way of an order until it is shipped. -/
def onTheWay : List OrderEvent := [confirm, process, ship]

/-- The word is the beginning of a story: the order goes all the way, or it is cancelled on the way
and refunded. -/
def Lifecycle (word : List OrderEvent) : Prop :=
  word <+: onTheWay ++ [deliver, refund] ∨ ∃ n, word <+: onTheWay.take n ++ [cancel, refund]

/-- Nothing happens but what happens, in this order, in one of the two longest stories. -/
theorem Lifecycle.sublist (h : Lifecycle word) :
    word.Sublist (onTheWay ++ [deliver, refund]) ∨ word.Sublist (onTheWay ++ [cancel, refund]) := by
  rcases h with h | ⟨n, h⟩
  · exact .inl h.sublist
  · exact .inr (h.sublist.trans ((List.take_sublist n onTheWay).append_right _))

theorem Lifecycle.length_le (h : Lifecycle word) : word.length ≤ 5 := by
  rcases h.sublist with h | h
  · exact h.length_le
  · exact h.length_le

theorem Lifecycle.count_refund_le (h : Lifecycle word) : word.count refund ≤ 1 := by
  rcases h.sublist with h | h
  · exact h.count_le refund
  · exact h.count_le refund

/-- No order is delivered and cancelled. -/
theorem Lifecycle.not_both (h : Lifecycle word) : ¬ (deliver ∈ word ∧ cancel ∈ word) := by
  rintro ⟨hdeliver, hcancel⟩
  rcases h.sublist with h | h
  · exact absurd (h.subset hcancel) (by decide)
  · exact absurd (h.subset hdeliver) (by decide)

/-! ## 2. What a state tells -/

/-- The word is one by which an order comes to the state. -/
def Tells : OrderStatus → List OrderEvent → Prop
  | .pending, word => word = []
  | .confirmed, word => word = onTheWay.take 1
  | .processing, word => word = onTheWay.take 2
  | .shipped, word => word = onTheWay
  | .delivered, word => word = onTheWay ++ [deliver]
  | .cancelled, word => ∃ n, word = onTheWay.take n ++ [cancel]
  | .refunded, word =>
    word = onTheWay ++ [deliver, refund] ∨ ∃ n, word = onTheWay.take n ++ [cancel, refund]

/-- **An edge leads from a word of its source to a word of its target.** -/
theorem Tells.snoc {e : Edge OrderStatus OrderEvent} (he : e ∈ orderEdges)
    (h : Tells e.source word) : Tells e.target (word ++ [e.event]) := by
  simp only [orderEdges, List.mem_cons, List.not_mem_nil, or_false] at he
  rcases he with rfl | rfl | rfl | rfl | rfl | rfl | rfl | rfl | rfl | rfl
  · exact congrArg (· ++ [confirm]) h
  · exact ⟨0, congrArg (· ++ [cancel]) h⟩
  · exact congrArg (· ++ [process]) h
  · exact ⟨1, congrArg (· ++ [cancel]) h⟩
  · exact congrArg (· ++ [ship]) h
  · exact ⟨2, congrArg (· ++ [cancel]) h⟩
  · exact congrArg (· ++ [deliver]) h
  · exact ⟨3, congrArg (· ++ [cancel]) h⟩
  · exact .inl (congrArg (· ++ [refund]) h)
  · obtain ⟨n, rfl⟩ := h
    exact .inr ⟨n, List.append_assoc _ _ _⟩

/-- A word that leads on from a state continues the words of the state. -/
theorem Tells.append {word' : List OrderEvent} (h : Tells s word)
    (hleads : Leads orderEdges s word' t) : Tells t (word ++ word') := by
  induction hleads generalizing word with
  | stay s => rwa [List.append_nil]
  | go hmem _ ih =>
    rw [List.append_cons]
    exact ih (h.snoc hmem)

theorem Tells.lifecycle (h : Tells s word) : Lifecycle word := by
  have hway {n : Nat} (h : word = onTheWay.take n) : Lifecycle word := by
    have hbegins : onTheWay.take n <+: onTheWay := List.take_prefix n onTheWay
    exact .inl (h ▸ hbegins.trans (List.prefix_append _ _))
  cases s with
  | pending => exact hway (n := 0) h
  | confirmed => exact hway h
  | processing => exact hway h
  | shipped => exact hway (n := 3) h
  | delivered => exact .inl ⟨[refund], by rw [h]; rfl⟩
  | cancelled =>
    obtain ⟨n, rfl⟩ := h
    exact .inr ⟨n, [refund], List.append_assoc _ _ _⟩
  | refunded =>
    rcases h with rfl | ⟨n, rfl⟩
    · exact .inl List.prefix_rfl
    · exact .inr ⟨n, List.prefix_rfl⟩

/-! ## 3. The words that lead somewhere -/

theorem leads_onTheWay : Leads orderEdges .pending onTheWay .shipped :=
  have hconfirm : Leads orderEdges .pending [confirm] .confirmed := (Leads.stay _).snoc (by decide)
  have hprocess : Leads orderEdges .pending [confirm, process] .processing :=
    hconfirm.snoc (by decide)
  hprocess.snoc (by decide)

/-- Wherever the order is on the way, it can be cancelled. -/
theorem leads_take (n : Nat) :
    ∃ s, Leads orderEdges .pending (onTheWay.take n) s ∧ ⟨s, cancel, .cancelled⟩ ∈ orderEdges := by
  have hbegins : onTheWay.take n <+: onTheWay := List.take_prefix n onTheWay
  obtain ⟨s, hs⟩ := leads_onTheWay.beginning hbegins
  refine ⟨s, hs, ?_⟩
  have htells : Tells s (onTheWay.take n) := Tells.append (s := .pending) rfl hs
  -- The other states tell of an event that does not happen on the way.
  have hway {event : OrderEvent} (h : event ∈ onTheWay.take n) : event ∈ onTheWay :=
    List.mem_of_mem_take h
  cases s with
  | pending | confirmed | processing | shipped => decide
  | delivered => exact absurd (hway (htells ▸ by simp : deliver ∈ onTheWay.take n)) (by decide)
  | cancelled =>
    obtain ⟨k, hk⟩ := htells
    exact absurd (hway (hk ▸ by simp : cancel ∈ onTheWay.take n)) (by decide)
  | refunded =>
    rcases htells with hk | ⟨k, hk⟩
    · exact absurd (hway (hk ▸ by simp : refund ∈ onTheWay.take n)) (by decide)
    · exact absurd (hway (hk ▸ by simp : refund ∈ onTheWay.take n)) (by decide)

/-- **The words that lead somewhere are the beginnings of stories.** -/
theorem exists_leads_iff : (∃ s, Leads orderEdges .pending word s) ↔ Lifecycle word := by
  constructor
  · rintro ⟨s, hs⟩
    have hstart : Tells .pending [] := rfl
    exact (hstart.append hs).lifecycle
  · rintro (hbegins | ⟨n, hbegins⟩)
    · have hdelivered : Leads orderEdges .pending (onTheWay ++ [deliver]) .delivered :=
        leads_onTheWay.snoc (by decide)
      have hrefunded : Leads orderEdges .pending (onTheWay ++ [deliver] ++ [refund]) .refunded :=
        hdelivered.snoc (by decide)
      exact hrefunded.beginning (by simpa using hbegins)
    · obtain ⟨s, hs, hcancel⟩ := leads_take n
      have hrefunded :
          Leads orderEdges .pending (onTheWay.take n ++ [cancel] ++ [refund]) .refunded :=
        (hs.snoc hcancel).snoc (by decide)
      exact hrefunded.beginning (by simpa using hbegins)

/-! ## 4. Every run -/

namespace Machine

/-- What holds of the machine of an order once the events of the word were accepted. -/
structure Lived (depth : Nat) (word : List OrderEvent)
    (m : Machine OrderStatus OrderEvent ω) : Prop where
  lifecycle : Lifecycle word
  length_le : word.length ≤ 5
  not_both : ¬ (deliver ∈ word ∧ cancel ∈ word)
  refunds_le : word.count refund ≤ 1
  accepts_or_stays : ∀ event,
    (∃ t, m.trigger (depth + 1) event = some ⟨.ok t, { m with current := t }⟩) ∨
      m.trigger (depth + 1) event = some ⟨.error ⟨m.current, event⟩, m⟩
  final_iff : m.current.isFinal = true ↔ m.validEvents = []
  final_iff_refused : m.current.isFinal = true ↔
    ∀ event, m.trigger (depth + 1) event = some ⟨.error ⟨m.current, event⟩, m⟩
  final_iff_over : m.current.isFinal = true ↔ ∀ events, ∃ answers,
    m.triggerAll (depth + 1) events = some (answers, m) ∧ acceptedOf events answers = []

theorem nodup_orderEdges : (orderEdges.map Edge.key).Nodup := by decide

/-- A state is final exactly if no edge leaves it. -/
theorem isFinal_iff : s.isFinal = true ↔ ∀ e ∈ orderEdges, e.source ≠ s := by
  cases s <;> decide

/-- What is accepted in a run leads to where the machine is in the end. -/
theorem orderMachine_leads (depth : Nat) (events : List OrderEvent) :
    ∃ answers t, (orderMachine : Machine OrderStatus OrderEvent ω).triggerAll (depth + 1) events =
        some (answers, { orderMachine with current := t }) ∧
      answers.length = events.length ∧ Leads orderEdges .pending (acceptedOf events answers) t :=
  triggerAll_leads rfl depth events

/-- A word that leads somewhere from the beginning is accepted as a whole. -/
theorem orderMachine_of_leads (depth : Nat) (h : Leads orderEdges .pending word t) :
    ∃ answers, (orderMachine : Machine OrderStatus OrderEvent ω).triggerAll (depth + 1) word =
        some (answers, { orderMachine with current := t }) ∧ acceptedOf word answers = word :=
  triggerAll_of_leads (m := orderMachine) rfl nodup_orderEdges h depth

theorem lived_of_leads (depth : Nat) (h : Leads orderEdges .pending word t) :
    Lived depth word { (orderMachine : Machine OrderStatus OrderEvent ω) with current := t } := by
  have hlifecycle : Lifecycle word := exists_leads_iff.mp ⟨t, h⟩
  generalize hm : { (orderMachine : Machine OrderStatus OrderEvent ω) with current := t } = m
  have hsilent : m.callbacks = [] := hm ▸ rfl
  have hedges : m.edges = orderEdges := hm ▸ rfl
  have hfinal : m.current.isFinal = true ↔ m.validEvents = [] := by
    rw [validEvents_eq_nil_iff, hedges, isFinal_iff]
  refine ⟨hlifecycle, hlifecycle.length_le, hlifecycle.not_both, hlifecycle.count_refund_le,
    fun event => ?_, hfinal, hfinal.trans (validEvents_eq_nil_iff_refused hsilent depth),
    hfinal.trans (validEvents_eq_nil_iff_over hsilent depth)⟩
  rcases trigger_cases hsilent depth event with ⟨t', -, hmoves⟩ | ⟨-, hstays⟩
  · exact .inl ⟨t', hmoves⟩
  · exact .inr hstays

end Machine

open Machine

/-- **The life of an order.** Whatever events are triggered, each is accepted or leaves the machine
as it is, and the accepted ones, in order, are the beginning of a story; they alone bring the
machine to the same state. So no order is delivered and cancelled, refunded twice, or accepts more
than five events, and a state is final exactly if no event is valid, which is if every further event
is refused. Exactly the beginnings of stories are accepted as a whole. -/
theorem orderMachine_lifecycle (depth : Nat) :
    (∀ events, ∃ answers, ∃ m : Machine OrderStatus OrderEvent ω,
      orderMachine.triggerAll (depth + 1) events = some (answers, m) ∧
        answers.length = events.length ∧ Lived depth (acceptedOf events answers) m ∧
        ∃ accepted, orderMachine.triggerAll (depth + 1) (acceptedOf events answers) =
          some (accepted, m)) ∧
      ∀ word, Lifecycle word ↔ ∃ answers, ∃ m : Machine OrderStatus OrderEvent ω,
        orderMachine.triggerAll (depth + 1) word = some (answers, m) ∧
          acceptedOf word answers = word := by
  refine ⟨fun events => ?_, fun word => ⟨fun hword => ?_, ?_⟩⟩
  · obtain ⟨answers, t, hrun, hlength, ht⟩ := orderMachine_leads depth events
    obtain ⟨accepted, hagain, -⟩ := orderMachine_of_leads depth ht
    exact ⟨answers, _, hrun, hlength, lived_of_leads depth ht, accepted, hagain⟩
  · obtain ⟨t, ht⟩ := exists_leads_iff.mpr hword
    obtain ⟨answers, hrun, hall⟩ := orderMachine_of_leads depth ht
    exact ⟨answers, _, hrun, hall⟩
  · rintro ⟨answers, m, hrun, hall⟩
    obtain ⟨answers', t, hrun', -, ht⟩ := orderMachine_leads depth word
    cases hrun.symm.trans hrun'
    rw [hall] at ht
    exact exists_leads_iff.mp ⟨t, ht⟩

/-- What is refused in between leaves no trace. -/
example : ((orderMachine : Machine OrderStatus OrderEvent Unit).triggerAll 1
    [ship, confirm, refund, cancel, deliver, refund, refund]).map
      (fun r => (acceptedOf [ship, confirm, refund, cancel, deliver, refund, refund] r.1,
        r.2.current)) =
    some ([confirm, cancel, refund], .refunded) := by decide

end StoreQL
