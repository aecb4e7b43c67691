/-
# Moves of a network

What a move does to a network of streams is said here once, as a relation with a rule for each kind
of move (`Network.Step`), so that what any network keeps is shown by going through seven rules.

A station that offers an item has not finished, and a relay that waits for an item has a stream to
wait at; what stations do is otherwise read off their phases.
-/
import StoreQL.Concurrency.Network
import StoreQL.Proofs.Concurrency.Moves

namespace StoreQL.Concurrency

variable {α : Type}

/-! ## 1. Stations -/

namespace Station

variable {s : Station α} {item : α}

/-- A station that offers something has not finished. -/
theorem isFinished_of_offer (h : s.offer? = some item) : s.isFinished = false := by
  cases s with
  | generator items =>
    cases items with
    | nil => cases h
    | cons x items => rfl
  | relay r =>
    obtain ⟨inputs, action, phase⟩ := r
    cases phase with
    | offering x => rfl
    | checking | receiving | finished => cases h

theorem isFinished_relay {r : Relay α} :
    (Station.relay r).isFinished = true ↔ r.phase = .finished := by
  obtain ⟨inputs, action, phase⟩ := r
  cases phase <;> simp [isFinished]

end Station

/-! ## 2. Moves -/

namespace Network

/-- What the moves of a network do. -/
inductive Step (n : Network α) : Move → Network α → Prop where
  | read {s : Station α} {item : α} (hs : n.stations[n.outlet]? = some s)
      (hoffer : s.offer? = some item) :
      Step n .read { n.setStation n.outlet s.offerTaken with received := n.received ++ [item] }
  | check {i : Nat} {r : Relay α} (hr : n.stations[i]? = some (.relay r))
      (hphase : r.phase = .checking) :
      Step n (.check i) (n.setStation i (.relay (r.check n.cancelled)))
  | accept {i input : Nat} {r : Relay α} {s : Station α} {item : α}
      (hr : n.stations[i]? = some (.relay r)) (hphase : r.phase = .receiving)
      (hinput : r.inputs.head? = some input) (hs : n.stations[input]? = some s)
      (hoffer : s.offer? = some item) :
      Step n (.accept i) ((n.setStation input s.offerTaken).setStation i (.relay (r.accept item)))
  | closed {i input : Nat} {r : Relay α} {s : Station α}
      (hr : n.stations[i]? = some (.relay r)) (hphase : r.phase = .receiving)
      (hinput : r.inputs.head? = some input) (hs : n.stations[input]? = some s)
      (hfinished : s.isFinished = true) :
      Step n (.closed i) (n.setStation i (.relay r.nextInput))
  | recheck {i : Nat} {r : Relay α} (hr : n.stations[i]? = some (.relay r))
      (hphase : r.phase = .receiving) (hcancelled : n.cancelled = true) :
      Step n (.recheck i) (n.setStation i (.relay { r with phase := .checking }))
  | giveUp {i : Nat} {s : Station α} {item : α} (hs : n.stations[i]? = some s)
      (hoffer : s.offer? = some item) (hwhy : n.cancelled = true ∨ n.isRead i = false) :
      Step n (.giveUp i) (n.setStation i s.giveUp)
  | cancel : Step n .cancel { n with cancelled := true }

variable {n n' : Network α} {i : Nat} {r : Relay α}

theorem relay?_eq_some_iff : n.relay? i = some r ↔ n.stations[i]? = some (.relay r) := by
  rw [relay?]
  cases hs : n.stations[i]? with
  | none => simp
  | some s => cases s <;> simp

theorem receiver?_eq_some_iff {input : Nat} : n.receiver? i = some (r, input) ↔
    n.stations[i]? = some (.relay r) ∧ r.phase = .receiving ∧ r.inputs.head? = some input := by
  rw [receiver?, ← relay?_eq_some_iff]
  cases hr : n.relay? i with
  | none => simp
  | some r' =>
    obtain ⟨inputs, action, phase⟩ := r'
    cases phase with
    | receiving =>
      cases inputs with
      | nil =>
        simp only [List.head?_nil, Option.map_none, reduceCtorEq, Option.some.injEq, false_iff]
        rintro ⟨rfl, -, hinput⟩
        cases hinput
      | cons x inputs =>
        simp only [List.head?_cons, Option.map_some, Option.some.injEq, Prod.mk.injEq]
        constructor
        · rintro ⟨rfl, rfl⟩
          exact ⟨rfl, rfl, rfl⟩
        · rintro ⟨rfl, -, hinput⟩
          exact ⟨rfl, Option.some.inj hinput⟩
    | checking | offering | finished =>
      simp only [reduceCtorEq, Option.some.injEq, false_iff]
      rintro ⟨rfl, hphase, -⟩
      cases hphase

/-- **What a move does.** -/
theorem step_of_step? {m : Move} (h : n.step? m = some n') : n.Step m n' := by
  cases m with
  | read =>
    obtain ⟨s, hs, h⟩ := Option.bind_eq_some_iff.mp h
    obtain ⟨item, hoffer, h⟩ := Option.bind_eq_some_iff.mp h
    cases h
    exact .read hs hoffer
  | check i =>
    obtain ⟨r, hr, h⟩ := Option.bind_eq_some_iff.mp h
    cases hphase : r.phase with
    | checking =>
      simp only [hphase, Option.some.injEq] at h
      subst h
      exact .check (relay?_eq_some_iff.mp hr) hphase
    | receiving | offering | finished => simp [hphase] at h
  | accept i =>
    obtain ⟨⟨r, input⟩, hr, h⟩ := Option.bind_eq_some_iff.mp h
    obtain ⟨s, hs, h⟩ := Option.bind_eq_some_iff.mp h
    obtain ⟨item, hoffer, h⟩ := Option.bind_eq_some_iff.mp h
    cases h
    obtain ⟨hr, hphase, hinput⟩ := receiver?_eq_some_iff.mp hr
    exact .accept hr hphase hinput hs hoffer
  | closed i =>
    obtain ⟨⟨r, input⟩, hr, h⟩ := Option.bind_eq_some_iff.mp h
    obtain ⟨s, hs, h⟩ := Option.bind_eq_some_iff.mp h
    obtain ⟨hr, hphase, hinput⟩ := receiver?_eq_some_iff.mp hr
    split at h
    · rename_i hfinished
      cases h
      exact .closed hr hphase hinput hs hfinished
    · cases h
  | recheck i =>
    obtain ⟨⟨r, input⟩, hr, h⟩ := Option.bind_eq_some_iff.mp h
    obtain ⟨hr, hphase, -⟩ := receiver?_eq_some_iff.mp hr
    simp only at h
    split at h
    · rename_i hcancelled
      cases h
      exact .recheck hr hphase hcancelled
    · cases h
  | giveUp i =>
    obtain ⟨s, hs, h⟩ := Option.bind_eq_some_iff.mp h
    obtain ⟨item, hoffer, h⟩ := Option.bind_eq_some_iff.mp h
    split at h
    · rename_i hwhy
      cases h
      refine .giveUp hs hoffer ?_
      simpa using hwhy
    · cases h
  | cancel =>
    cases h
    exact .cancel

end Network
end StoreQL.Concurrency
