/-
# Networks that pass on what they take

Here every relay passes on each item that it takes, and reads the streams of its plan to their ends,
one after the other: a stream that it does not read any more is closed (`Forwards`). So as long as
every stream is in someone's plan, or read from outside, no offer is given up before the token is
cancelled, and what moves do then comes down to three rules (`Network.Advances`).

Items are not lost on their way: what a network holds is what its stations hold (`Station.stock`),
and together with what was received it stays the same, up to order (`Advances.conserves`).

Main statements: `Step.advances`, that moves before cancellation do no more than the three rules
say; `Forwards.advance`, that these keep the plans; `Forwards.closedAt`, that behind a closed stream
all is closed; and `Advances.conserves`.
-/
import StoreQL.Proofs.Concurrency.Chain

namespace StoreQL.Concurrency

open scoped List

variable {α : Type}

/-! ## 1. Closed streams, and what stations hold -/

/-- The station of a stream has finished. -/
def ClosedAt (l : List (Station α)) (j : Nat) : Prop := ∃ s, l[j]? = some s ∧ s.isFinished = true

/-- The items that a station holds: a generator all that it has still to offer, and a relay the one
that it offers. -/
def Station.stock : Station α → List α
  | .generator items => items
  | .relay r => (Station.relay r).offer?.toList

namespace Station

variable {s : Station α} {r : Relay α} {item : α}

theorem stock_of_offer (h : s.offer? = some item) : s.stock = item :: s.offerTaken.stock := by
  cases s with
  | generator items =>
    cases items with
    | nil => cases h
    | cons x items =>
      cases h
      rfl
  | relay r =>
    rw [stock, h]
    rfl

/-- What a station that offers an item gives out. -/
theorem stock_gives (h : s.offer? = some item) : s.stock ++ [] = [item] ++ s.offerTaken.stock := by
  rw [stock_of_offer h, List.append_nil]
  rfl

theorem stock_of_finished (h : s.isFinished = true) : s.stock = [] := by
  cases s with
  | generator items => exact List.isEmpty_iff.mp h
  | relay r =>
    rw [stock, offer?, isFinished_relay.mp h]
    rfl

theorem stock_giveUp (s : Station α) : s.giveUp.stock = [] := by
  cases s <;> rfl

theorem stock_of_idle (h : (Station.relay r).offer? = none) : (Station.relay r).stock = [] := by
  rw [stock, h]
  rfl

end Station

namespace Relay

variable {r : Relay α}

/-- A relay that passes on what it takes offers it at once. -/
theorem accept_of_action (h : r.action = some) (item : α) :
    r.accept item = { r with phase := .offering item } := by
  rw [accept, h]

theorem offer?_nextInput (r : Relay α) : (Station.relay r.nextInput).offer? = none := by
  unfold nextInput
  cases r.inputs.tail.isEmpty <;> rfl

end Relay

section Closed

variable {l : List (Station α)} {i j : Nat} {s s' : Station α}

theorem isFinished_of_idle {r : Relay α} (h : r.phase = .checking ∨ r.phase = .receiving) :
    (Station.relay r).isFinished = false := by
  rw [Bool.eq_false_iff, ne_eq, Station.isFinished_relay]
  rcases h with h | h <;> rw [h] <;> nofun

theorem offer?_of_idle {r : Relay α} (h : r.phase = .checking ∨ r.phase = .receiving) :
    (Station.relay r).offer? = none := by
  rcases h with h | h <;> simp [Station.offer?, h]

/-- What a relay that waits for an item takes in. -/
theorem stock_takes {r : Relay α} (haction : r.action = some) (hphase : r.phase = .receiving)
    (item : α) :
    (Station.relay r).stock ++ [item] = [] ++ (Station.relay (r.accept item)).stock := by
  rw [Station.stock_of_idle (offer?_of_idle (.inr hphase)), Relay.accept_of_action haction]
  rfl

/-- A stream stays closed where a station is replaced that had not finished. -/
theorem ClosedAt.set (h : ClosedAt l j) (hs : l[i]? = some s) (hrunning : s.isFinished = false) :
    ClosedAt (l.set i s') j := by
  obtain ⟨t, ht, hfinished⟩ := h
  have hne : i ≠ j := by
    rintro rfl
    rw [hs, Option.some.injEq] at ht
    rw [ht, hfinished] at hrunning
    cases hrunning
  exact ⟨t, by rw [List.getElem?_set_ne hne, ht], hfinished⟩

theorem ClosedAt.stock (h : ClosedAt l j) : heldAt Station.stock l j = [] := by
  obtain ⟨s, hs, hfinished⟩ := h
  rw [heldAt_of_eq_some hs, Station.stock_of_finished hfinished]

end Closed

/-! ## 2. Relays with plans -/

/-- A relay that passes on all that it takes and is to read the streams of a plan: it reads no
others, those that it does not read any more are closed, and when it has finished none are left. -/
structure Relay.Forwards (l : List (Station α)) (plan : List Nat) (r : Relay α) : Prop where
  action : r.action = some
  within : r.inputs ⊆ plan
  others : ∀ j ∈ plan, j ∈ r.inputs ∨ ClosedAt l j
  ended : r.phase = .finished → r.inputs = []

/-- A station with a plan; generators read nothing. -/
def Station.Forwards (l : List (Station α)) (plan : List Nat) : Station α → Prop
  | .generator _ => plan = []
  | .relay r => r.Forwards l plan

/-- Stations each of which has a plan. -/
def Forwards (plan : Nat → List Nat) (l : List (Station α)) : Prop :=
  ∀ (i : Nat) (s : Station α), l[i]? = some s → s.Forwards l (plan i)

namespace Relay.Forwards

variable {l : List (Station α)} {plan : List Nat} {r r' : Relay α}

theorem start (l : List (Station α)) (plan : List Nat) :
    (Relay.start plan some : Relay α).Forwards l plan where
  action := rfl
  within := List.Subset.refl plan
  others _ hj := Or.inl hj
  ended := nofun

/-- A relay goes on with what it does, and has not finished. -/
theorem of_inputs (h : r.Forwards l plan) (haction : r'.action = r.action)
    (hinputs : r'.inputs = r.inputs) (hrunning : r'.phase ≠ .finished) : r'.Forwards l plan where
  action := haction.trans h.action
  within := hinputs ▸ h.within
  others := hinputs ▸ h.others
  ended hphase := absurd hphase hrunning

end Relay.Forwards

namespace Station.Forwards

variable {l l' : List (Station α)} {plan : List Nat} {s : Station α} {item : α}

theorem mono (h : s.Forwards l plan) (hclosed : ∀ j, ClosedAt l j → ClosedAt l' j) :
    s.Forwards l' plan := by
  cases s with
  | generator items => exact h
  | relay r =>
    exact {
      action := h.action
      within := h.within
      others := fun j hj => (h.others j hj).imp_right (hclosed j)
      ended := h.ended }

theorem offerTaken (h : s.Forwards l plan) : s.offerTaken.Forwards l plan := by
  cases s with
  | generator items => exact h
  | relay r => exact Relay.Forwards.of_inputs h rfl rfl nofun

end Station.Forwards

section Plans

variable {plan : Nat → List Nat} {l : List (Station α)} {i j : Nat} {s s' : Station α}

theorem Forwards.set (h : Forwards plan l) (hs : l[i]? = some s) (hrunning : s.isFinished = false)
    (hs' : s'.Forwards l (plan i)) : Forwards plan (l.set i s') := by
  have hclosed : ∀ j, ClosedAt l j → ClosedAt (l.set i s') j := fun j hj => hj.set hs hrunning
  intro k t ht
  rw [getElem?_set_of_eq_some hs] at ht
  split at ht
  · rename_i hik
    cases ht
    exact hik ▸ hs'.mono hclosed
  · exact (h k t ht).mono hclosed

/-- **Behind a closed stream all is closed.** -/
theorem Forwards.closedAt (h : Forwards plan l) (hi : ClosedAt l i) (hj : j ∈ plan i) :
    ClosedAt l j := by
  obtain ⟨s, hs, hfinished⟩ := hi
  have hplace : s.Forwards l (plan i) := h i s hs
  cases s with
  | generator items =>
    have hnone : plan i = [] := hplace
    rw [hnone] at hj
    cases hj
  | relay r =>
    have hplace : r.Forwards l (plan i) := hplace
    refine (hplace.others j hj).resolve_left fun hreads => ?_
    rw [hplace.ended (Station.isFinished_relay.mp hfinished)] at hreads
    cases hreads

end Plans

/-! ## 3. What moves do before cancellation -/

namespace Network

/-- What moves do before the token is cancelled, if no offer is given up: an item is received, or
passes to a relay, or a relay without an item goes on, at most to its next stream. -/
inductive Advances (n : Network α) : Network α → Prop where
  | read {s : Station α} {item : α} (hs : n.stations[n.outlet]? = some s)
      (hoffer : s.offer? = some item) :
      Advances n { n.setStation n.outlet s.offerTaken with received := n.received ++ [item] }
  | accept {i input : Nat} {r : Relay α} {s : Station α} {item : α}
      (hr : n.stations[i]? = some (.relay r)) (hphase : r.phase = .receiving)
      (hinput : r.inputs.head? = some input) (hs : n.stations[input]? = some s)
      (hoffer : s.offer? = some item) :
      Advances n
        ((n.setStation input s.offerTaken).setStation i (.relay (r.accept item)))
  | turn {i : Nat} {r r' : Relay α} (hr : n.stations[i]? = some (.relay r))
      (hphase : r.phase = .checking ∨ r.phase = .receiving) (haction : r'.action = r.action)
      (hinputs : r'.inputs = r.inputs ∨
        ∃ j, r.inputs = j :: r'.inputs ∧ ClosedAt n.stations j)
      (hidle : (Station.relay r').offer? = none) (hended : r'.phase = .finished → r'.inputs = []) :
      Advances n (n.setStation i (.relay r'))

variable {n n' : Network α} {m : Move} {plan : Nat → List Nat} {i j : Nat} {s t : Station α}

theorem Step.uncancelled (h : n.Step m n') (hcancelled : n'.cancelled = false) :
    n.cancelled = false := by
  cases h with
  | cancel => cases hcancelled
  | read | check | accept | closed | recheck | giveUp => exact hcancelled

theorem Step.outlet_eq (h : n.Step m n') : n'.outlet = n.outlet := by
  cases h <;> rfl

theorem Step.length_eq (h : n.Step m n') : n'.stations.length = n.stations.length := by
  cases h <;> simp [setStation]

theorem ended_nextInput (r : Relay α) (h : r.nextInput.phase = .finished) :
    r.nextInput.inputs = [] := by
  unfold Relay.nextInput at h ⊢
  simp only at h ⊢
  split at h
  · rename_i hempty
    exact List.isEmpty_iff.mp hempty
  · cases h

/-- **What moves do before cancellation**, unless an offer is given up. -/
theorem Step.advances (h : n.Step m n') (hcancelled : n'.cancelled = false)
    (hgive : ∀ i, m ≠ .giveUp i) : n.Advances n' := by
  have huncancelled : n.cancelled = false := h.uncancelled hcancelled
  cases h with
  | read hs hoffer => exact .read hs hoffer
  | @check i r hr hphase =>
    rw [huncancelled, Relay.check]
    split
    · rename_i hempty
      have hinputs : r.inputs = [] := by simpa using hempty
      refine .turn hr (.inl hphase) rfl (.inl ?_) r.offer?_nextInput (ended_nextInput r)
      rw [Relay.nextInput, hinputs]
      rfl
    · refine .turn hr (.inl hphase) rfl (.inl rfl) rfl ?_
      intro hended
      cases hended
  | accept hr hphase hinput hs hoffer => exact .accept hr hphase hinput hs hoffer
  | @closed i input r s hr hphase hinput hs hfinished =>
    obtain ⟨rest, hinputs⟩ := List.head?_eq_some_iff.mp hinput
    refine .turn hr (.inr hphase) rfl (.inr ⟨input, ?_, s, hs, hfinished⟩) r.offer?_nextInput
      (ended_nextInput r)
    rw [Relay.nextInput, hinputs]
    rfl
  | recheck hr hphase hwhy =>
    rw [hwhy] at huncancelled
    cases huncancelled
  | giveUp hs hoffer hwhy => exact absurd rfl (hgive _)
  | cancel => cases hcancelled

/-- Who is to take an offer is there. -/
theorem isRead_of_offer {item : α} (h : Forwards plan n.stations)
    (ht : n.stations[i]? = some t) (hj : j ∈ plan i) (hs : n.stations[j]? = some s)
    (hoffer : s.offer? = some item) : n.isRead j = true := by
  have hplace : t.Forwards n.stations (plan i) := h i t ht
  have hopen : ¬ ClosedAt n.stations j := by
    rintro ⟨s', hs', hfinished⟩
    rw [hs, Option.some.injEq] at hs'
    rw [← hs', Station.isFinished_of_offer hoffer] at hfinished
    cases hfinished
  cases t with
  | generator items =>
    have hnone : plan i = [] := hplace
    rw [hnone] at hj
    cases hj
  | relay r =>
    have hplace : r.Forwards n.stations (plan i) := hplace
    have hinput : j ∈ r.inputs := (hplace.others j hj).resolve_right hopen
    have hreads : (Station.relay r).reads j = true := by
      cases hphase : r.phase with
      | finished =>
        rw [hplace.ended hphase] at hinput
        cases hinput
      | checking | receiving | offering => simpa [Station.reads, hphase] using hinput
    rw [isRead, Bool.or_eq_true, List.any_eq_true]
    exact Or.inr ⟨_, List.mem_of_getElem? ht, hreads⟩

end Network

section Advance

variable {n n' : Network α} {plan : Nat → List Nat}

/-- A station that offers an item is none that waits for one. -/
theorem ne_of_offer {l : List (Station α)} {i j : Nat} {r : Relay α} {s : Station α} {item : α}
    (hr : l[i]? = some (.relay r)) (hphase : r.phase = .receiving) (hs : l[j]? = some s)
    (hoffer : s.offer? = some item) : j ≠ i := by
  rintro rfl
  rw [hr, Option.some.injEq] at hs
  rw [← hs, Station.offer?, hphase] at hoffer
  cases hoffer

/-- **Plans are kept.** -/
theorem Forwards.advance (h : Forwards plan n.stations) (hadvances : n.Advances n') :
    Forwards plan n'.stations := by
  cases hadvances with
  | read hs hoffer =>
    exact h.set hs (Station.isFinished_of_offer hoffer) (h _ _ hs).offerTaken
  | @accept i input r s item hr hphase hinput hs hoffer =>
    have hne : input ≠ i := ne_of_offer hr hphase hs hoffer
    have hpassed : Forwards plan (n.stations.set input s.offerTaken) :=
      h.set hs (Station.isFinished_of_offer hoffer) (h _ _ hs).offerTaken
    have hr' : (n.stations.set input s.offerTaken)[i]? = some (.relay r) := by
      rw [List.getElem?_set_ne hne, hr]
    have hplace : r.Forwards (n.stations.set input s.offerTaken) (plan i) := hpassed i _ hr'
    refine hpassed.set hr' (isFinished_of_idle (.inr hphase)) ?_
    rw [Relay.accept_of_action hplace.action]
    exact hplace.of_inputs rfl rfl nofun
  | @turn i r r' hr hphase haction hinputs hidle hended =>
    have hplace : r.Forwards n.stations (plan i) := h i _ hr
    refine h.set hr (isFinished_of_idle hphase) ?_
    rcases hinputs with hinputs | ⟨j, hinputs, hclosed⟩
    · exact {
        action := haction.trans hplace.action
        within := hinputs ▸ hplace.within
        others := hinputs ▸ hplace.others
        ended := hended }
    · exact {
        action := haction.trans hplace.action
        within := fun k hk => hplace.within (hinputs ▸ List.mem_cons_of_mem j hk)
        others := fun k hk => by
          rcases hplace.others k hk with hreads | hend
          · rw [hinputs, List.mem_cons] at hreads
            rcases hreads with rfl | hreads
            · exact .inr hclosed
            · exact .inl hreads
          · exact .inr hend
        ended := hended }

/-! ## 4. Nothing is lost -/

/-- **Items are not lost on their way**, and no others come up. -/
theorem Network.Advances.conserves (hadvances : n.Advances n')
    (h : Forwards plan n.stations) :
    (n'.received ++ n'.stations.flatMap Station.stock) ~
      (n.received ++ n.stations.flatMap Station.stock) := by
  cases hadvances with
  | @read s item hs hoffer =>
    have hstock := flatMap_set_passes hs (Station.stock_gives hoffer)
    rw [List.append_nil] at hstock
    calc
      (n.received ++ [item]) ++ (n.stations.set n.outlet s.offerTaken).flatMap Station.stock
          = n.received ++ ([item] ++
              (n.stations.set n.outlet s.offerTaken).flatMap Station.stock) :=
            List.append_assoc _ _ _
      _ ~ n.received ++ n.stations.flatMap Station.stock := hstock.symm.append_left _
  | @accept i input r s item hr hphase hinput hs hoffer =>
    have hne : input ≠ i := ne_of_offer hr hphase hs hoffer
    have hr' : (n.stations.set input s.offerTaken)[i]? = some (.relay r) := by
      rw [List.getElem?_set_ne hne, hr]
    have hplace : r.Forwards n.stations (plan i) := h i _ hr
    have hgives := flatMap_set_passes hs (Station.stock_gives hoffer)
    have htakes := flatMap_set_passes hr' (stock_takes hplace.action hphase item)
    rw [List.append_nil] at hgives
    refine List.Perm.append_left n.received ?_
    calc
      ((n.stations.set input s.offerTaken).set i (.relay (r.accept item))).flatMap Station.stock
          ~ (n.stations.set input s.offerTaken).flatMap Station.stock ++ [item] := htakes.symm
      _ ~ [item] ++ (n.stations.set input s.offerTaken).flatMap Station.stock :=
          List.perm_append_comm
      _ ~ n.stations.flatMap Station.stock := hgives.symm
  | @turn i r r' hr hphase haction hinputs hidle hended =>
    have hnone : (Station.relay r).stock ++ [] = [] ++ (Station.relay r').stock := by
      rw [Station.stock_of_idle (offer?_of_idle hphase), Station.stock_of_idle hidle,
        List.append_nil]
    have hturns := flatMap_set_passes hr hnone
    rw [List.append_nil] at hturns
    exact hturns.symm.append_left n.received

end Advance

/-! ## 5. Networks in which all is read -/

namespace Network

/-- A network whose streams, but for the last one, are all in plans. -/
structure Planned (plan : Nat → List Nat) (n : Network α) : Prop where
  covered : ∀ j < n.stations.length, j = n.outlet ∨ ∃ i < n.stations.length, j ∈ plan i
  forwards : n.cancelled = false → Forwards plan n.stations

variable {plan : Nat → List Nat} {n n' : Network α} {m : Move}

/-- **No offer is given up before cancellation.** -/
theorem Planned.ne_giveUp (h : n.Planned plan) (hstep : n.Step m n')
    (hcancelled : n.cancelled = false) : ∀ i, m ≠ .giveUp i := by
  rintro i rfl
  cases hstep with
  | giveUp hs hoffer hwhy =>
    have hread : n.isRead i = true := by
      rcases h.covered i (lt_of_getElem?_eq_some hs) with rfl | ⟨k, hk, hi⟩
      · simp [isRead]
      · exact isRead_of_offer (h.forwards hcancelled) (List.getElem?_eq_getElem hk) hi hs hoffer
    rw [hcancelled, hread] at hwhy
    rcases hwhy with hwhy | hwhy <;> cases hwhy

theorem Planned.advances (h : n.Planned plan) (hstep : n.Step m n')
    (hcancelled : n'.cancelled = false) : n.Advances n' :=
  hstep.advances hcancelled (h.ne_giveUp hstep (hstep.uncancelled hcancelled))

theorem Planned.step (h : n.Planned plan) (hstep : n.Step m n') : n'.Planned plan where
  covered := by
    rw [hstep.length_eq, hstep.outlet_eq]
    exact h.covered
  forwards hcancelled :=
    (h.forwards (hstep.uncancelled hcancelled)).advance (h.advances hstep hcancelled)

end Network
end StoreQL.Concurrency
