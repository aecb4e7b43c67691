/-
# Chains of stations

In a chain, station 0 is a generator, and station `k + 1` is a relay that reads stream `k`. What is
still to come out of a stream can be read off the stations before it (`toCome`): what the station
holds comes first, and then what it makes of all that is still to come to it.

Items that pass from one station to the next do not change what is to come out of the last one, and
a station that gives up only cuts off its end. So what was received and what is still to come make
up, until the token is cancelled, the whole of the items (`Flows.whole`), and a prefix of that ever
after (`Flows.within`). That a station gives up before cancellation is excluded by `Flows.closed`: a
relay that has finished has read its stream to the end.

Main statements: `Flows.step` and `Flows.reaches`, that one move and any moves keep all this.
-/
import StoreQL.Proofs.Concurrency.Stream

namespace StoreQL.Concurrency

variable {α : Type}

/-! ## 1. What is still to come -/

/-- What a station has still to give, where `upstream` is what has still to come to it. -/
def Station.toGive (upstream : List α) : Station α → List α
  | .generator items => items
  | .relay r =>
    match r.phase with
    | .checking | .receiving => upstream.filterMap r.action
    | .offering item => item :: upstream.filterMap r.action
    | .finished => []

/-- What is still to come out of the last of the first `k` stations, each of which reads the one
before it. -/
def toCome (stations : List (Station α)) : Nat → List α
  | 0 => []
  | k + 1 =>
    match stations[k]? with
    | some s => s.toGive (toCome stations k)
    | none => []

namespace Station

variable {s : Station α} {item : α}

theorem toGive_of_offer (h : s.offer? = some item) (upstream : List α) :
    s.toGive upstream = item :: s.offerTaken.toGive upstream := by
  cases s with
  | generator items =>
    cases items with
    | nil => cases h
    | cons x items =>
      cases h
      rfl
  | relay r =>
    obtain ⟨inputs, action, phase⟩ := r
    cases phase with
    | offering x =>
      cases h
      rfl
    | checking | receiving | finished => cases h

theorem toGive_of_finished (h : s.isFinished = true) (upstream : List α) :
    s.toGive upstream = [] := by
  cases s with
  | generator items => exact List.isEmpty_iff.mp h
  | relay r =>
    have hphase : r.phase = .finished := isFinished_relay.mp h
    rw [toGive, hphase]

theorem toGive_giveUp (s : Station α) (upstream : List α) : s.giveUp.toGive upstream = [] := by
  cases s <;> rfl

/-- A relay that takes an item gives what it makes of it. -/
theorem toGive_accept {r : Relay α} (h : r.phase = .receiving) (item : α) (upstream : List α) :
    (Station.relay (r.accept item)).toGive upstream =
      (Station.relay r).toGive (item :: upstream) := by
  have hwaits : (Station.relay r).toGive (item :: upstream) =
      (item :: upstream).filterMap r.action := by rw [toGive, h]
  rw [hwaits, Relay.accept, List.filterMap_cons]
  cases r.action item <;> rfl

/-- More to come to a station is more to come out of it. -/
theorem toGive_mono {upstream upstream' : List α} (h : upstream' <+: upstream) (s : Station α) :
    s.toGive upstream' <+: s.toGive upstream := by
  cases s with
  | generator items => exact List.prefix_refl _
  | relay r =>
    obtain ⟨inputs, action, phase⟩ := r
    cases phase with
    | checking | receiving => exact h.filterMap action
    | offering item => exact (List.cons_prefix_cons.mpr ⟨rfl, h.filterMap action⟩)
    | finished => exact List.prefix_refl _

end Station

section ToCome

variable {l l' : List (Station α)} {s s' : Station α} {i k m : Nat}

theorem toCome_succ (h : l[k]? = some s) : toCome l (k + 1) = s.toGive (toCome l k) := by
  rw [toCome, h]

theorem toCome_congr (h : ∀ j < k, l'[j]? = l[j]?) : toCome l' k = toCome l k := by
  induction k with
  | zero => rfl
  | succ k ih =>
    rw [toCome, toCome, h k (Nat.lt_succ_self k), ih fun j hj => h j (Nat.lt_succ_of_lt hj)]

theorem toCome_set_of_le (hk : k ≤ i) : toCome (l.set i s) k = toCome l k := by
  refine toCome_congr fun j hj => ?_
  rw [List.getElem?_set_ne (by omega)]

theorem toCome_set_succ (h : l[i]? = some s) :
    toCome (l.set i s') (i + 1) = s'.toGive (toCome l i) := by
  have hset : (l.set i s')[i]? = some s' := by rw [getElem?_set_of_eq_some h, if_pos rfl]
  rw [toCome_succ hset, toCome_set_of_le (Nat.le_refl i)]

/-- Where the stations are the same from place `k` on, what comes out of them compares as what comes
to them. -/
theorem toCome_related {R : List α → List α → Prop}
    (hgive : ∀ (s : Station α) {x y : List α}, R x y → R (s.toGive x) (s.toGive y)) (hnil : R [] [])
    (hsame : ∀ j, k ≤ j → l'[j]? = l[j]?) (h : R (toCome l' k) (toCome l k)) (hkm : k ≤ m) :
    R (toCome l' m) (toCome l m) := by
  obtain ⟨d, rfl⟩ := Nat.exists_eq_add_of_le hkm
  clear hkm
  induction d with
  | zero => exact h
  | succ d ih =>
    rw [← Nat.add_assoc, toCome, toCome, hsame (k + d) (Nat.le_add_right k d)]
    cases l[k + d]? with
    | none => exact hnil
    | some s => exact hgive s ih

theorem toCome_eq_of_eq (hsame : ∀ j, k ≤ j → l'[j]? = l[j]?) (h : toCome l' k = toCome l k)
    (hkm : k ≤ m) : toCome l' m = toCome l m :=
  toCome_related (R := Eq) (fun s _ _ hxy => congrArg (fun x => Station.toGive x s) hxy) rfl hsame h
    hkm

theorem toCome_isPrefix (hsame : ∀ j, k ≤ j → l'[j]? = l[j]?)
    (h : toCome l' k <+: toCome l k) (hkm : k ≤ m) : toCome l' m <+: toCome l m :=
  toCome_related (R := List.IsPrefix) (fun s _ _ hxy => s.toGive_mono hxy) (List.prefix_refl [])
    hsame h hkm

theorem getElem?_set_of_lt (j : Nat) (hj : i + 1 ≤ j) : (l.set i s')[j]? = l[j]? :=
  List.getElem?_set_ne (by omega)

/-- A station that gives the same as before: the same comes out of all. -/
theorem toCome_set_eq (h : l[i]? = some s)
    (hgive : s'.toGive (toCome l i) = s.toGive (toCome l i)) (hm : i + 1 ≤ m) :
    toCome (l.set i s') m = toCome l m := by
  refine toCome_eq_of_eq getElem?_set_of_lt ?_ hm
  rw [toCome_set_succ h, hgive, toCome_succ h]

/-- A station that gives nothing more: what comes out of all is cut off. -/
theorem toCome_set_cut (h : l[i]? = some s) (hgive : s'.toGive (toCome l i) = [])
    (hm : i + 1 ≤ m) : toCome (l.set i s') m <+: toCome l m := by
  refine toCome_isPrefix getElem?_set_of_lt ?_ hm
  rw [toCome_set_succ h, hgive]
  exact List.nil_prefix

/-- An item passes from one station to the next: the same comes out of all. -/
theorem toCome_accept {r : Relay α} {item : α} (hs : l[k]? = some s)
    (hoffer : s.offer? = some item) (hr : l[k + 1]? = some (.relay r))
    (hphase : r.phase = .receiving) (hm : k + 2 ≤ m) :
    toCome ((l.set k s.offerTaken).set (k + 1) (.relay (r.accept item))) m = toCome l m := by
  have hr' : (l.set k s.offerTaken)[k + 1]? = some (.relay r) := by
    rw [getElem?_set_of_lt _ (Nat.le_refl _), hr]
  have hsame : ∀ j, k + 2 ≤ j →
      ((l.set k s.offerTaken).set (k + 1) (.relay (r.accept item)))[j]? = l[j]? := by
    intro j hj
    rw [getElem?_set_of_lt j hj, getElem?_set_of_lt j (by omega)]
  refine toCome_eq_of_eq hsame ?_ hm
  calc
    toCome ((l.set k s.offerTaken).set (k + 1) (.relay (r.accept item))) (k + 2)
        = (Station.relay (r.accept item)).toGive (toCome (l.set k s.offerTaken) (k + 1)) :=
          toCome_set_succ hr'
    _ = (Station.relay r).toGive (item :: s.offerTaken.toGive (toCome l k)) := by
        rw [toCome_set_succ hs, Station.toGive_accept hphase]
    _ = toCome l (k + 2) := by
        rw [toCome_succ hr, toCome_succ hs, Station.toGive_of_offer hoffer]

end ToCome

/-! ## 2. Chains -/

/-- How a station stands at place `k` of a chain: a generator first, and then relays of which each
reads the stream before it, until it has finished. -/
def Station.InChain (k : Nat) (s : Station α) : Prop :=
  match k with
  | 0 => ∃ items, s = .generator items
  | k + 1 => ∃ r, s = .relay r ∧ (r.phase = .finished ∨ r.inputs = [k])

namespace Station

variable {s : Station α} {r : Relay α} {item : α} {k : Nat}

theorem InChain.of_inputs {r' : Relay α} (h : (Station.relay r).InChain k)
    (hphase : r.phase ≠ .finished) (hinputs : r'.inputs = r.inputs) :
    (Station.relay r').InChain k := by
  cases k with
  | zero =>
    obtain ⟨items, heq⟩ := h
    cases heq
  | succ k =>
    obtain ⟨_, heq, hfinished | hread⟩ := h
    · cases heq
      exact absurd hfinished hphase
    · cases heq
      exact ⟨r', rfl, Or.inr (hinputs.trans hread)⟩

theorem InChain.of_finished {r' : Relay α} (h : (Station.relay r).InChain k)
    (hphase : r'.phase = .finished) : (Station.relay r').InChain k := by
  cases k with
  | zero =>
    obtain ⟨items, heq⟩ := h
    cases heq
  | succ k => exact ⟨r', rfl, Or.inl hphase⟩

theorem InChain.generator {items items' : List α} (h : (Station.generator items).InChain k) :
    (Station.generator items').InChain k := by
  cases k with
  | zero => exact ⟨items', rfl⟩
  | succ k =>
    obtain ⟨_, heq, -⟩ := h
    cases heq

theorem phase_of_offer (h : (Station.relay r).offer? = some item) : r.phase = .offering item := by
  obtain ⟨inputs, action, phase⟩ := r
  cases phase with
  | offering x =>
    cases h
    rfl
  | checking | receiving | finished => cases h

theorem InChain.offerTaken (h : s.InChain k) (hoffer : s.offer? = some item) :
    s.offerTaken.InChain k := by
  cases s with
  | generator items => exact h.generator
  | relay r => exact h.of_inputs (by rw [phase_of_offer hoffer]; nofun) rfl

theorem InChain.giveUp (h : s.InChain k) : s.giveUp.InChain k := by
  cases s with
  | generator items => exact h.generator
  | relay r => exact h.of_finished rfl

/-- A relay whose offer was taken goes on. -/
theorem phase_of_offerTaken (h : s.offerTaken = .relay r) : r.phase = .checking := by
  cases s with
  | generator items => cases h
  | relay r' =>
    cases h
    rfl

end Station

/-- Stations that stand as in a chain. -/
def IsChain (l : List (Station α)) : Prop := ∀ k (s : Station α), l[k]? = some s → s.InChain k

/-- A relay that has finished has read its stream to the end. -/
def ReadToEnd (l : List (Station α)) : Prop :=
  ∀ k r, l[k + 1]? = some (.relay r) → r.phase = .finished →
    ∃ s, l[k]? = some s ∧ s.isFinished = true

section Replaced

variable {l : List (Station α)} {i : Nat} {s s' : Station α}

/-- A chain is kept where a station is replaced by one that may stand there as well. -/
theorem IsChain.set (h : IsChain l) (hs : l[i]? = some s) (hs' : s'.InChain i) :
    IsChain (l.set i s') := by
  intro k t ht
  rw [getElem?_set_of_eq_some hs] at ht
  split at ht
  · rename_i hik
    cases ht
    exact hik ▸ hs'
  · exact h k t ht

/-- Relays that have finished have read their streams to the end, also where a station is replaced
that had not finished, if it has finished only because the stream before it has. -/
theorem ReadToEnd.set (h : ReadToEnd l) (hs : l[i]? = some s) (hrunning : s.isFinished = false)
    (hend : ∀ k r, i = k + 1 → s' = .relay r → r.phase = .finished →
      ∃ t, l[k]? = some t ∧ t.isFinished = true) : ReadToEnd (l.set i s') := by
  intro k r hr hphase
  rw [getElem?_set_of_eq_some hs] at hr
  rw [getElem?_set_of_eq_some hs]
  by_cases hnext : i = k + 1
  · -- The station itself was replaced, and the one before it was not.
    rw [if_pos hnext, Option.some.injEq] at hr
    rw [if_neg (by omega)]
    exact hend k r hnext hr hphase
  · rw [if_neg hnext] at hr
    obtain ⟨t, ht, hfinished⟩ := h k r hr hphase
    have hne : i ≠ k := by
      rintro rfl
      rw [hs, Option.some.injEq] at ht
      rw [ht, hfinished] at hrunning
      cases hrunning
    rw [if_neg hne]
    exact ⟨t, ht, hfinished⟩

/-- A station whose offer was taken has not finished, unless it is a generator, which reads
nothing. -/
theorem ReadToEnd.offerTaken {item : α} (h : ReadToEnd l) (hs : l[i]? = some s)
    (hoffer : s.offer? = some item) : ReadToEnd (l.set i s.offerTaken) := by
  refine h.set hs (Station.isFinished_of_offer hoffer) fun k r _ htaken hphase => ?_
  rw [Station.phase_of_offerTaken htaken] at hphase
  cases hphase

end Replaced

/-! ## 3. What one move keeps -/

namespace Network

/-- What was received, and what is still to come. -/
def allItems (n : Network α) : List α := n.received ++ toCome n.stations n.stations.length

/-- A chain whose items are those of `whole`, so far as they were received or are still to come. -/
structure Flows (whole : List α) (n : Network α) : Prop where
  chain : IsChain n.stations
  outlet : n.outlet + 1 = n.stations.length
  within : n.allItems <+: whole
  whole : n.cancelled = false → n.allItems = whole
  closed : n.cancelled = false → ReadToEnd n.stations

variable {whole : List α} {n n' : Network α} {i k : Nat} {s s' : Station α} {r : Relay α}

/-- A relay of a chain that has not finished reads the stream before its own. -/
theorem Flows.relay (h : n.Flows whole) (hr : n.stations[i]? = some (.relay r))
    (hphase : r.phase ≠ .finished) : ∃ k, i = k + 1 ∧ r.inputs = [k] := by
  have hplace := h.chain i _ hr
  cases i with
  | zero =>
    obtain ⟨items, heq⟩ := hplace
    cases heq
  | succ k =>
    obtain ⟨r', heq, hfinished | hinputs⟩ := hplace
    · cases heq
      exact absurd hfinished hphase
    · cases heq
      exact ⟨k, rfl, hinputs⟩

theorem Flows.receiver {input : Nat} (h : n.Flows whole) (hr : n.stations[i]? = some (.relay r))
    (hphase : r.phase = .receiving) (hinput : r.inputs.head? = some input) :
    i = input + 1 ∧ r.inputs = [input] := by
  obtain ⟨k, rfl, hinputs⟩ := h.relay hr (by rw [hphase]; nofun)
  rw [hinputs] at hinput ⊢
  cases hinput
  exact ⟨rfl, rfl⟩

/-- A station is replaced by one that gives the same. -/
theorem Flows.setStation (h : n.Flows whole) (hs : n.stations[i]? = some s)
    (hplace : s'.InChain i)
    (hgive : s'.toGive (toCome n.stations i) = s.toGive (toCome n.stations i))
    (hrunning : s.isFinished = false)
    (hend : ∀ k r, i = k + 1 → s' = .relay r → r.phase = .finished →
      ∃ t, n.stations[k]? = some t ∧ t.isFinished = true) : (n.setStation i s').Flows whole := by
  have hitems : (n.setStation i s').allItems = n.allItems := by
    simp only [allItems, Network.setStation, List.length_set]
    rw [toCome_set_eq hs hgive (lt_of_getElem?_eq_some hs)]
  exact {
    chain := h.chain.set hs hplace
    outlet := by
      simp only [Network.setStation, List.length_set]
      exact h.outlet
    within := hitems ▸ h.within
    whole := fun hcancelled => hitems ▸ h.whole hcancelled
    closed := fun hcancelled => (h.closed hcancelled).set hs hrunning hend }

/-- After cancellation, a station is replaced by one that gives nothing more. -/
theorem Flows.setStation_of_cancelled (h : n.Flows whole) (hcancelled : n.cancelled = true)
    (hs : n.stations[i]? = some s) (hplace : s'.InChain i)
    (hgive : s'.toGive (toCome n.stations i) = []) : (n.setStation i s').Flows whole := by
  have hitems : (n.setStation i s').allItems <+: n.allItems := by
    simp only [allItems, Network.setStation, List.length_set]
    exact (List.prefix_append_right_inj _).mpr
      (toCome_set_cut hs hgive (lt_of_getElem?_eq_some hs))
  have hnot : (n.setStation i s').cancelled ≠ false := by
    simp only [Network.setStation, hcancelled]
    nofun
  exact {
    chain := h.chain.set hs hplace
    outlet := by
      simp only [Network.setStation, List.length_set]
      exact h.outlet
    within := hitems.trans h.within
    whole := fun huncancelled => absurd huncancelled hnot
    closed := fun huncancelled => absurd huncancelled hnot }

/-- The last stream is read. -/
theorem Flows.read {item : α} (h : n.Flows whole) (hs : n.stations[n.outlet]? = some s)
    (hoffer : s.offer? = some item) :
    Flows whole { n.setStation n.outlet s.offerTaken with received := n.received ++ [item] } := by
  have hitems : allItems
      { n.setStation n.outlet s.offerTaken with received := n.received ++ [item] } =
        n.allItems := by
    simp only [allItems, Network.setStation, List.length_set, ← h.outlet]
    rw [toCome_set_succ hs, toCome_succ hs, Station.toGive_of_offer hoffer, List.append_assoc]
    rfl
  exact {
    chain := h.chain.set hs ((h.chain _ _ hs).offerTaken hoffer)
    outlet := by
      simp only [Network.setStation, List.length_set]
      exact h.outlet
    within := hitems ▸ h.within
    whole := fun hcancelled => hitems ▸ h.whole hcancelled
    closed := fun hcancelled => (h.closed hcancelled).offerTaken hs hoffer }

/-- An item passes from one station to the next. -/
theorem Flows.accept {item : α} (h : n.Flows whole) (hr : n.stations[k + 1]? = some (.relay r))
    (hphase : r.phase = .receiving) (hs : n.stations[k]? = some s)
    (hoffer : s.offer? = some item) :
    Flows whole ((n.setStation k s.offerTaken).setStation (k + 1) (.relay (r.accept item))) := by
  have hitems : allItems
      ((n.setStation k s.offerTaken).setStation (k + 1) (.relay (r.accept item))) =
        n.allItems := by
    simp only [allItems, Network.setStation, List.length_set]
    rw [toCome_accept hs hoffer hr hphase (lt_of_getElem?_eq_some hr)]
  have hr' : (n.stations.set k s.offerTaken)[k + 1]? = some (.relay r) := by
    rw [getElem?_set_of_lt _ (Nat.le_refl _), hr]
  have hrunning : (Station.relay r).isFinished = false := by
    rw [Bool.eq_false_iff, ne_eq, Station.isFinished_relay, hphase]
    nofun
  have haccept : (r.accept item).inputs = r.inputs ∧ (r.accept item).phase ≠ .finished := by
    rw [Relay.accept]
    cases r.action item <;> exact ⟨rfl, nofun⟩
  exact {
    chain := by
      refine (h.chain.set hs ((h.chain _ _ hs).offerTaken hoffer)).set hr' ?_
      exact (h.chain _ _ hr).of_inputs (by rw [hphase]; nofun) haccept.1
    outlet := by
      simp only [Network.setStation, List.length_set]
      exact h.outlet
    within := hitems ▸ h.within
    whole := fun hcancelled => hitems ▸ h.whole hcancelled
    closed := fun hcancelled => by
      refine ((h.closed hcancelled).offerTaken hs hoffer).set hr' hrunning ?_
      intro _ r' _ heq hfinished
      cases heq
      exact absurd hfinished haccept.2 }

/-- A relay looks at the token. -/
theorem Flows.check (h : n.Flows whole) (hr : n.stations[i]? = some (.relay r))
    (hphase : r.phase = .checking) :
    (n.setStation i (.relay (r.check n.cancelled))).Flows whole := by
  obtain ⟨k, rfl, hinputs⟩ := h.relay hr (by rw [hphase]; nofun)
  have hrunning : (Station.relay r).isFinished = false := by
    rw [Bool.eq_false_iff, ne_eq, Station.isFinished_relay, hphase]
    nofun
  cases hcancelled : n.cancelled with
  | true =>
    have hend : r.check true = r.nextInput := by simp [Relay.check]
    have hphase' : r.nextInput.phase = .finished := by simp [Relay.nextInput, hinputs]
    rw [hend]
    refine h.setStation_of_cancelled hcancelled hr ((h.chain _ _ hr).of_finished hphase') ?_
    exact Station.toGive_of_finished (Station.isFinished_relay.mpr hphase') _
  | false =>
    have hgoes : r.check false = { r with phase := .receiving } := by simp [Relay.check, hinputs]
    rw [hgoes]
    refine h.setStation hr ((h.chain _ _ hr).of_inputs (by rw [hphase]; nofun) rfl) ?_ hrunning ?_
    · rw [Station.toGive, Station.toGive, hphase]
    · intro _ r' _ heq hfinished
      cases heq
      cases hfinished

/-- A relay finds its stream closed. -/
theorem Flows.closeRelay (h : n.Flows whole) (hr : n.stations[k + 1]? = some (.relay r))
    (hphase : r.phase = .receiving) (hinputs : r.inputs = [k]) (hs : n.stations[k]? = some s)
    (hfinished : s.isFinished = true) :
    (n.setStation (k + 1) (.relay r.nextInput)).Flows whole := by
  have hrunning : (Station.relay r).isFinished = false := by
    rw [Bool.eq_false_iff, ne_eq, Station.isFinished_relay, hphase]
    nofun
  have hphase' : r.nextInput.phase = .finished := by simp [Relay.nextInput, hinputs]
  refine h.setStation hr ((h.chain _ _ hr).of_finished hphase') ?_ hrunning ?_
  · -- Nothing is left to come to it.
    rw [toCome_succ hs, Station.toGive_of_finished hfinished,
      Station.toGive_of_finished (Station.isFinished_relay.mpr hphase'), Station.toGive, hphase]
    rfl
  · intro k' _ hk _ _
    cases hk
    exact ⟨s, hs, hfinished⟩

/-- A relay that waited looks at the token again. -/
theorem Flows.recheck (h : n.Flows whole) (hr : n.stations[i]? = some (.relay r))
    (hphase : r.phase = .receiving) :
    (n.setStation i (.relay { r with phase := .checking })).Flows whole := by
  have hrunning : (Station.relay r).isFinished = false := by
    rw [Bool.eq_false_iff, ne_eq, Station.isFinished_relay, hphase]
    nofun
  refine h.setStation hr ((h.chain _ _ hr).of_inputs (by rw [hphase]; nofun) rfl) ?_ hrunning ?_
  · rw [Station.toGive, Station.toGive, hphase]
  · intro _ r' _ heq hfinished
    cases heq
    cases hfinished

/-- Before cancellation, whoever is to take an offer is there. -/
theorem Flows.isRead_of_offer {item : α} (h : n.Flows whole) (hcancelled : n.cancelled = false)
    (hs : n.stations[i]? = some s) (hoffer : s.offer? = some item) : n.isRead i = true := by
  by_cases hlast : n.outlet = i
  · simp [isRead, hlast]
  · have hnext : i + 1 < n.stations.length := by
      have hlt : i < n.stations.length := lt_of_getElem?_eq_some hs
      have houtlet := h.outlet
      omega
    have hr := List.getElem?_eq_getElem hnext
    obtain ⟨r, heq, hplace⟩ := h.chain _ _ hr
    rw [heq] at hr
    have hphase : r.phase ≠ .finished := by
      intro hphase
      obtain ⟨t, ht, hfinished⟩ := h.closed hcancelled i r hr hphase
      rw [hs, Option.some.injEq] at ht
      rw [← ht, Station.isFinished_of_offer hoffer] at hfinished
      cases hfinished
    have hinputs : r.inputs = [i] := hplace.resolve_left hphase
    have hreads : (Station.relay r).reads i = true := by
      obtain ⟨inputs, action, phase⟩ := r
      cases hinputs
      cases phase with
      | checking | receiving | offering => simp [Station.reads]
      | finished => exact absurd rfl hphase
    rw [isRead, Bool.or_eq_true, List.any_eq_true]
    exact Or.inr ⟨_, List.mem_of_getElem? hr, hreads⟩

/-- **One move keeps it so.** -/
theorem Flows.step {m : Move} (h : n.Flows whole) (hstep : n.Step m n') : n'.Flows whole := by
  cases hstep with
  | read hs hoffer => exact h.read hs hoffer
  | check hr hphase => exact h.check hr hphase
  | accept hr hphase hinput hs hoffer =>
    obtain ⟨rfl, -⟩ := h.receiver hr hphase hinput
    exact h.accept hr hphase hs hoffer
  | closed hr hphase hinput hs hfinished =>
    obtain ⟨rfl, hinputs⟩ := h.receiver hr hphase hinput
    exact h.closeRelay hr hphase hinputs hs hfinished
  | recheck hr hphase hcancelled => exact h.recheck hr hphase
  | giveUp hs hoffer hwhy =>
    cases hcancelled : n.cancelled with
    | true =>
      exact h.setStation_of_cancelled hcancelled hs (h.chain _ _ hs).giveUp
        (Station.toGive_giveUp _ _)
    | false =>
      rcases hwhy with hwhy | hwhy
      · rw [hwhy] at hcancelled
        cases hcancelled
      · rw [h.isRead_of_offer hcancelled hs hoffer] at hwhy
        cases hwhy
  | cancel => exact ⟨h.chain, h.outlet, h.within, nofun, nofun⟩

/-- **Any moves keep it so**, in whatever order they are made. -/
theorem Flows.reaches (h : n.Flows whole) (hreaches : Reaches step? n n') : n'.Flows whole :=
  hreaches.keeps (fun hflows hmove => hflows.step (step_of_step? hmove)) h

end Network
end StoreQL.Concurrency
