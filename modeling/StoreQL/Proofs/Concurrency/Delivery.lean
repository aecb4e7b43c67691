/-
# A pipeline delivers the same under every schedule

A pipeline of filters and transformations behind a generator is a chain, and what is to come out of
it at first is what the stages make of the items, one after the other. Hence what is received under
any schedule is a prefix of that, and all of it when the last stream is closed before cancellation.

No schedule gets stuck before that (`Flows.not_stuck`), since a station of a chain that has nothing
to offer waits for one that has, and none goes on for ever (`Flows.rank_lt`), since every move of a
thread brings an item nearer to the end. So the schedule by which a pipeline is executed ends, with
the same items as every other.

Main statements: `pipeline_delivers`, what holds after any moves; and `execute_ofStages`, what the
execution of a pipeline gives.
-/
import Mathlib.Algebra.Order.BigOperators.Group.List
import Mathlib.Algebra.Order.Group.Nat
import StoreQL.Concurrency.Pipeline
import StoreQL.Proofs.Concurrency.Chain

namespace StoreQL.Concurrency

variable {α : Type}

namespace Network

variable {whole : List α} {n n' : Network α} {i k : Nat} {s s' : Station α} {r : Relay α}

/-! ## 1. Something can move until the last stream is closed -/

/-- Whether the last stream is closed. -/
def isClosed (n : Network α) : Bool :=
  match n.stations[n.outlet]? with
  | some s => s.isFinished
  | none => true

theorem read_mem_threadMoves (n : Network α) : Move.read ∈ n.threadMoves := List.mem_cons_self

theorem relayMoves_mem_threadMoves (hs : n.stations[i]? = some s) :
    Move.check i ∈ n.threadMoves ∧ Move.accept i ∈ n.threadMoves ∧
      Move.closed i ∈ n.threadMoves := by
  have hlt : i < n.stations.length := lt_of_getElem?_eq_some hs
  simp [threadMoves, hlt]

/-- Unless something can move, every station that has not finished offers an item: this goes from
one station of a chain to the next. -/
theorem Flows.moves_or_offers (h : n.Flows whole) :
    ∀ (i : Nat) (s : Station α), n.stations[i]? = some s → s.isFinished = false →
      (∃ m ∈ n.threadMoves, (n.step? m).isSome = true) ∨ ∃ item, s.offer? = some item := by
  intro i
  induction i with
  | zero =>
    intro s hs hrunning
    obtain ⟨items, rfl⟩ := h.chain 0 s hs
    cases items with
    | nil => cases hrunning
    | cons x items => exact Or.inr ⟨x, rfl⟩
  | succ k ih =>
    intro s hs hrunning
    obtain ⟨hcheck, haccept, hclosed⟩ := relayMoves_mem_threadMoves hs
    obtain ⟨r, rfl, hplace⟩ := h.chain (k + 1) s hs
    have hinputs : r.inputs = [k] := by
      refine hplace.resolve_left fun hphase => ?_
      rw [Station.isFinished_relay.mpr hphase] at hrunning
      cases hrunning
    cases hphase : r.phase with
    | checking =>
      refine Or.inl ⟨.check (k + 1), hcheck, ?_⟩
      simp [step?, relay?_eq_some_iff.mpr hs, hphase]
    | offering item => exact Or.inr ⟨item, by rw [Station.offer?, hphase]⟩
    | finished =>
      rw [Station.isFinished_relay.mpr hphase] at hrunning
      cases hrunning
    | receiving =>
      have hreceiver : n.receiver? (k + 1) = some (r, k) :=
        receiver?_eq_some_iff.mpr ⟨hs, hphase, by rw [hinputs]; rfl⟩
      have hlt : k < n.stations.length := Nat.lt_of_succ_lt (lt_of_getElem?_eq_some hs)
      have hbefore := List.getElem?_eq_getElem hlt
      cases hfinished : n.stations[k].isFinished with
      | true =>
        refine Or.inl ⟨.closed (k + 1), hclosed, ?_⟩
        simp [step?, hreceiver, hbefore, hfinished]
      | false =>
        rcases ih _ hbefore hfinished with hmoves | ⟨item, hoffer⟩
        · exact Or.inl hmoves
        · refine Or.inl ⟨.accept (k + 1), haccept, ?_⟩
          simp [step?, hreceiver, hbefore, hoffer]

/-- **Something can move until the last stream is closed.** -/
theorem Flows.not_stuck (h : n.Flows whole) (hopen : n.isClosed = false) :
    ∃ m ∈ n.threadMoves, (n.step? m).isSome = true := by
  cases hs : n.stations[n.outlet]? with
  | none => simp [isClosed, hs] at hopen
  | some s =>
    have hrunning : s.isFinished = false := by simpa [isClosed, hs] using hopen
    rcases h.moves_or_offers _ s hs hrunning with hmoves | ⟨item, hoffer⟩
    · exact hmoves
    · refine ⟨.read, read_mem_threadMoves n, ?_⟩
      simp [step?, hs, hoffer]

/-- When the last stream is closed, nothing is still to come. -/
theorem Flows.received_of_closed (h : n.Flows whole) (hcancelled : n.cancelled = false)
    (hclosed : n.isClosed = true) : n.received = whole := by
  have hlt : n.outlet < n.stations.length := by
    have houtlet := h.outlet
    omega
  have hs := List.getElem?_eq_getElem hlt
  have hfinished : n.stations[n.outlet].isFinished = true := by
    simpa [isClosed, hs] using hclosed
  have hall := h.whole hcancelled
  rwa [allItems, ← h.outlet, toCome_succ hs, Station.toGive_of_finished hfinished,
    List.append_nil] at hall

/-- When nothing can move, everything was received. -/
theorem Flows.received_of_stuck (h : n.Flows whole) (hcancelled : n.cancelled = false)
    (hstuck : ∀ m ∈ n.threadMoves, n.step? m = none) : n.received = whole := by
  refine h.received_of_closed hcancelled ?_
  by_contra hopen
  obtain ⟨m, hm, hmoves⟩ := h.not_stuck (Bool.eq_false_iff.mpr hopen)
  rw [hstuck m hm] at hmoves
  cases hmoves

theorem Flows.received_within (h : n.Flows whole) : n.received <+: whole :=
  (List.prefix_append _ _).trans h.within

/-! ## 2. The network of a pipeline -/

/-- A chain in which nothing has moved. -/
structure Fresh (whole : List α) (n : Network α) : Prop where
  flows : n.Flows whole
  received : n.received = []
  cancelled : n.cancelled = false
  idle : ∀ (k : Nat) (r : Relay α), n.stations[k]? = some (.relay r) → r.phase = .checking

theorem source_fresh (items : List α) : (source items).Fresh items where
  flows := {
    chain := fun k s hs => by
      cases k with
      | zero => exact ⟨items, (Option.some.inj hs).symm⟩
      | succ k => simp [source] at hs
    outlet := rfl
    within := List.prefix_refl _
    whole := fun _ => rfl
    closed := fun _ k r hr _ => by simp [source] at hr }
  received := rfl
  cancelled := rfl
  idle k r hr := by cases k <;> simp [source] at hr

theorem attach_getElem?_last (n : Network α) (action : α → Option α) :
    (n.attach action).stations[n.stations.length]? = some (.relay (.start [n.outlet] action)) := by
  rw [Network.attach, List.getElem?_concat_length]

theorem attach_getElem?_of_lt (n : Network α) (action : α → Option α) {k : Nat}
    (hk : k < n.stations.length) : (n.attach action).stations[k]? = n.stations[k]? := by
  rw [Network.attach, List.getElem?_append_left hk]

/-- A station of the network with a relay behind it is one of the network, or the relay. -/
theorem attach_getElem?_eq_some {action : α → Option α}
    (hs : (n.attach action).stations[k]? = some s) : n.stations[k]? = some s ∨
      k = n.stations.length ∧ s = .relay (.start [n.outlet] action) := by
  rcases Nat.lt_trichotomy k n.stations.length with hlt | rfl | hgt
  · exact Or.inl (attach_getElem?_of_lt n action hlt ▸ hs)
  · rw [attach_getElem?_last, Option.some.injEq] at hs
    exact Or.inr ⟨rfl, hs.symm⟩
  · have hend : k < (n.attach action).stations.length := lt_of_getElem?_eq_some hs
    simp only [Network.attach, List.length_append, List.length_singleton] at hend
    omega

/-- What is to come out of a relay is what it makes of what was to come to it. -/
theorem Fresh.allItems_attach (h : n.Fresh whole) (action : α → Option α) :
    (n.attach action).allItems = whole.filterMap action := by
  have hbefore : toCome (n.attach action).stations n.stations.length =
      toCome n.stations n.stations.length :=
    toCome_congr fun j hj => attach_getElem?_of_lt n action hj
  have hall : toCome n.stations n.stations.length = whole := by
    have hwhole := h.flows.whole h.cancelled
    rwa [allItems, h.received, List.nil_append] at hwhole
  have hlength : (n.attach action).stations.length = n.stations.length + 1 := by
    rw [Network.attach, List.length_append, List.length_singleton]
  have hreceived : (n.attach action).received = [] := h.received
  rw [allItems, hreceived, List.nil_append, hlength, toCome_succ (attach_getElem?_last n action),
    hbefore, hall]
  rfl

/-- A relay is laid behind a chain. -/
theorem Fresh.attach (h : n.Fresh whole) (action : α → Option α) :
    (n.attach action).Fresh (whole.filterMap action) where
  flows := {
    chain := fun k s hs => by
      rcases attach_getElem?_eq_some hs with hold | ⟨rfl, rfl⟩
      · exact h.flows.chain k s hold
      · rw [← h.flows.outlet]
        exact ⟨_, rfl, Or.inr rfl⟩
    outlet := by simp [Network.attach]
    within := h.allItems_attach action ▸ List.prefix_refl _
    whole := fun _ => h.allItems_attach action
    closed := fun _ k r hr hphase => by
      rcases attach_getElem?_eq_some hr with hold | ⟨-, heq⟩
      · obtain ⟨s, hs, hfinished⟩ := h.flows.closed h.cancelled k r hold hphase
        exact ⟨s, attach_getElem?_of_lt n action (lt_of_getElem?_eq_some hs) ▸ hs, hfinished⟩
      · cases heq
        cases hphase }
  received := h.received
  cancelled := h.cancelled
  idle k r hr := by
    rcases attach_getElem?_eq_some hr with hold | ⟨-, heq⟩
    · exact h.idle k r hold
    · cases heq
      rfl

end Network

/-- A stage that looks at each item on its own. -/
inductive ItemStage (α : Type) where
  | filter (keep : α → Bool)
  | transform (f : α → α)

namespace ItemStage

/-- The stage as a stage of a pipeline. -/
def stage : ItemStage α → PipelineStage α
  | .filter keep => .filter keep
  | .transform f => .transform f

/-- What the stage makes of a list. -/
def onList : ItemStage α → List α → List α
  | .filter keep, l => l.filter keep
  | .transform f, l => l.map f

theorem attachStage_fresh {n : Network α} {whole : List α} (h : n.Fresh whole)
    (s : ItemStage α) : (Pipeline.attachStage n s.stage).Fresh (s.onList whole) := by
  cases s with
  | filter keep =>
    have hfresh := h.attach (fun x => if keep x then some x else none)
    have hkeep : whole.filterMap (fun x => if keep x then some x else none) =
        whole.filter keep := by
      rw [← List.filterMap_eq_filter]
      rfl
    rw [hkeep] at hfresh
    exact hfresh
  | transform f =>
    have hfresh := h.attach (fun x => some (f x))
    have hmap : whole.filterMap (fun x => some (f x)) = whole.map f := by
      rw [← List.filterMap_eq_map]
      rfl
    rw [hmap] at hfresh
    exact hfresh

end ItemStage

/-- The pipeline of some stages. -/
def Pipeline.ofStages (stages : List (ItemStage α)) : Pipeline α :=
  stages.foldl (fun p s => p.stage s.stage) Pipeline.empty

/-- What some stages make of a list, one after the other. -/
def applyStages (stages : List (ItemStage α)) (items : List α) : List α :=
  stages.foldl (fun l s => s.onList l) items

theorem Pipeline.stages_ofStages (stages : List (ItemStage α)) :
    (Pipeline.ofStages stages).stages = stages.map ItemStage.stage := by
  have hall : ∀ (p : Pipeline α),
      (stages.foldl (fun p s => p.stage s.stage) p).stages =
        p.stages ++ stages.map ItemStage.stage := by
    induction stages with
    | nil =>
      intro p
      exact (List.append_nil _).symm
    | cons s stages ih =>
      intro p
      rw [List.foldl_cons, ih]
      simp [Pipeline.stage]
  exact hall Pipeline.empty

theorem Pipeline.network_fresh (stages : List (ItemStage α)) (items : List α) :
    ((Pipeline.ofStages stages).network (.source items)).Fresh (applyStages stages items) := by
  rw [Pipeline.network, Pipeline.stages_ofStages, applyStages, List.foldl_map]
  have hall : ∀ (n : Network α) (whole : List α), n.Fresh whole →
      (stages.foldl (fun n s => Pipeline.attachStage n s.stage) n).Fresh
        (stages.foldl (fun l s => s.onList l) whole) := by
    induction stages with
    | nil =>
      intro n whole h
      exact h
    | cons s stages ih =>
      intro n whole h
      exact ih _ _ (s.attachStage_fresh h)
  exact hall _ _ (Network.source_fresh items)

/-! ## 3. No schedule goes on for ever -/

/-- How far a relay is from the end, beside what is still to come to it. -/
def RelayPhase.weight : RelayPhase α → Nat
  | .offering _ => 3
  | .checking => 2
  | .receiving => 1
  | .finished => 0

/-- How many moves a station has still to make, where so many items are still to come to it. -/
def Station.cost (upstream : Nat) : Station α → Nat
  | .generator _ => 0
  | .relay r => 3 * upstream + r.phase.weight

/-- How many moves are still to be made at a place: by the station that is there, or by the reader
behind the last one. -/
def costAt (l : List (Station α)) (k : Nat) : Nat :=
  match l[k]? with
  | some s => s.cost (toCome l k).length
  | none => (toCome l k).length

theorem Station.cost_offerTaken_le {s : Station α} {item : α} (h : s.offer? = some item)
    (upstream : Nat) : s.offerTaken.cost upstream ≤ s.cost upstream := by
  cases s with
  | generator items => exact Nat.le_refl _
  | relay r =>
    simp only [Station.offerTaken, Station.cost, Station.phase_of_offer h, RelayPhase.weight]
    omega

theorem Station.cost_accept_lt {r : Relay α} (h : r.phase = .receiving) (item : α)
    (upstream : Nat) :
    (Station.relay (r.accept item)).cost upstream < (Station.relay r).cost (upstream + 1) := by
  have hweight : (r.accept item).phase.weight ≤ 3 := by
    rw [Relay.accept]
    cases r.action item <;> simp [RelayPhase.weight]
  have hreceiving : r.phase.weight = 1 := by rw [h, RelayPhase.weight]
  simp only [Station.cost, hreceiving]
  omega

namespace Network

variable {whole : List α} {n n' : Network α} {i k : Nat} {s s' : Station α} {r : Relay α}

/-- How many moves are still to be made. -/
def rank (n : Network α) : Nat := ((List.range (n.stations.length + 1)).map (costAt n.stations)).sum

theorem rank_lt_of_costAt (hlength : n'.stations.length = n.stations.length)
    (hle : ∀ j ≤ n.stations.length, costAt n'.stations j ≤ costAt n.stations j)
    (hk : k ≤ n.stations.length) (hlt : costAt n'.stations k < costAt n.stations k) :
    n'.rank < n.rank := by
  rw [rank, rank, hlength]
  exact List.sum_lt_sum _ _ (fun j hj => hle j (Nat.le_of_lt_succ (List.mem_range.mp hj)))
    ⟨k, List.mem_range.mpr (Nat.lt_succ_of_le hk), hlt⟩

/-- A station that has made a move of its own, and gives the same. -/
theorem rank_setStation_lt (hs : n.stations[i]? = some s)
    (hgive : s'.toGive (toCome n.stations i) = s.toGive (toCome n.stations i))
    (hcost : s'.cost (toCome n.stations i).length < s.cost (toCome n.stations i).length) :
    (n.setStation i s').rank < n.rank := by
  have hcome : ∀ j, toCome (n.stations.set i s') j = toCome n.stations j := by
    intro j
    rcases Nat.lt_or_ge i j with hlt | hge
    · exact toCome_set_eq hs hgive hlt
    · exact toCome_set_of_le hge
  have hself : (n.stations.set i s')[i]? = some s' := by
    rw [getElem?_set_of_eq_some hs, if_pos rfl]
  have hi : costAt (n.stations.set i s') i < costAt n.stations i := by
    simp only [costAt, hself, hs, hcome]
    exact hcost
  refine rank_lt_of_costAt (k := i) (by simp [Network.setStation]) (fun j _ => ?_)
    (Nat.le_of_lt (lt_of_getElem?_eq_some hs)) hi
  by_cases hj : i = j
  · subst hj
    exact Nat.le_of_lt hi
  · simp only [costAt, Network.setStation, hcome, List.getElem?_set_ne hj]
    exact Nat.le_refl _

/-- An item is taken by the next station. -/
theorem rank_accept_lt {item : α} (hs : n.stations[k]? = some s) (hoffer : s.offer? = some item)
    (hr : n.stations[k + 1]? = some (.relay r)) (hphase : r.phase = .receiving) :
    ((n.setStation k s.offerTaken).setStation (k + 1) (.relay (r.accept item))).rank <
      n.rank := by
  have hr' : (n.stations.set k s.offerTaken)[k + 1]? = some (.relay r) := by
    rw [getElem?_set_of_lt _ (Nat.le_refl _), hr]
  have hnext : toCome ((n.stations.set k s.offerTaken).set (k + 1) (.relay (r.accept item)))
      (k + 1) = s.offerTaken.toGive (toCome n.stations k) := by
    rw [toCome_set_of_le (Nat.le_refl _), toCome_set_succ hs]
  have hcome : ∀ j, j ≠ k + 1 →
      toCome ((n.stations.set k s.offerTaken).set (k + 1) (.relay (r.accept item))) j =
        toCome n.stations j := by
    intro j hj
    rcases Nat.lt_or_ge (k + 1) j with hlt | hge
    · exact toCome_accept hs hoffer hr hphase hlt
    · rw [toCome_set_of_le hge, toCome_set_of_le (by omega)]
  have hlt : costAt ((n.stations.set k s.offerTaken).set (k + 1) (.relay (r.accept item)))
      (k + 1) < costAt n.stations (k + 1) := by
    simp only [costAt, hr, hnext, getElem?_set_of_eq_some hr', if_true, toCome_succ hs,
      Station.toGive_of_offer hoffer, List.length_cons]
    exact Station.cost_accept_lt hphase item _
  refine rank_lt_of_costAt (k := k + 1) (by simp [Network.setStation]) (fun j _ => ?_)
    (Nat.le_of_lt (lt_of_getElem?_eq_some hr)) hlt
  by_cases hj : j = k + 1
  · subst hj
    exact Nat.le_of_lt hlt
  · simp only [costAt, Network.setStation, hcome j hj, List.getElem?_set_ne (Ne.symm hj)]
    by_cases hjk : k = j
    · subst hjk
      simp only [getElem?_set_of_eq_some hs, if_true, hs]
      exact Station.cost_offerTaken_le hoffer _
    · rw [List.getElem?_set_ne hjk]

/-- An item is taken by the reader. -/
theorem rank_read_lt {item : α} (hs : n.stations[n.outlet]? = some s)
    (hoffer : s.offer? = some item) (houtlet : n.outlet + 1 = n.stations.length) :
    rank { n.setStation n.outlet s.offerTaken with received := n.received ++ [item] } <
      n.rank := by
  have hend : n.stations[n.outlet + 1]? = none := by
    rw [houtlet]
    exact List.getElem?_eq_none (Nat.le_refl _)
  have hend' : (n.stations.set n.outlet s.offerTaken)[n.outlet + 1]? = none := by
    rw [getElem?_set_of_lt _ (Nat.le_refl _), hend]
  have hlt : costAt (n.stations.set n.outlet s.offerTaken) (n.outlet + 1) <
      costAt n.stations (n.outlet + 1) := by
    simp only [costAt, hend, hend', toCome_set_succ hs, toCome_succ hs,
      Station.toGive_of_offer hoffer, List.length_cons]
    omega
  refine rank_lt_of_costAt (k := n.outlet + 1) (by simp [Network.setStation]) (fun j hj => ?_)
    (Nat.le_of_eq houtlet) hlt
  by_cases hlast : j = n.outlet + 1
  · subst hlast
    exact Nat.le_of_lt hlt
  · simp only [costAt, Network.setStation, toCome_set_of_le (show j ≤ n.outlet by omega)]
    by_cases hj' : n.outlet = j
    · subst hj'
      simp only [getElem?_set_of_eq_some hs, if_true, hs]
      exact Station.cost_offerTaken_le hoffer _
    · rw [List.getElem?_set_ne hj']

/-- **Every move of a thread brings the end nearer**, before cancellation. -/
theorem Flows.rank_lt {m : Move} (h : n.Flows whole) (hcancelled : n.cancelled = false)
    (hm : m ≠ .cancel) (hstep : n.Step m n') : n'.cancelled = false ∧ n'.rank < n.rank := by
  cases hstep with
  | read hs hoffer => exact ⟨hcancelled, rank_read_lt hs hoffer h.outlet⟩
  | @check i r hr hphase =>
    obtain ⟨k, rfl, hinputs⟩ := h.relay hr (by rw [hphase]; nofun)
    have hgoes : r.check n.cancelled = { r with phase := .receiving } := by
      simp [Relay.check, hinputs, hcancelled]
    refine ⟨hcancelled, rank_setStation_lt hr ?_ ?_⟩
    · rw [hgoes, Station.toGive, Station.toGive, hphase]
    · rw [hgoes, Station.cost, Station.cost, hphase]
      exact Nat.lt_succ_self _
  | accept hr hphase hinput hs hoffer =>
    obtain ⟨rfl, -⟩ := h.receiver hr hphase hinput
    exact ⟨hcancelled, rank_accept_lt hs hoffer hr hphase⟩
  | @closed i input r s hr hphase hinput hs hfinished =>
    obtain ⟨rfl, hinputs⟩ := h.receiver hr hphase hinput
    have hphase' : r.nextInput.phase = .finished := by simp [Relay.nextInput, hinputs]
    refine ⟨hcancelled, rank_setStation_lt hr ?_ ?_⟩
    · rw [toCome_succ hs, Station.toGive_of_finished hfinished,
        Station.toGive_of_finished (Station.isFinished_relay.mpr hphase'), Station.toGive, hphase]
      rfl
    · rw [Station.cost, Station.cost, hphase, hphase']
      exact Nat.lt_succ_self _
  | recheck hr hphase hcancelled' =>
    rw [hcancelled'] at hcancelled
    cases hcancelled
  | giveUp hs hoffer hwhy =>
    rcases hwhy with hwhy | hwhy
    · rw [hwhy] at hcancelled
      cases hcancelled
    · rw [h.isRead_of_offer hcancelled hs hoffer] at hwhy
      cases hwhy
  | cancel => exact absurd rfl hm

/-! ## 4. The execution of a pipeline -/

/-- Before anything has moved, no more is to come anywhere than the generators have. -/
theorem Fresh.toCome_le (h : n.Fresh whole) (k : Nat) :
    (toCome n.stations k).length ≤ n.pendingItems := by
  induction k with
  | zero => exact Nat.zero_le _
  | succ k ih =>
    cases hs : n.stations[k]? with
    | none =>
      rw [toCome, hs]
      exact Nat.zero_le _
    | some s =>
      rw [toCome_succ hs]
      cases s with
      | generator items =>
        have hmem : items ∈ n.stations.map Station.unoffered :=
          List.mem_map_of_mem (List.mem_of_getElem? hs)
        exact (List.sublist_flatten_of_mem hmem).length_le
      | relay r =>
        rw [Station.toGive, h.idle k r hs]
        exact Nat.le_trans (List.length_filterMap_le _ _) ih

theorem Fresh.costAt_le (h : n.Fresh whole) (k : Nat) :
    costAt n.stations k ≤ 3 * n.pendingItems + 2 := by
  have hcome : (toCome n.stations k).length ≤ n.pendingItems := h.toCome_le k
  unfold costAt
  cases hs : n.stations[k]? with
  | none =>
    show (toCome n.stations k).length ≤ _
    omega
  | some s =>
    cases s with
    | generator items => exact Nat.zero_le _
    | relay r =>
      have hweight : r.phase.weight = 2 := by rw [h.idle k r hs, RelayPhase.weight]
      simp only [Station.cost, hweight]
      omega

/-- A network has time enough to come to its end. -/
theorem Fresh.rank_le (h : n.Fresh whole) : n.rank ≤ n.moveBound := by
  have hcosts : ∀ c ∈ (List.range (n.stations.length + 1)).map (costAt n.stations),
      c ≤ 3 * n.pendingItems + 2 := by
    intro c hc
    obtain ⟨k, -, rfl⟩ := List.mem_map.mp hc
    exact h.costAt_le k
  calc
    n.rank ≤ (n.stations.length + 1) * (3 * n.pendingItems + 2) := by
      simpa [rank] using List.sum_le_card_nsmul _ _ hcosts
    _ ≤ (n.stations.length + 1) * (3 * (n.pendingItems + n.stations.length + 1)) :=
      Nat.mul_le_mul_left _ (by omega)
    _ = n.moveBound := Nat.mul_comm _ _

/-- At most one item is received at a time. -/
theorem Step.received_length_le {m : Move} (h : n.Step m n') :
    n'.received.length ≤ n.received.length + 1 := by
  cases h with
  | read => simp
  | check | accept | closed | recheck | giveUp | cancel => exact Nat.le_succ _

theorem ne_cancel_of_mem_threadMoves {m : Move} (h : m ∈ n.threadMoves) : m ≠ .cancel := by
  rintro rfl
  simp [threadMoves] at h

/-- A chain of which no more is received than up to a limit, before cancellation. -/
structure ReadUpTo (whole : List α) (limit : Option Nat) (n : Network α) : Prop where
  flows : n.Flows whole
  uncancelled : n.cancelled = false
  within : ∀ most, limit = some most → n.received.length ≤ most

variable {limit : Option Nat}

/-- Reading goes on within the limit until it is reached, and every move brings the end nearer. -/
theorem ReadUpTo.step {m : Move} (h : n.ReadUpTo whole limit)
    (hgoal : (limit == some n.received.length) = false) (hm : m ∈ n.threadMoves)
    (hstep : n.step? m = some n') : n'.ReadUpTo whole limit ∧ n'.rank < n.rank := by
  have hmove : n.Step m n' := step_of_step? hstep
  obtain ⟨hcancelled, hlt⟩ :=
    h.flows.rank_lt h.uncancelled (ne_cancel_of_mem_threadMoves hm) hmove
  refine ⟨⟨h.flows.step hmove, hcancelled, fun most hmost => ?_⟩, hlt⟩
  subst hmost
  have hle : n.received.length ≤ most := h.within most rfl
  have hne : most ≠ n.received.length := by simpa using hgoal
  have hone : n'.received.length ≤ n.received.length + 1 := hmove.received_length_le
  omega

/-- What was received when the limit is reached, or nothing can move any more. -/
theorem ReadUpTo.received_eq (h : n.ReadUpTo whole limit)
    (hend : (limit == some n.received.length) = true ∨ ∀ m ∈ n.threadMoves, n.step? m = none) :
    n.received = limit.elim whole (fun most => whole.take most) := by
  rcases hend with hgoal | hstuck
  · have hlimit : limit = some n.received.length := by simpa using hgoal
    rw [hlimit]
    exact List.prefix_iff_eq_take.mp h.flows.received_within
  · have hall : n.received = whole := h.flows.received_of_stuck h.uncancelled hstuck
    cases limit with
    | none => exact hall
    | some most =>
      have hle : n.received.length ≤ most := h.within most rfl
      rw [hall] at hle
      rw [hall]
      exact (List.take_of_length_le hle).symm

/-- **A chain that is read up to a limit gives the first items**, and all of them if there is no
limit. -/
theorem Fresh.run_received (h : n.Fresh whole) (limit : Option Nat) :
    (n.run (fun u => limit == some u.received.length) n.moveBound).received =
      limit.elim whole (fun most => whole.take most) := by
  have hstart : n.ReadUpTo whole limit :=
    ⟨h.flows, h.cancelled, fun most _ => by rw [h.received]; exact Nat.zero_le _⟩
  have hends := runUntil_ends rank ReadUpTo.step n.moveBound n hstart h.rank_le
  exact hends.1.received_eq hends.2

end Network

/-- **A pipeline delivers the same under every schedule.** After any moves of its threads and of the
reader, in any order, what was received is a prefix of what the stages make of the items, whether or
not the token was cancelled meanwhile. Before that the last stream is closed only when all of it was
received, and until then something can move. -/
theorem pipeline_delivers (stages : List (ItemStage α)) (items : List α) (n : Network α)
    (h : Reaches Network.step? ((Pipeline.ofStages stages).network (.source items)) n) :
    n.received <+: applyStages stages items ∧
      (n.cancelled = false → n.isClosed = true → n.received = applyStages stages items) ∧
      (n.isClosed = false → ∃ m ∈ n.threadMoves, (n.step? m).isSome = true) := by
  have hflows := (Pipeline.network_fresh stages items).flows.reaches h
  exact ⟨hflows.received_within, hflows.received_of_closed, hflows.not_stuck⟩

/-- The even numbers among some, times ten: the schedule of the execution reaches its end. -/
theorem pipeline_delivers_even_tens :
    let stages : List (ItemStage Nat) := [.filter (fun x => x % 2 == 0), .transform (10 * ·)]
    let start := (Pipeline.ofStages stages).network (.source [1, 2, 3, 4])
    let last := start.run (fun _ => false) start.moveBound
    Reaches Network.step? start last ∧ last.cancelled = false ∧ last.isClosed = true ∧
      last.received = [20, 40] := by
  intro stages start last
  have hreach : Reaches Network.step? start last := runUntil_reaches _ _ _ _ _
  have hcancelled : last.cancelled = false := by decide +kernel
  have hclosed : last.isClosed = true := by decide +kernel
  exact ⟨hreach, hcancelled, hclosed,
    (pipeline_delivers stages _ last hreach).2.1 hcancelled hclosed⟩

/-- **A pipeline is executed to what its stages make of the items**: the first of them, if there is
a limit, and all if there is none. -/
theorem Pipeline.execute_ofStages (stages : List (ItemStage α)) (items : List α)
    (limit : Option Nat) :
    (Pipeline.ofStages stages).execute (.source items) limit =
      limit.elim (applyStages stages items) (fun most => (applyStages stages items).take most) :=
  (Pipeline.network_fresh stages items).run_received limit

end StoreQL.Concurrency
