/-
# Fans neither lose nor copy items

The threads of a fan compete for the items of one stream, so where an item goes depends on the
schedule; that it goes to one of the streams, and keeps its place there, does not. `Dealt` says of
items that they were dealt out so, among some streams.

Before cancellation, the items that were taken from the generator are dealt out among the streams:
those that were read from a stream come first, and then the one that its thread holds (`DealtOut`).
When all streams are closed, the threads hold nothing and the generator has nothing left, since a
thread only closes its stream when it finds that of the generator closed.

Where the streams of a fan are read one after the other by a relay, their items come out in some
order. That all of them come out is the balance of the whole network (`Advances.conserves`).

Main statements: `Deals.step`, what one move of a fan keeps; and `fan_delivers`, what is so after
any moves of a fan, of a merge, and of both.
-/
import StoreQL.Concurrency.Branches
import StoreQL.Proofs.Concurrency.Merge

namespace StoreQL.Concurrency

open scoped List

variable {α : Type}

/-! ## 1. Items that are dealt out -/

theorem itemsOn_append (k : Nat) (log more : List (Nat × α)) :
    itemsOn k (log ++ more) = itemsOn k log ++ itemsOn k more := by
  simp [itemsOn]

theorem itemsOn_singleton (k i : Nat) (item : α) :
    itemsOn k [(i, item)] = if i = k then [item] else [] := by
  by_cases h : i = k <;> simp [itemsOn, h]

/-- The items of some log that are on one stream are some of its items, in their order. -/
theorem itemsOn_sublist (k : Nat) (log : List (Nat × α)) : itemsOn k log <+ log.map Prod.snd :=
  List.filter_sublist.map Prod.snd

/-- The items are dealt out among some streams: each goes to one of them, and `part` says which ones
each stream has, in their order. -/
def Dealt (items : List α) (streams : List Nat) (part : Nat → List α) : Prop :=
  ∃ deal : List (Nat × α), deal.map Prod.snd = items ∧ (∀ d ∈ deal, d.1 ∈ streams) ∧
    ∀ k ∈ streams, itemsOn k deal = part k

namespace Dealt

variable {items : List α} {streams : List Nat} {part part' : Nat → List α} {i : Nat} {item : α}

theorem congr (h : Dealt items streams part) (hparts : ∀ k ∈ streams, part' k = part k) :
    Dealt items streams part' := by
  obtain ⟨deal, hitems, hstreams, hpart⟩ := h
  exact ⟨deal, hitems, hstreams, fun k hk => (hpart k hk).trans (hparts k hk).symm⟩

/-- One item more is dealt, to stream `i`. -/
theorem deal (h : Dealt items streams part) (hi : i ∈ streams)
    (hparts : ∀ k ∈ streams, part' k = part k ++ if i = k then [item] else []) :
    Dealt (items ++ [item]) streams part' := by
  obtain ⟨deal, rfl, hstreams, hpart⟩ := h
  refine ⟨deal ++ [(i, item)], by simp, ?_, ?_⟩
  · intro d hd
    rcases List.mem_append.mp hd with hold | hnew
    · exact hstreams d hold
    · rw [List.mem_singleton.mp hnew]
      exact hi
  · intro k hk
    rw [itemsOn_append, itemsOn_singleton, hpart k hk, hparts k hk]

/-- What a stream has of the items is in their order. -/
theorem sublist (h : Dealt items streams part) (hi : i ∈ streams) : part i <+ items := by
  obtain ⟨deal, rfl, -, hpart⟩ := h
  rw [← hpart i hi]
  exact itemsOn_sublist i deal

end Dealt

/-! ## 2. The moves of a fan -/

/-- Who reads what among a generator, `k` relays that read its stream, and one that reads theirs. -/
def fanPlan (k i : Nat) : List Nat :=
  if i = 0 then [] else if i ≤ k then [0] else List.range' 1 k

theorem fanPlan_of_le {k i : Nat} (hpos : 0 < i) (hle : i ≤ k) : fanPlan k i = [0] := by
  rw [fanPlan, if_neg (Nat.ne_of_gt hpos), if_pos hle]

/-- The first relay reads the generator. -/
theorem zero_mem_fanPlan {k : Nat} (hk : 0 < k) : 0 ∈ fanPlan k 1 := by
  rw [fanPlan_of_le Nat.one_pos hk]
  exact List.mem_cons_self

namespace Branches

/-- What the moves do. -/
inductive Step (b : Branches α) : Move → Branches α → Prop where
  | take {i : Nat} {s : Station α} {item : α} (hi : i ∈ b.outlets)
      (hs : b.stations[i]? = some s) (hoffer : s.offer? = some item) :
      Step b (.take i)
        { b with
          stations := b.stations.set i s.offerTaken
          received := b.received ++ [(i, item)] }
  | thread {m : Network.Move} {n : Network α} (hm : b.network.Step m n)
      (hkept : b.forsakes m = false) :
      Step b (.thread m) { b with stations := n.stations, cancelled := n.cancelled }

variable {b b' : Branches α} {m : Move} {items : List α} {k : Nat}

/-- **What a move does.** -/
theorem step_of_step? (h : b.step? m = some b') : b.Step m b' := by
  cases m with
  | take i =>
    obtain ⟨s, hs, h⟩ := Option.bind_eq_some_iff.mp h
    obtain ⟨item, hoffer, h⟩ := Option.bind_eq_some_iff.mp h
    split at h
    · rename_i hi
      cases h
      exact .take (by simpa using hi) hs hoffer
    · cases h
  | thread m =>
    obtain ⟨n, hm, h⟩ := Option.bind_eq_some_iff.mp h
    split at h
    · cases h
    · rename_i hkept
      cases h
      exact .thread (Network.step_of_step? hm) (Bool.eq_false_iff.mpr hkept)

end Branches

/-! ## 3. What one move keeps -/

/-- Items of which the last are still with the generator, while the others were dealt out among some
streams: they were read from there, or stations hold them. -/
def DealtOut (items : List α) (streams : List Nat) (received : List (Nat × α))
    (l : List (Station α)) : Prop :=
  ∃ taken rest, taken ++ rest = items ∧ l[0]? = some (.generator rest) ∧
    Dealt taken streams (fun i => itemsOn i received ++ heldAt Station.stock l i)

namespace DealtOut

variable {items : List α} {streams : List Nat} {received : List (Nat × α)} {l : List (Station α)}
  {i : Nat} {r r' : Relay α} {s : Station α} {item : α}

/-- An item is read from the stream of a station, which held it. -/
theorem take (h : DealtOut items streams received l) (hi : i ≠ 0) (hs : l[i]? = some s)
    (hoffer : s.offer? = some item) :
    DealtOut items streams (received ++ [(i, item)]) (l.set i s.offerTaken) := by
  obtain ⟨taken, rest, hitems, hrest, hdealt⟩ := h
  refine ⟨taken, rest, hitems, by rw [List.getElem?_set_ne hi, hrest], hdealt.congr ?_⟩
  intro k _
  have hheld := heldAt_set_passes hs (Station.stock_gives hoffer) k
  rw [ite_self, List.append_nil] at hheld
  rw [itemsOn_append, itemsOn_singleton, List.append_assoc, hheld]

/-- The generator's next item passes to the relay of a stream. -/
theorem accept (h : DealtOut items streams received l) (hstreams : 0 ∉ streams) (hi : i ∈ streams)
    (hr : l[i]? = some (.relay r)) (hphase : r.phase = .receiving) (haction : r.action = some)
    (hs : l[0]? = some s) (hoffer : s.offer? = some item) :
    DealtOut items streams received
      ((l.set 0 s.offerTaken).set i (.relay (r.accept item))) := by
  obtain ⟨taken, rest, hitems, hrest, hdealt⟩ := h
  obtain rfl : s = .generator rest := by
    rw [hs, Option.some.injEq] at hrest
    exact hrest
  obtain ⟨rest', rfl⟩ := List.head?_eq_some_iff.mp hoffer
  have hne : 0 ≠ i := ne_of_offer hr hphase hs hoffer
  have hr' : (l.set 0 (Station.generator (item :: rest')).offerTaken)[i]? = some (.relay r) := by
    rw [List.getElem?_set_ne hne, hr]
  refine ⟨taken ++ [item], rest', by rw [← hitems]; simp, ?_, hdealt.deal hi ?_⟩
  · rw [List.getElem?_set_ne (Ne.symm hne), getElem?_set_of_eq_some hs, if_pos rfl]
    rfl
  · intro k hk
    have hk0 : 0 ≠ k := by
      rintro rfl
      exact hstreams hk
    have hheld := heldAt_set_passes hr' (stock_takes haction hphase item) k
    rw [ite_self, List.nil_append, heldAt_set_ne hk0] at hheld
    rw [← hheld, List.append_assoc]

/-- A relay goes on that holds nothing before or after. -/
theorem turn (h : DealtOut items streams received l) (hr : l[i]? = some (.relay r))
    (hidle : (Station.relay r).offer? = none) (hidle' : (Station.relay r').offer? = none) :
    DealtOut items streams received (l.set i (.relay r')) := by
  obtain ⟨taken, rest, hitems, hrest, hdealt⟩ := h
  have hi : i ≠ 0 := by
    rintro rfl
    rw [hr] at hrest
    cases hrest
  refine ⟨taken, rest, hitems, by rw [List.getElem?_set_ne hi, hrest], hdealt.congr ?_⟩
  intro k _
  rw [heldAt_set hr]
  split
  · rename_i hik
    subst hik
    rw [heldAt_of_eq_some hr, Station.stock_of_idle hidle, Station.stock_of_idle hidle']
  · rfl

end DealtOut

namespace Branches

variable {b b' : Branches α} {m : Move} {items : List α} {k : Nat}

/-- A fan of `k` streams behind a generator of some items. -/
structure Deals (items : List α) (k : Nat) (b : Branches α) : Prop where
  outlets : b.outlets = List.range' 1 k
  size : b.stations.length = k + 1
  forwards : b.cancelled = false → Forwards (fanPlan k) b.stations
  dealt : b.cancelled = false → DealtOut items b.outlets b.received b.stations

theorem Deals.mem_outlets (h : b.Deals items k) {i : Nat} :
    i ∈ b.outlets ↔ 1 ≤ i ∧ i < k + 1 := by
  rw [h.outlets, List.mem_range'_1, Nat.add_comm]

/-- No thread gives up an offer before cancellation. -/
theorem Deals.ne_giveUp (h : b.Deals items k) (hk : 0 < k) {m : Network.Move} {n : Network α}
    (hstep : b.network.Step m n) (hkept : b.forsakes m = false) (hcancelled : b.cancelled = false) :
    ∀ i, m ≠ .giveUp i := by
  rintro i rfl
  cases hstep with
  | giveUp hs hoffer hwhy =>
    rcases Nat.eq_zero_or_pos i with rfl | hpos
    · -- The relay of the first stream still reads the generator.
      have hfirst : 1 < b.network.stations.length := by
        show 1 < b.stations.length
        rw [h.size]
        exact Nat.succ_lt_succ hk
      have hread : b.network.isRead 0 = true :=
        Network.isRead_of_offer (h.forwards hcancelled) (List.getElem?_eq_getElem hfirst)
          (zero_mem_fanPlan hk) hs hoffer
      rw [show b.network.cancelled = false from hcancelled, hread] at hwhy
      rcases hwhy with hwhy | hwhy <;> cases hwhy
    · have hlt : i < b.stations.length := lt_of_getElem?_eq_some hs
      rw [h.size] at hlt
      have hi : i ∈ b.outlets := h.mem_outlets.mpr ⟨hpos, hlt⟩
      simp [forsakes, hi, hcancelled] at hkept

/-- What happens among the threads before cancellation keeps the items dealt out. -/
theorem Deals.advance (h : b.Deals items k) (hcancelled : b.cancelled = false) {n : Network α}
    (hadvances : b.network.Advances n) :
    DealtOut items b.outlets b.received n.stations := by
  have hdealt := h.dealt hcancelled
  have hforwards := h.forwards hcancelled
  cases hadvances with
  | read hs hoffer =>
    -- The streams that are read from outside are not read here.
    have hlt : b.stations.length < b.stations.length := lt_of_getElem?_eq_some hs
    exact absurd hlt (Nat.lt_irrefl _)
  | @accept i input r s item hr hphase hinput hs hoffer =>
    have hplace : r.Forwards b.stations (fanPlan k i) := hforwards i _ hr
    have hmem : input ∈ fanPlan k i := hplace.within (List.mem_of_head? hinput)
    have hlt : i < k + 1 := h.size ▸ lt_of_getElem?_eq_some hr
    have hi : i ≠ 0 := by
      rintro rfl
      cases hmem
    rw [fanPlan_of_le (Nat.pos_of_ne_zero hi) (Nat.le_of_lt_succ hlt), List.mem_singleton] at hmem
    subst hmem
    refine hdealt.accept ?_ (h.mem_outlets.mpr ⟨Nat.pos_of_ne_zero hi, hlt⟩) hr hphase
      hplace.action hs hoffer
    intro hzero
    exact absurd (h.mem_outlets.mp hzero).1 (Nat.not_succ_le_zero 0)
  | turn hr hphase haction hinputs hidle hended =>
    exact hdealt.turn hr (offer?_of_idle hphase) hidle

/-- **One move keeps it so.** -/
theorem Deals.step (h : b.Deals items k) (hk : 0 < k) (hstep : b.Step m b') :
    b'.Deals items k := by
  cases hstep with
  | @take i s item hi hs hoffer =>
    have hne : i ≠ 0 := Nat.ne_of_gt (h.mem_outlets.mp hi).1
    exact {
      outlets := h.outlets
      size := by
        show (b.stations.set i _).length = k + 1
        rw [List.length_set, h.size]
      forwards := fun hcancelled => by
        have hforwards := h.forwards hcancelled
        exact hforwards.set hs (Station.isFinished_of_offer hoffer) (hforwards _ _ hs).offerTaken
      dealt := fun hcancelled => (h.dealt hcancelled).take hne hs hoffer }
  | @thread m n hm hkept =>
    have hadvances : n.cancelled = false → b.network.Advances n := fun hcancelled =>
      hm.advances hcancelled (h.ne_giveUp hk hm hkept (hm.uncancelled hcancelled))
    exact {
      outlets := h.outlets
      size := hm.length_eq.trans h.size
      forwards := fun hcancelled =>
        Forwards.advance (h.forwards (hm.uncancelled hcancelled)) (hadvances hcancelled)
      dealt := fun hcancelled =>
        h.advance (hm.uncancelled hcancelled) (hadvances hcancelled) }

end Branches

/-! ## 4. Fans whose streams are read from outside -/

theorem fanOut_getElem?_eq_some {items : List α} {k i : Nat} {s : Station α}
    (hs : ((Network.source items).fanOut k).stations[i]? = some s) :
    (i = 0 ∧ s = .generator items) ∨ (0 < i ∧ i ≤ k ∧ s = .relay (.start [0] some)) := by
  cases i with
  | zero =>
    cases hs
    exact .inl ⟨rfl, rfl⟩
  | succ i =>
    have hrelay : (List.replicate k (Station.relay (.start [0] some)))[i]? = some s := hs
    rw [List.getElem?_replicate] at hrelay
    split at hrelay
    · rename_i hlt
      cases hrelay
      exact .inr ⟨Nat.succ_pos i, hlt, rfl⟩
    · cases hrelay

theorem fanOut_deals (items : List α) (k : Nat) :
    ((Network.source items).fanOut k).Deals items k where
  outlets := rfl
  size := by simp [Network.fanOut, Network.source]
  forwards _ := by
    intro i s hs
    rcases fanOut_getElem?_eq_some hs with ⟨rfl, rfl⟩ | ⟨hpos, hle, rfl⟩
    · exact if_pos rfl
    · rw [fanPlan_of_le hpos hle]
      exact Relay.Forwards.start _ _
  dealt _ := by
    refine ⟨[], items, rfl, rfl, [], rfl, List.forall_mem_nil _, fun i hi => ?_⟩
    have hpos : 1 ≤ i := (List.mem_range'_1.mp hi).1
    have hnone : heldAt Station.stock ((Network.source items).fanOut k).stations i = [] := by
      cases hs : ((Network.source items).fanOut k).stations[i]? with
      | none => exact heldAt_of_le (List.getElem?_eq_none_iff.mp hs)
      | some s =>
        rw [heldAt_of_eq_some hs]
        rcases fanOut_getElem?_eq_some hs with ⟨rfl, -⟩ | ⟨-, -, rfl⟩
        · cases hpos
        · rfl
    exact hnone.symm

section Reached

variable {b : Branches α} {items : List α} {k i : Nat}

theorem Branches.Deals.lt_length (h : b.Deals items k) (hi : i ∈ b.outlets) :
    i < b.stations.length := by
  rw [h.size]
  exact (h.mem_outlets.mp hi).2

theorem Branches.closedAt_of_isClosed (h : b.Deals items k) (hi : i ∈ b.outlets)
    (hclosed : b.isClosed i = true) : ClosedAt b.stations i := by
  have hlt : i < b.stations.length := h.lt_length hi
  refine ⟨_, List.getElem?_eq_getElem hlt, ?_⟩
  simpa [Branches.isClosed, hlt] using hclosed

/-- The thread of a stream holds what it offers. -/
theorem Branches.stock_eq_held? (h : b.Deals items k) (hcancelled : b.cancelled = false)
    (hi : i ∈ b.outlets) : heldAt Station.stock b.stations i = (b.held? i).toList := by
  obtain ⟨s, hs⟩ : ∃ s, b.stations[i]? = some s :=
    ⟨_, List.getElem?_eq_getElem (h.lt_length hi)⟩
  have hplace : s.Forwards b.stations (fanPlan k i) := h.forwards hcancelled i s hs
  have hplan : fanPlan k i = [0] := by
    have hbounds := h.mem_outlets.mp hi
    exact fanPlan_of_le hbounds.1 (Nat.le_of_lt_succ hbounds.2)
  rw [heldAt_of_eq_some hs, Branches.held?, hs, Option.bind_some]
  cases s with
  | generator rest =>
    have hnone : fanPlan k i = [] := hplace
    rw [hplan] at hnone
    cases hnone
  | relay r => rfl

/-- When all streams are closed, the items are dealt out among them. -/
theorem Branches.Deals.of_closed (h : b.Deals items k) (hk : 0 < k)
    (hcancelled : b.cancelled = false) (hclosed : ∀ i ∈ b.outlets, b.isClosed i = true) :
    Dealt items b.outlets b.output := by
  have hall : ∀ i ∈ b.outlets, ClosedAt b.stations i := fun i hi =>
    closedAt_of_isClosed h hi (hclosed i hi)
  obtain ⟨taken, rest, hitems, hrest, hdealt⟩ := h.dealt hcancelled
  have hsource : ClosedAt b.stations 0 := by
    have hfirst : 1 ∈ b.outlets := h.mem_outlets.mpr ⟨Nat.le_refl 1, Nat.succ_lt_succ hk⟩
    exact (h.forwards hcancelled).closedAt (hall 1 hfirst) (zero_mem_fanPlan hk)
  have hempty : rest = [] := by
    have hstock := hsource.stock
    rwa [heldAt_of_eq_some hrest] at hstock
  rw [hempty, List.append_nil] at hitems
  subst hitems
  refine hdealt.congr fun i hi => ?_
  rw [(hall i hi).stock, List.append_nil]
  rfl

end Reached

/-! ## 5. Fans whose streams are read one after the other -/

namespace Network

variable {n n' : Network α} {m : Move} {items : List α} {k i : Nat} {s : Station α}

theorem attachFan_getElem?_eq_some (hs : ((source items).attachFan k).stations[i]? = some s) :
    (i = 0 ∧ s = .generator items) ∨ (0 < i ∧ i ≤ k ∧ s = .relay (.start [0] some)) ∨
      (i = k + 1 ∧ s = .relay (.start (List.range' 1 k) some)) := by
  have hsize : ((source items).fanOut k).stations.length = k + 1 := (fanOut_deals items k).size
  rw [attachFan_eq, List.getElem?_append] at hs
  split at hs
  · rcases fanOut_getElem?_eq_some hs with hsource | hrelay
    · exact .inl hsource
    · exact .inr (.inl hrelay)
  · rename_i hge
    rw [List.getElem?_singleton] at hs
    split at hs
    · cases hs
      exact .inr (.inr ⟨by omega, rfl⟩)
    · cases hs

/-- A fan of `k` streams behind a generator, and a relay that reads them. -/
structure Joins (items : List α) (k : Nat) (n : Network α) : Prop where
  outlet : n.outlet = k + 1
  size : n.stations.length = k + 2
  planned : n.Planned (fanPlan k)
  conserves : n.cancelled = false → (n.received ++ n.stations.flatMap Station.stock) ~ items

theorem Joins.step (h : n.Joins items k) (hstep : n.Step m n') : n'.Joins items k where
  outlet := hstep.outlet_eq.trans h.outlet
  size := hstep.length_eq.trans h.size
  planned := h.planned.step hstep
  conserves hcancelled := by
    have huncancelled : n.cancelled = false := hstep.uncancelled hcancelled
    have hadvances : n.Advances n' := h.planned.advances hstep hcancelled
    exact (hadvances.conserves (h.planned.forwards huncancelled)).trans
      (h.conserves huncancelled)

theorem mem_fanPlan_last {k i : Nat} : i ∈ fanPlan k (k + 1) ↔ 0 < i ∧ i ≤ k := by
  rw [fanPlan, if_neg (Nat.succ_ne_zero k), if_neg (Nat.not_succ_le_self k), List.mem_range'_1]
  omega

theorem attachFan_joins (items : List α) (hk : 0 < k) :
    ((source items).attachFan k).Joins items k := by
  have hsize : ((source items).attachFan k).stations.length = k + 2 := by
    simp [attachFan, source]
  have houtlet : ((source items).attachFan k).outlet = k + 1 := by
    simp [attachFan, source, Nat.add_comm]
  refine ⟨houtlet, hsize, ⟨?_, fun _ => ?_⟩, fun _ => ?_⟩
  · intro j hj
    rw [hsize] at hj ⊢
    rw [houtlet]
    rcases Nat.eq_zero_or_pos j with rfl | hpos
    · exact .inr ⟨1, by omega, zero_mem_fanPlan hk⟩
    · rcases Nat.lt_or_ge k j with hlt | hle
      · exact .inl (by omega)
      · exact .inr ⟨k + 1, Nat.lt_succ_self _, mem_fanPlan_last.mpr ⟨hpos, hle⟩⟩
  · intro i s hs
    rcases attachFan_getElem?_eq_some hs with ⟨rfl, rfl⟩ | ⟨hpos, hle, rfl⟩ | ⟨rfl, rfl⟩
    · exact if_pos rfl
    · rw [fanPlan_of_le hpos hle]
      exact Relay.Forwards.start _ _
    · rw [fanPlan, if_neg (Nat.succ_ne_zero k), if_neg (Nat.not_succ_le_self k)]
      exact Relay.Forwards.start _ _
  · have hrelays : (List.replicate k (Station.relay (.start [0] some))).flatMap Station.stock =
        ([] : List α) := by
      refine List.flatMap_eq_nil_iff.mpr fun s hs => ?_
      rw [List.eq_of_mem_replicate hs]
      rfl
    have hstock : ((source items).attachFan k).stations.flatMap Station.stock = items := by
      simp only [attachFan, source, List.flatMap_append, List.flatMap_singleton, hrelays]
      simp [Station.stock, Station.offer?, Relay.start]
    rw [hstock]
    exact List.Perm.refl items

/-- When the last stream is closed, nothing is left in the network. -/
theorem Joins.received_of_closed (h : n.Joins items k) (hk : 0 < k)
    (hcancelled : n.cancelled = false) (hclosed : n.isClosed = true) : n.received ~ items := by
  have hforwards := h.planned.forwards hcancelled
  have hlast : ClosedAt n.stations (k + 1) := by
    have hlt : k + 1 < n.stations.length := by
      rw [h.size]
      exact Nat.lt_succ_self _
    refine ⟨_, List.getElem?_eq_getElem hlt, ?_⟩
    simpa [isClosed, h.outlet, hlt] using hclosed
  have hstreams : ∀ i, 0 < i → i ≤ k → ClosedAt n.stations i := fun i hpos hle =>
    hforwards.closedAt hlast (mem_fanPlan_last.mpr ⟨hpos, hle⟩)
  have hsource : ClosedAt n.stations 0 :=
    hforwards.closedAt (hstreams 1 Nat.one_pos hk) (zero_mem_fanPlan hk)
  have hstock : n.stations.flatMap Station.stock = [] := by
    refine List.flatMap_eq_nil_iff.mpr fun s hs => ?_
    obtain ⟨i, hi⟩ := List.mem_iff_getElem?.mp hs
    have hlt : i < k + 2 := h.size ▸ lt_of_getElem?_eq_some hi
    have hclosedAt : ClosedAt n.stations i := by
      rcases Nat.eq_zero_or_pos i with rfl | hpos
      · exact hsource
      · rcases Nat.lt_or_ge k i with hgt | hle
        · obtain rfl : i = k + 1 := by omega
          exact hlast
        · exact hstreams i hpos hle
    rw [← heldAt_of_eq_some (f := Station.stock) hi, hclosedAt.stock]
  have hall := h.conserves hcancelled
  rwa [hstock, List.append_nil] at hall

end Network

/-! ## 6. Any moves -/

/-- **Fans and merges neither lose items nor copy any.** Before cancellation, after any moves of the
`k` threads of a fan and of those who read its streams: what was read from a stream is in the order
of the items; what was read from all of them, and what the threads hold, at most one item each, are
the items that were taken from the generator, dealt out among the streams; and when all streams are
closed, what was read from them are all items. A merge of generators gives a prefix of their items,
one generator after the other, also when the token was cancelled, and all of them when it closes its
stream before. And a merge of the streams of a fan has given all items, in some order, when it closes
its stream. -/
theorem fan_delivers (items : List α) (inputs : List (List α)) (k : Nat) (hk : 0 < k) :
    (∀ b, Reaches Branches.step? ((Network.source items).fanOut k) b → b.cancelled = false →
      b.outlets.length = k ∧ (∀ i ∈ b.outlets, b.output i <+ items) ∧
        (∃ taken rest, taken ++ rest = items ∧ b.stations[0]? = some (.generator rest) ∧
          Dealt taken b.outlets (fun i => b.output i ++ (b.held? i).toList)) ∧
        ((∀ i ∈ b.outlets, b.isClosed i = true) → Dealt items b.outlets b.output)) ∧
    (∀ n, Reaches Network.step? (.merge inputs) n → n.received <+: inputs.flatten ∧
      (n.cancelled = false → n.isClosed = true → n.received = inputs.flatten)) ∧
    (∀ n, Reaches Network.step? ((Network.source items).attachFan k) n → n.cancelled = false →
      n.isClosed = true → n.received ~ items) := by
  refine ⟨fun b h hcancelled => ?_, fun n h => merge_delivers h, fun n h hcancelled hclosed => ?_⟩
  · have hdeals : b.Deals items k :=
      h.keeps (fun hb hmove => hb.step hk (Branches.step_of_step? hmove)) (fanOut_deals items k)
    obtain ⟨taken, rest, hitems, hrest, hdealt⟩ := hdeals.dealt hcancelled
    have hheld : Dealt taken b.outlets (fun i => b.output i ++ (b.held? i).toList) :=
      hdealt.congr fun i hi => by
        rw [Branches.stock_eq_held? hdeals hcancelled hi]
        rfl
    refine ⟨?_, fun i hi => ?_, ⟨taken, rest, hitems, hrest, hheld⟩, hdeals.of_closed hk hcancelled⟩
    · rw [hdeals.outlets, List.length_range']
    · calc
        b.output i <+ b.output i ++ (b.held? i).toList := List.sublist_append_left _ _
        _ <+ taken := hheld.sublist hi
        _ <+ items := by
          rw [← hitems]
          exact List.sublist_append_left _ _
  · have hjoins : n.Joins items k :=
      h.keeps (fun hn hmove => hn.step (Network.step_of_step? hmove))
        (Network.attachFan_joins items hk)
    exact hjoins.received_of_closed hk hcancelled hclosed

/-- Three items: one relay of a fan takes the first of them, and the other one the rest. -/
theorem fan_delivers_three :
    let fan := (Network.source [7, 8, 9]).fanOut 2
    let merged := Network.merge [[7, 8], [9]]
    let joined := (Network.source [7, 8, 9]).attachFan 2
    (∃ b, Reaches Branches.step? fan b ∧ b.outlets.map b.output = [[8, 9], [7]] ∧
      Dealt [7, 8, 9] b.outlets b.output) ∧
    (merged.run (fun _ => false) merged.moveBound).received = [7, 8, 9] ∧
    (joined.run (fun _ => false) joined.moveBound).received ~ [7, 8, 9] := by
  intro fan merged joined
  obtain ⟨hfan, hmerged, hjoined⟩ := fan_delivers [7, 8, 9] [[7, 8], [9]] 2 (by decide)
  refine ⟨?_, ?_, ?_⟩
  · have hrun : (List.foldlM Branches.step? fan
        [.thread (.check 1), .thread (.check 2), .thread (.accept 2), .thread (.accept 1), .take 1,
          .thread (.check 1), .thread (.accept 1), .take 2, .take 1, .thread (.check 1),
          .thread (.check 2), .thread (.closed 1), .thread (.closed 2)]).map
        (fun b => (b.cancelled, b.outlets.all b.isClosed, b.outlets.map b.output)) =
          some (false, true, [[8, 9], [7]]) := by decide +kernel
    obtain ⟨b, hb, hend⟩ := Option.map_eq_some_iff.mp hrun
    simp only [Prod.mk.injEq, List.all_eq_true] at hend
    obtain ⟨hcancelled, hclosed, houtputs⟩ := hend
    have hreach : Reaches Branches.step? fan b := reaches_of_foldlM hb
    exact ⟨b, hreach, houtputs, (hfan b hreach hcancelled).2.2.2 hclosed⟩
  · have hclosed : (merged.run (fun _ => false) merged.moveBound).isClosed = true := by
      decide +kernel
    exact (hmerged _ (runUntil_reaches _ _ _ _ _)).2 (by decide +kernel) hclosed
  · have hclosed : (joined.run (fun _ => false) joined.moveBound).isClosed = true := by
      decide +kernel
    exact hjoined _ (runUntil_reaches _ _ _ _ _) (by decide +kernel) hclosed

end StoreQL.Concurrency
