/-
# Streams that are read one after the other

A merge is a relay that reads generators, one after the other. Before the token is cancelled, it
still has to give the item that it holds, and then all that is left in the streams that it has not
read to the end (`Relay.toGather`), and nothing of that is lost.

Cancellation can end any of the streams before its end, and the relay then goes on to the next one.
It takes nothing from there, since it looks at the token first: an item that may still come is the
one that it holds, or one of the stream that it already waits at (`Relay.inReach`). Either way what
was received is a prefix of all that there was.

Main statements: `Gathers.step`, what one move keeps; and `merge_delivers`, what is so after any
moves.
-/
import StoreQL.Proofs.Concurrency.Delivery
import StoreQL.Proofs.Concurrency.Forwarding

namespace StoreQL.Concurrency

variable {α : Type}

/-! ## 1. What may still come -/

/-- What a relay has still to give: the item that it holds, and what its streams hold. -/
def Relay.toGather (l : List (Station α)) (r : Relay α) : List α :=
  (Station.relay r).stock ++ r.inputs.flatMap (heldAt Station.stock l)

/-- What a relay may still give when the token is cancelled. -/
def Relay.inReach (l : List (Station α)) (r : Relay α) : List α :=
  match r.phase with
  | .checking | .finished => []
  | .receiving => (r.inputs.take 1).flatMap (heldAt Station.stock l)
  | .offering item => [item]

theorem Relay.inReach_isPrefix (l : List (Station α)) (r : Relay α) :
    r.inReach l <+: r.toGather l := by
  obtain ⟨inputs, action, phase⟩ := r
  cases phase with
  | checking | finished => exact List.nil_prefix
  | offering item => exact List.prefix_append [item] _
  | receiving =>
    cases inputs with
    | nil => exact List.prefix_refl _
    | cons j inputs =>
      simp only [Relay.inReach, Relay.toGather, Station.stock, Station.offer?, Option.toList_none,
        List.nil_append, List.take_succ_cons, List.take_zero, List.flatMap_cons, List.flatMap_nil,
        List.append_nil]
      exact List.prefix_append _ _

theorem Relay.inReach_nextInput (l : List (Station α)) (r : Relay α) :
    r.nextInput.inReach l = [] := by
  unfold Relay.nextInput Relay.inReach
  cases r.inputs.tail.isEmpty <;> rfl

/-! ## 2. Where the relay stands -/

namespace Station

/-- Whether a station is a relay. -/
def isRelay : Station α → Bool
  | .generator _ => false
  | .relay _ => true

@[simp] theorem isRelay_offerTaken (s : Station α) : s.offerTaken.isRelay = s.isRelay := by
  cases s <;> rfl

@[simp] theorem isRelay_giveUp (s : Station α) : s.giveUp.isRelay = s.isRelay := by
  cases s <;> rfl

end Station

/-- The only relay stands at place `k`. -/
def RelayAt (k : Nat) (l : List (Station α)) : Prop :=
  ∀ (i : Nat) (s : Station α), l[i]? = some s → s.isRelay = true → i = k

theorem RelayAt.set {k i : Nat} {l : List (Station α)} {s s' : Station α} (h : RelayAt k l)
    (hs : l[i]? = some s) (hkind : s'.isRelay = s.isRelay) : RelayAt k (l.set i s') := by
  intro j t ht hrelay
  rw [getElem?_set_of_eq_some hs] at ht
  split at ht
  · rename_i hij
    cases ht
    rw [hkind] at hrelay
    exact hij ▸ h i s hs hrelay
  · exact h j t ht hrelay

/-- Stations of which one is a relay, `r` at place `k`, that passes on what it takes from others. -/
structure Merges (k : Nat) (r : Relay α) (l : List (Station α)) : Prop where
  relay : l[k]? = some (.relay r)
  only : RelayAt k l
  action : r.action = some
  nodup : (k :: r.inputs).Nodup

section Replaced

variable {l : List (Station α)} {r r' : Relay α} {i j k : Nat} {s s' : Station α} {item : α}

theorem Merges.place (h : Merges k r l) (hr : l[i]? = some (.relay r')) : i = k ∧ r' = r := by
  obtain rfl : i = k := h.only i _ hr rfl
  have hrelay := h.relay
  rw [hr, Option.some.injEq, Station.relay.injEq] at hrelay
  exact ⟨rfl, hrelay⟩

theorem Merges.notMem (h : Merges k r l) : k ∉ r.inputs := (List.nodup_cons.mp h.nodup).1

theorem Merges.setRelay (h : Merges k r l) (haction : r'.action = r.action)
    (hinputs : r'.inputs <:+ r.inputs) : Merges k r' (l.set k (.relay r')) where
  relay := by rw [getElem?_set_of_eq_some h.relay, if_pos rfl]
  only := h.only.set h.relay rfl
  action := haction.trans h.action
  nodup := h.nodup.sublist (hinputs.sublist.cons_cons k)

theorem Merges.setOther (h : Merges k r l) (hs : l[i]? = some s) (hne : i ≠ k)
    (hkind : s'.isRelay = s.isRelay) : Merges k r (l.set i s') where
  relay := by rw [List.getElem?_set_ne hne, h.relay]
  only := h.only.set hs hkind
  action := h.action
  nodup := h.nodup

theorem toGather_set (h : k ∉ r.inputs) : r.toGather (l.set k s) = r.toGather l := by
  rw [Relay.toGather, flatMap_heldAt_set h, Relay.toGather]

/-- What a station gives up only cuts off what a relay may still give. -/
theorem inReach_giveUp (hs : l[i]? = some s) (r : Relay α) :
    r.inReach (l.set i s.giveUp) <+: r.inReach l := by
  have hheld : ∀ j, heldAt Station.stock (l.set i s.giveUp) j <+: heldAt Station.stock l j := by
    intro j
    rw [heldAt_set hs]
    split
    · rw [Station.stock_giveUp]
      exact List.nil_prefix
    · exact List.prefix_refl _
  obtain ⟨inputs, action, phase⟩ := r
  cases phase with
  | checking | offering | finished => exact List.prefix_refl _
  | receiving =>
    cases inputs with
    | nil => exact List.prefix_refl _
    | cons j inputs => simpa [Relay.inReach] using hheld j

/-- An item is taken from the first of some streams. -/
theorem flatMap_heldAt_offerTaken {js : List Nat} (hs : l[j]? = some s)
    (hoffer : s.offer? = some item) (hnodup : (j :: js).Nodup) :
    (j :: js).flatMap (heldAt Station.stock l) =
      item :: (j :: js).flatMap (heldAt Station.stock (l.set j s.offerTaken)) := by
  have hnot : j ∉ js := (List.nodup_cons.mp hnodup).1
  rw [List.flatMap_cons, List.flatMap_cons, flatMap_heldAt_set hnot, heldAt_set hs, if_pos rfl,
    heldAt_of_eq_some hs, Station.stock_of_offer hoffer]
  rfl

end Replaced

/-! ## 3. What one move keeps -/

namespace Network

/-- A network of generators and one relay, `r`, which is to give `whole`. -/
structure Gathers (whole : List α) (r : Relay α) (n : Network α) : Prop where
  merges : Merges n.outlet r n.stations
  within : n.cancelled = true → n.received ++ r.inReach n.stations <+: whole
  whole : n.cancelled = false → n.received ++ r.toGather n.stations = whole

variable {whole : List α} {n n' : Network α} {r : Relay α} {m : Move} {i input : Nat}
  {s : Station α} {item : α}

theorem Gathers.received_within (h : n.Gathers whole r) : n.received <+: whole := by
  cases hcancelled : n.cancelled with
  | true => exact (List.prefix_append _ _).trans (h.within hcancelled)
  | false =>
    rw [← h.whole hcancelled]
    exact List.prefix_append _ _

/-- The last stream is read. -/
theorem Gathers.read (h : n.Gathers whole r) (hs : n.stations[n.outlet]? = some s)
    (hoffer : s.offer? = some item) :
    Gathers whole { r with phase := .checking }
      { n.setStation n.outlet s.offerTaken with received := n.received ++ [item] } := by
  obtain rfl : s = .relay r := by
    rw [h.merges.relay, Option.some.injEq] at hs
    exact hs.symm
  have hphase : r.phase = .offering item := Station.phase_of_offer hoffer
  have hreach : r.inReach n.stations = [item] := by rw [Relay.inReach, hphase]
  have hgather : r.toGather n.stations =
      item :: Relay.toGather n.stations { r with phase := .checking } := by
    rw [Relay.toGather, Station.stock_of_offer hoffer]
    rfl
  have hmerges : Merges n.outlet { r with phase := .checking }
      (n.stations.set n.outlet (Station.relay r).offerTaken) :=
    h.merges.setRelay rfl (List.suffix_refl _)
  exact {
    merges := hmerges
    within := fun hcancelled => by
      have hwithin := h.within hcancelled
      rw [hreach] at hwithin
      simpa [Relay.inReach] using hwithin
    whole := fun hcancelled => by
      have hwhole := h.whole hcancelled
      rw [hgather] at hwhole
      show (n.received ++ [item]) ++ Relay.toGather (n.stations.set n.outlet _) _ = whole
      rw [toGather_set hmerges.notMem, List.append_assoc]
      exact hwhole }

/-- An item passes to the relay. -/
theorem Gathers.accept (h : n.Gathers whole r) (hphase : r.phase = .receiving)
    (hinput : r.inputs.head? = some input) (hs : n.stations[input]? = some s)
    (hoffer : s.offer? = some item) :
    ((n.setStation input s.offerTaken).setStation n.outlet (.relay (r.accept item))).Gathers
      whole (r.accept item) := by
  have hne : input ≠ n.outlet := ne_of_offer h.merges.relay hphase hs hoffer
  obtain ⟨js, hinputs⟩ := List.head?_eq_some_iff.mp hinput
  have hnodup : (input :: js).Nodup := hinputs ▸ (List.nodup_cons.mp h.merges.nodup).2
  have htaken := flatMap_heldAt_offerTaken hs hoffer hnodup
  rw [← hinputs] at htaken
  rw [Relay.accept_of_action h.merges.action]
  have hmerges : Merges n.outlet { r with phase := .offering item }
      ((n.stations.set input s.offerTaken).set n.outlet
        (.relay { r with phase := .offering item })) :=
    (h.merges.setOther hs hne (Station.isRelay_offerTaken s)).setRelay rfl (List.suffix_refl _)
  exact {
    merges := hmerges
    within := fun hcancelled => by
      have hreach : r.inReach n.stations = item :: s.offerTaken.stock := by
        rw [Relay.inReach, hphase, hinputs]
        simp [heldAt_of_eq_some hs, Station.stock_of_offer hoffer]
      refine List.IsPrefix.trans ?_ (h.within hcancelled)
      rw [hreach]
      exact (List.prefix_append_right_inj _).mpr (List.prefix_append [item] _)
    whole := fun hcancelled => by
      rw [← h.whole hcancelled]
      refine congrArg (n.received ++ ·) ?_
      show Relay.toGather ((n.stations.set input s.offerTaken).set n.outlet _) _ = _
      rw [toGather_set hmerges.notMem, Relay.toGather, Relay.toGather,
        Station.stock_of_idle (offer?_of_idle (.inr hphase)), htaken]
      rfl }

/-- The relay goes on without an item, at most to its next stream. -/
theorem Gathers.turn {r' : Relay α} (h : n.Gathers whole r) (haction : r'.action = r.action)
    (hinputs : r'.inputs <:+ r.inputs)
    (hreach : n.cancelled = true → ∀ l : List (Station α), r'.inReach l = [])
    (hgather : n.cancelled = false → r'.toGather n.stations = r.toGather n.stations) :
    (n.setStation n.outlet (.relay r')).Gathers whole r' := by
  have hmerges : Merges n.outlet r' (n.stations.set n.outlet (.relay r')) :=
    h.merges.setRelay haction hinputs
  exact {
    merges := hmerges
    within := fun hcancelled => by
      rw [hreach hcancelled, List.append_nil]
      exact h.received_within
    whole := fun hcancelled => by
      show n.received ++ Relay.toGather (n.stations.set n.outlet _) r' = whole
      rw [toGather_set hmerges.notMem, hgather hcancelled, h.whole hcancelled] }

/-- The relay looks at the token. -/
theorem Gathers.check (h : n.Gathers whole r) (hphase : r.phase = .checking) :
    (n.setStation n.outlet (.relay (r.check n.cancelled))).Gathers whole
      (r.check n.cancelled) := by
  have hidle : (Station.relay r).stock = [] :=
    Station.stock_of_idle (offer?_of_idle (.inl hphase))
  rw [Relay.check]
  split
  · rename_i hwhy
    refine h.turn rfl (List.tail_suffix _) (fun _ l => Relay.inReach_nextInput l r) ?_
    intro hcancelled
    have hinputs : r.inputs = [] := by simpa [hcancelled] using hwhy
    rw [Relay.toGather, Relay.toGather, hidle, Station.stock_of_idle r.offer?_nextInput,
      Relay.nextInput, hinputs]
    rfl
  · rename_i hwhy
    refine h.turn rfl (List.suffix_refl _) ?_ ?_
    · intro hcancelled
      simp [hcancelled] at hwhy
    · intro _
      rw [Relay.toGather, Relay.toGather, hidle]
      rfl

/-- The relay finds the stream closed at which it waits. -/
theorem Gathers.closed (h : n.Gathers whole r) (hphase : r.phase = .receiving)
    (hinput : r.inputs.head? = some input) (hclosed : ClosedAt n.stations input) :
    (n.setStation n.outlet (.relay r.nextInput)).Gathers whole r.nextInput := by
  refine h.turn rfl (List.tail_suffix _) (fun _ l => Relay.inReach_nextInput l r) ?_
  intro _
  obtain ⟨js, hinputs⟩ := List.head?_eq_some_iff.mp hinput
  rw [Relay.toGather, Relay.toGather, Station.stock_of_idle (offer?_of_idle (.inr hphase)),
    Station.stock_of_idle r.offer?_nextInput, Relay.nextInput, hinputs, List.flatMap_cons,
    hclosed.stock]
  rfl

/-- After cancellation, a station gives up what it offers. -/
theorem Gathers.giveUp (h : n.Gathers whole r) (hcancelled : n.cancelled = true)
    (hs : n.stations[i]? = some s) : ∃ r', (n.setStation i s.giveUp).Gathers whole r' := by
  have huncancelled : n.cancelled ≠ false := by
    rw [hcancelled]
    nofun
  by_cases hi : i = n.outlet
  · subst hi
    rw [h.merges.relay, Option.some.injEq] at hs
    subst hs
    exact ⟨_, h.turn rfl (List.suffix_refl _) (fun _ _ => rfl) (absurd · huncancelled)⟩
  · refine ⟨r, h.merges.setOther hs hi (Station.isRelay_giveUp s), fun _ => ?_,
      (absurd · huncancelled)⟩
    refine List.IsPrefix.trans ?_ (h.within hcancelled)
    exact (List.prefix_append_right_inj _).mpr (inReach_giveUp hs r)

/-- **One move keeps it so.** -/
theorem Gathers.step (h : n.Gathers whole r) (hstep : n.Step m n')
    (hgive : n.cancelled = false → ∀ i, m ≠ .giveUp i) : ∃ r', n'.Gathers whole r' := by
  cases hstep with
  | read hs hoffer => exact ⟨_, h.read hs hoffer⟩
  | check hr hphase =>
    obtain ⟨rfl, rfl⟩ := h.merges.place hr
    exact ⟨_, h.check hphase⟩
  | accept hr hphase hinput hs hoffer =>
    obtain ⟨rfl, rfl⟩ := h.merges.place hr
    exact ⟨_, h.accept hphase hinput hs hoffer⟩
  | closed hr hphase hinput hs hfinished =>
    obtain ⟨rfl, rfl⟩ := h.merges.place hr
    exact ⟨_, h.closed hphase hinput ⟨_, hs, hfinished⟩⟩
  | recheck hr hphase hcancelled =>
    obtain ⟨rfl, rfl⟩ := h.merges.place hr
    refine ⟨_, h.turn rfl (List.suffix_refl _) (fun _ _ => rfl) ?_⟩
    rw [hcancelled]
    nofun
  | giveUp hs hoffer hwhy =>
    cases hcancelled : n.cancelled with
    | true => exact h.giveUp hcancelled hs
    | false => exact absurd rfl (hgive hcancelled _)
  | cancel =>
    refine ⟨r, h.merges, fun _ => ?_, nofun⟩
    cases hcancelled : n.cancelled with
    | true => exact h.within hcancelled
    | false =>
      rw [← h.whole hcancelled]
      exact (List.prefix_append_right_inj _).mpr (r.inReach_isPrefix n.stations)

/-! ## 4. Any moves -/

/-- Who reads what in a merge of `k` streams. -/
def mergePlan (k i : Nat) : List Nat := if i = k then List.range k else []

theorem merge_getElem?_eq_some {inputs : List (List α)}
    (hs : (merge inputs).stations[i]? = some s) :
    (∃ items, s = .generator items ∧ i < inputs.length) ∨
      s = .relay (.start (List.range inputs.length) some) ∧ i = inputs.length := by
  rw [merge, List.getElem?_append, List.length_map] at hs
  split at hs
  · rename_i hlt
    rw [List.getElem?_map, Option.map_eq_some_iff] at hs
    obtain ⟨items, -, rfl⟩ := hs
    exact .inl ⟨items, rfl, hlt⟩
  · rename_i hge
    rw [List.getElem?_singleton] at hs
    split at hs
    · cases hs
      exact .inr ⟨rfl, by omega⟩
    · cases hs

theorem merge_gathers (inputs : List (List α)) :
    (merge inputs).Gathers inputs.flatten (.start (List.range inputs.length) some) where
  merges := {
    relay := by simp [merge]
    only := by
      intro i s hs hrelay
      rcases merge_getElem?_eq_some hs with ⟨items, rfl, -⟩ | ⟨-, hi⟩
      · cases hrelay
      · exact hi
    action := rfl
    nodup := List.nodup_cons.mpr ⟨by simp [merge, Relay.start], List.nodup_range⟩ }
  within := nofun
  whole _ := by
    have hall := flatMap_range_heldAt Station.stock (inputs.map Station.generator)
      [.relay (.start (List.range inputs.length) some)]
    rw [List.length_map, List.flatMap_map] at hall
    calc
      (List.range inputs.length).flatMap (heldAt Station.stock (merge inputs).stations)
          = inputs.flatMap (fun items => (Station.generator items).stock) := hall
      _ = inputs.flatten := List.flatMap_id

/-- All streams of a merge but the last are in its plan. -/
theorem merge_planned (inputs : List (List α)) :
    (merge inputs).Planned (mergePlan inputs.length) where
  covered := by
    intro j hj
    have hsize : (merge inputs).stations.length = inputs.length + 1 := by simp [merge]
    rw [hsize] at hj ⊢
    rcases Nat.lt_or_eq_of_le (Nat.le_of_lt_succ hj) with hlt | rfl
    · refine .inr ⟨inputs.length, Nat.lt_succ_self _, ?_⟩
      rw [mergePlan, if_pos rfl]
      exact List.mem_range.mpr hlt
    · exact .inl rfl
  forwards _ := by
    intro i s hs
    rcases merge_getElem?_eq_some hs with ⟨items, rfl, hi⟩ | ⟨rfl, rfl⟩
    · exact if_neg (by omega)
    · rw [mergePlan, if_pos rfl]
      exact Relay.Forwards.start _ _

end Network

/-- **A merge delivers its streams one after the other**: after any moves a prefix of them all, also
when the token was cancelled meanwhile, and all of them when the last stream is closed before. -/
theorem merge_delivers {inputs : List (List α)} {n : Network α}
    (h : Reaches Network.step? (.merge inputs) n) :
    n.received <+: inputs.flatten ∧
      (n.cancelled = false → n.isClosed = true → n.received = inputs.flatten) := by
  have hkeeps : n.Planned (Network.mergePlan inputs.length) ∧
      ∃ r, n.Gathers inputs.flatten r := by
    refine h.keeps (P := fun u => u.Planned (Network.mergePlan inputs.length) ∧
      ∃ r, u.Gathers inputs.flatten r) ?_
      ⟨Network.merge_planned inputs, _, Network.merge_gathers inputs⟩
    rintro u v m ⟨hplanned, r, hgathers⟩ hmove
    have hstep : u.Step m v := Network.step_of_step? hmove
    exact ⟨hplanned.step hstep, hgathers.step hstep (hplanned.ne_giveUp hstep)⟩
  obtain ⟨hplanned, r, hgathers⟩ := hkeeps
  refine ⟨hgathers.received_within, fun hcancelled hclosed => ?_⟩
  have hfinished : (Station.relay r).isFinished = true := by
    simpa [Network.isClosed, hgathers.merges.relay] using hclosed
  have hplace : r.Forwards n.stations (Network.mergePlan inputs.length n.outlet) :=
    hplanned.forwards hcancelled n.outlet _ hgathers.merges.relay
  have hinputs : r.inputs = [] := hplace.ended (Station.isFinished_relay.mp hfinished)
  have hwhole := hgathers.whole hcancelled
  rwa [Relay.toGather, Station.stock_of_finished hfinished, hinputs, List.flatMap_nil,
    List.append_nil, List.append_nil] at hwhole

end StoreQL.Concurrency
