/-
# The edges of a machine are a map

A machine keeps its edges in a list, and three questions are put to that list: where an event leads,
whether it leads anywhere, and which events lead anywhere. A `Chart` keeps a map from states and
events to states in its place, in which the edge that was added last wins. A machine that nobody
listens to does what the chart does, whatever requests are made of it, edges and events in any
order.

What carries this is that no state and event have two edges in the list (`Follows.nodup`), and that
the list is in the order in which they first came (`Follows.order`), since a second edge for the
same state and event takes the place of the first. Main statements: `keys_putEdge` and `find?_putEdge`,
what an edge that is added does to the list; `Follows.perform`, that one request keeps machine and
chart together; and `performAll_serves`, what follows after any requests.
-/
import Mathlib.Data.List.Nodup
import StoreQL.Machine.Basic

namespace StoreQL

variable {σ ε ω : Type}

/-! ## 1. Machines and charts -/

/-- What is asked of a machine: an edge more, or that an event be triggered. -/
inductive Request (σ ε : Type) where
  | addEdge (source : σ) (event : ε) (target : σ)
  | trigger (event : ε)
deriving Repr

/-- The states and events for which edges are added, in order. -/
def registered : List (Request σ ε) → List (σ × ε)
  | [] => []
  | .addEdge source event _ :: rest => (source, event) :: registered rest
  | .trigger _ :: rest => registered rest

/-- A current state, and a map from states and events to the states that they lead to. -/
structure Chart (σ ε : Type) where
  current : σ
  target? : σ → ε → Option σ

section Requests

variable [DecidableEq σ] [DecidableEq ε]

namespace Chart

/-- A chart that leads nowhere. -/
def start (initial : σ) : Chart σ ε := ⟨initial, fun _ _ => none⟩

/-- The answers to a request, and the chart afterwards. An edge takes the place of what the map held
for its state and event. -/
def perform (c : Chart σ ε) : Request σ ε → List (Except (InvalidTransition σ ε) σ) × Chart σ ε
  | .addEdge source event target =>
    ([], { c with target? := fun s e =>
      if s = source ∧ e = event then some target else c.target? s e })
  | .trigger event =>
    match c.target? c.current event with
    | some target => ([.ok target], { c with current := target })
    | none => ([.error ⟨c.current, event⟩], c)

/-- The answers to some requests, and the chart afterwards. -/
def performAll (c : Chart σ ε) :
    List (Request σ ε) → List (Except (InvalidTransition σ ε) σ) × Chart σ ε
  | [] => ([], c)
  | r :: rest =>
    let (answers, c) := c.perform r
    let (more, c) := c.performAll rest
    (answers ++ more, c)

end Chart

namespace Machine

/-- The answers to a request, and the machine afterwards. -/
def perform (depth : Nat) (m : Machine σ ε ω) :
    Request σ ε → Option (List (Except (InvalidTransition σ ε) σ) × Machine σ ε ω)
  | .addEdge source event target => some ([], m.addEdge source event target)
  | .trigger event => (m.trigger depth event).map fun o => ([o.answer], o.machine)

/-- The answers to some requests, and the machine afterwards. -/
def performAll (depth : Nat) (m : Machine σ ε ω) :
    List (Request σ ε) → Option (List (Except (InvalidTransition σ ε) σ) × Machine σ ε ω)
  | [] => some ([], m)
  | r :: rest => do
    let (answers, m) ← m.perform depth r
    let (more, m) ← m.performAll depth rest
    return (answers ++ more, m)

end Machine

/-! ## 2. Adding an edge to a list -/

/-- What an edge is for. -/
def Edge.key (e : Edge σ ε) : σ × ε := (e.source, e.event)

theorem Edge.isFor_iff {e : Edge σ ε} {source : σ} {event : ε} :
    e.isFor source event = true ↔ e.key = (source, event) := by
  simp [Edge.isFor, Edge.key]

namespace Machine

/-- What the edges are for: the same as before, and something more at the end if it is new. -/
theorem keys_putEdge (edge : Edge σ ε) (edges : List (Edge σ ε)) :
    (putEdge edge edges).map Edge.key =
      if edge.key ∈ edges.map Edge.key then edges.map Edge.key
      else edges.map Edge.key ++ [edge.key] := by
  induction edges with
  | nil => rfl
  | cons e rest ih =>
    rw [putEdge]
    by_cases hkey : e.key = edge.key
    · rw [if_pos (Edge.isFor_iff.mpr hkey), List.map_cons, List.map_cons, hkey]
      simp
    · have hfor : ¬ e.isFor edge.source edge.event = true := mt Edge.isFor_iff.mp hkey
      rw [if_neg hfor, List.map_cons, List.map_cons, ih]
      simp only [List.mem_cons, Ne.symm hkey, false_or]
      split <;> rfl

/-- The edge that is found: the new one for its own state and event, and the old one for any
other. -/
theorem find?_putEdge (edge : Edge σ ε) (edges : List (Edge σ ε)) (source : σ) (event : ε) :
    (putEdge edge edges).find? (·.isFor source event) =
      if edge.isFor source event then some edge else edges.find? (·.isFor source event) := by
  induction edges with
  | nil =>
    rw [putEdge, List.find?_cons]
    cases edge.isFor source event <;> rfl
  | cons e rest ih =>
    rw [putEdge]
    by_cases hkey : e.key = edge.key
    · have hsame : e.isFor source event = edge.isFor source event := by
        rw [Bool.eq_iff_iff, Edge.isFor_iff, Edge.isFor_iff, hkey]
      rw [if_pos (Edge.isFor_iff.mpr hkey), List.find?_cons, List.find?_cons, hsame]
      cases edge.isFor source event <;> rfl
    · have hfor : ¬ e.isFor edge.source edge.event = true := mt Edge.isFor_iff.mp hkey
      rw [if_neg hfor, List.find?_cons, List.find?_cons, ih]
      cases he : e.isFor source event with
      | false => rfl
      | true =>
        -- The edge that is found first is not for what the new one is for.
        have hother : edge.isFor source event = false := Bool.eq_false_iff.mpr fun hedge =>
          hkey ((Edge.isFor_iff.mp he).trans (Edge.isFor_iff.mp hedge).symm)
        rw [hother]
        rfl

/-! ## 3. A machine that follows a chart -/

/-- The machine has no callbacks and does what the chart does; `keys` is what edges were added for,
in order. -/
structure Follows (m : Machine σ ε ω) (c : Chart σ ε) (keys : List (σ × ε)) : Prop where
  silent : m.callbacks = []
  current : m.current = c.current
  targets : ∀ source event,
    (m.edges.find? (·.isFor source event)).map Edge.target = c.target? source event
  nodup : (m.edges.map Edge.key).Nodup
  order : m.edges.map Edge.key = keys.eraseDups

variable {m : Machine σ ε ω} {c : Chart σ ε} {keys : List (σ × ε)}

theorem start_follows (initial : σ) :
    (Machine.start initial : Machine σ ε ω).Follows (Chart.start initial) [] where
  silent := rfl
  current := rfl
  targets _ _ := rfl
  nodup := List.nodup_nil
  order := rfl

theorem Follows.target? (h : m.Follows c keys) (event : ε) :
    m.target? event = c.target? m.current event := h.targets m.current event

/-- One edge more, for what there was no edge for or for what there was one. -/
theorem Follows.addEdge (h : m.Follows c keys) (source : σ) (event : ε) (target : σ) :
    (m.addEdge source event target).Follows (c.perform (.addEdge source event target)).2
      (keys ++ [(source, event)]) where
  silent := h.silent
  current := h.current
  targets source' event' := by
    rw [Machine.addEdge, find?_putEdge]
    by_cases hsame : source' = source ∧ event' = event
    · obtain ⟨rfl, rfl⟩ := hsame
      simp [Chart.perform, Edge.isFor]
    · have hfor : ¬ (Edge.mk source event target).isFor source' event' = true := by
        rw [Edge.isFor_iff, Edge.key, Prod.mk.injEq]
        exact fun heq => hsame ⟨heq.1.symm, heq.2.symm⟩
      rw [if_neg hfor, h.targets]
      exact (if_neg hsame).symm
  nodup := by
    rw [Machine.addEdge, keys_putEdge]
    split
    · exact h.nodup
    · rename_i hnew
      refine List.nodup_append.mpr ⟨h.nodup, List.nodup_singleton _, fun key hkey key' hkey' => ?_⟩
      rintro rfl
      exact hnew (List.mem_singleton.mp hkey' ▸ hkey)
  order := by
    have hmem : Edge.key ⟨source, event, target⟩ ∈ keys.eraseDups ↔ (source, event) ∈ keys :=
      List.mem_eraseDups
    rw [Machine.addEdge, keys_putEdge, h.order, List.eraseDups_append]
    by_cases hold : (source, event) ∈ keys
    · rw [if_pos (hmem.mpr hold)]
      simp [List.removeAll, hold]
    · rw [if_neg (mt hmem.mp hold)]
      simp [List.removeAll, hold, Edge.key, List.eraseDups_cons]

/-- What a machine without callbacks does with an event. -/
theorem trigger_silent (h : m.callbacks = []) (depth : Nat) (event : ε) :
    m.trigger (depth + 1) event =
      match m.target? event with
      | some target => some ⟨.ok target, { m with current := target }⟩
      | none => some ⟨.error ⟨m.current, event⟩, m⟩ := by
  have hnone : m.callbacksFor event = [] := by
    rw [callbacksFor, h]
    rfl
  rw [trigger]
  cases m.target? event with
  | none => rfl
  | some target =>
    simp only [hnone]
    rfl

/-- **Machine and chart do the same with one request**, and stay together. -/
theorem Follows.perform (h : m.Follows c keys) (depth : Nat) (r : Request σ ε) :
    ∃ m', m.perform (depth + 1) r = some ((c.perform r).1, m') ∧
      m'.Follows (c.perform r).2 (keys ++ registered [r]) := by
  cases r with
  | addEdge source event target => exact ⟨_, rfl, h.addEdge source event target⟩
  | trigger event =>
    rw [Machine.perform, trigger_silent h.silent, h.target?, Chart.perform, ← h.current]
    have hkeys : keys ++ registered [Request.trigger event] = keys := List.append_nil keys
    rw [hkeys]
    cases c.target? m.current event with
    | none => exact ⟨m, rfl, h⟩
    | some target =>
      exact ⟨_, rfl, ⟨h.silent, rfl, h.targets, h.nodup, h.order⟩⟩

/-- **Machine and chart do the same with any requests**, and stay together. -/
theorem Follows.performAll (h : m.Follows c keys) (depth : Nat) (rs : List (Request σ ε)) :
    ∃ m', m.performAll (depth + 1) rs = some ((c.performAll rs).1, m') ∧
      m'.Follows (c.performAll rs).2 (keys ++ registered rs) := by
  induction rs generalizing m c keys with
  | nil => exact ⟨m, rfl, by simpa [registered, Chart.performAll] using h⟩
  | cons r rs ih =>
    obtain ⟨m', hm', h'⟩ := h.perform depth r
    obtain ⟨m'', hm'', h''⟩ := ih h'
    have hkeys : keys ++ registered [r] ++ registered rs = keys ++ registered (r :: rs) := by
      cases r <;> simp [registered]
    refine ⟨m'', ?_, hkeys ▸ h''⟩
    rw [Machine.performAll, hm']
    simp only [Option.bind_eq_bind, Option.bind_some, hm'']
    rfl

/-! ## 4. What follows for a machine -/

/-- What a machine without callbacks answers is what the chart says, and its questions agree. -/
structure Serves (m : Machine σ ε ω) (c : Chart σ ε) (keys : List (σ × ε)) : Prop where
  current : m.current = c.current
  trigger : ∀ depth event, m.trigger (depth + 1) event =
    match c.target? m.current event with
    | some target => some ⟨.ok target, { m with current := target }⟩
    | none => some ⟨.error ⟨m.current, event⟩, m⟩
  canTransition_iff : ∀ event,
    m.canTransition event = true ↔ ∃ target, c.target? m.current event = some target
  succeeds_iff : ∀ depth event, m.canTransition event = true ↔
    ∃ o target, m.trigger (depth + 1) event = some o ∧ o.answer = .ok target
  mem_validEvents_iff : ∀ event, event ∈ m.validEvents ↔ m.canTransition event = true
  nodup_validEvents : m.validEvents.Nodup
  validEvents_eq : m.validEvents = (keys.eraseDups.filter (·.1 = m.current)).map Prod.snd
  again : ∀ source event target, (source, event) ∈ keys →
    (m.addEdge source event target).edges.map Edge.key = m.edges.map Edge.key ∧
      (m.addEdge source event target).validEvents = m.validEvents ∧
      (source = m.current → (m.addEdge source event target).target? event = some target)

omit [DecidableEq ε] in
theorem validEvents_eq (m : Machine σ ε ω) :
    m.validEvents = ((m.edges.map Edge.key).filter (·.1 = m.current)).map Prod.snd := by
  rw [validEvents, List.filter_map, List.map_map]
  rfl

theorem mem_validEvents_iff (m : Machine σ ε ω) (event : ε) :
    event ∈ m.validEvents ↔ m.canTransition event = true := by
  rw [canTransition, List.any_eq_true, validEvents, List.mem_map]
  constructor
  · rintro ⟨e, he, rfl⟩
    obtain ⟨hmem, hsource⟩ := List.mem_filter.mp he
    refine ⟨e, hmem, Edge.isFor_iff.mpr ?_⟩
    rw [Edge.key, of_decide_eq_true hsource]
  · rintro ⟨e, hmem, hfor⟩
    obtain ⟨hsource, hevent⟩ := Prod.mk.inj (Edge.isFor_iff.mp hfor)
    exact ⟨e, List.mem_filter.mpr ⟨hmem, decide_eq_true hsource⟩, hevent⟩

theorem canTransition_iff (m : Machine σ ε ω) (event : ε) :
    m.canTransition event = true ↔ ∃ target, m.target? event = some target := by
  rw [← Option.isSome_iff_exists, target?, Option.isSome_map, List.find?_isSome, canTransition,
    List.any_eq_true]

theorem Follows.serves (h : m.Follows c keys) : m.Serves c keys where
  current := h.current
  trigger depth event := by rw [trigger_silent h.silent, h.target?]
  canTransition_iff event := by rw [canTransition_iff, h.target?]
  succeeds_iff depth event := by
    rw [canTransition_iff, trigger_silent h.silent]
    cases m.target? event with
    | none => simp
    | some target => simp
  mem_validEvents_iff := mem_validEvents_iff m
  nodup_validEvents := by
    rw [validEvents_eq]
    refine (h.nodup.filter _).map_on fun key hkey key' hkey' hevent => ?_
    -- Two of them are for the same state, and so for the same event only if they are one.
    have hstate : key.1 = m.current := of_decide_eq_true (List.mem_filter.mp hkey).2
    have hstate' : key'.1 = m.current := of_decide_eq_true (List.mem_filter.mp hkey').2
    exact Prod.ext (hstate.trans hstate'.symm) hevent
  validEvents_eq := by rw [validEvents_eq, h.order]
  again source event target hmem := by
    have hold : Edge.key ⟨source, event, target⟩ ∈ m.edges.map Edge.key := by
      rw [h.order]
      exact List.mem_eraseDups.mpr hmem
    have hkeys : (m.addEdge source event target).edges.map Edge.key = m.edges.map Edge.key := by
      rw [Machine.addEdge, keys_putEdge, if_pos hold]
    refine ⟨hkeys, ?_, ?_⟩
    · rw [validEvents_eq, validEvents_eq, hkeys]
      rfl
    · rintro rfl
      rw [(h.addEdge m.current event target).target?]
      simp [Chart.perform, Machine.addEdge]

end Machine

/-- **The edges of a machine are a map in which the last edge wins.** Whatever is asked of a machine
without callbacks, edges and events in any order, it answers as the map says; the three questions
about an event agree; and the valid events stand in the order in which they were first registered
for the current state, each once, which an edge that is registered again does not change. -/
theorem performAll_serves (initial : σ) (depth : Nat) (requests : List (Request σ ε)) :
    ∃ m : Machine σ ε ω,
      (Machine.start initial).performAll (depth + 1) requests =
          some (((Chart.start initial).performAll requests).1, m) ∧
        m.Serves ((Chart.start initial).performAll requests).2 (registered requests) := by
  obtain ⟨m, hm, hfollows⟩ := (Machine.start_follows (ω := ω) initial).performAll depth requests
  exact ⟨m, hm, hfollows.serves⟩

end Requests
end StoreQL
