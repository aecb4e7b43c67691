/-
# The words that a machine accepts

Events are triggered on a machine without callbacks, one after the other. Some are refused, and the
machine stays as it is; the others move it along its edges. So the events that are accepted spell a
word that leads from the state at the beginning to the state in the end, and what is refused in
between leaves no trace.

`Leads edges s word t` says that the word leads from `s` to `t`, and `acceptedOf` picks the accepted
events out of a run by its answers. Main statements: `trigger_cases`, what one event does;
`triggerAll_leads` and `triggerAll_of_leads`, that the words that are accepted are those that
lead somewhere, by induction on the events and on the word; and `validEvents_eq_nil_iff_over`, that
no event is valid exactly if none will be accepted any more.
-/
import StoreQL.Proofs.Machine.Edges

namespace StoreQL

variable {σ ε ω : Type}

/-- The word leads from a state to another, an edge for each of its events. -/
inductive Leads (edges : List (Edge σ ε)) : σ → List ε → σ → Prop where
  | stay (s : σ) : Leads edges s [] s
  | go {e : Edge σ ε} {word : List ε} {t : σ} : e ∈ edges → Leads edges e.target word t →
      Leads edges e.source (e.event :: word) t

namespace Leads

variable {edges : List (Edge σ ε)} {s t : σ} {word : List ε}

/-- One event more. -/
theorem snoc (h : Leads edges s word t) {event : ε} {u : σ} (he : ⟨t, event, u⟩ ∈ edges) :
    Leads edges s (word ++ [event]) u := by
  induction h with
  | stay s => exact .go he (.stay u)
  | go hmem _ ih => exact .go hmem (ih he)

/-- The beginning of a word leads somewhere too. -/
theorem beginning {word' : List ε} (h : Leads edges s word t) (hbegins : word' <+: word) :
    ∃ u, Leads edges s word' u := by
  induction h generalizing word' with
  | stay s =>
    rw [List.prefix_nil.mp hbegins]
    exact ⟨s, .stay s⟩
  | @go e word t hmem _ ih =>
    cases word' with
    | nil => exact ⟨_, .stay _⟩
    | cons event rest =>
      obtain ⟨rfl, hrest⟩ := List.cons_prefix_cons.mp hbegins
      obtain ⟨u, hu⟩ := ih hrest
      exact ⟨u, .go hmem hu⟩

/-- No word but the empty one leads on from a state without edges. -/
theorem eq_nil (h : Leads edges s word t) (hnone : ∀ e ∈ edges, e.source ≠ s) :
    word = [] ∧ t = s := by
  cases h with
  | stay => exact ⟨rfl, rfl⟩
  | go hmem _ => exact absurd rfl (hnone _ hmem)

end Leads

/-- The events of a run that were accepted, by its answers. -/
def acceptedOf : List ε → List (Except (InvalidTransition σ ε) σ) → List ε
  | event :: events, .ok _ :: answers => event :: acceptedOf events answers
  | _ :: events, .error _ :: answers => acceptedOf events answers
  | _, _ => []

namespace Machine

variable [DecidableEq σ] [DecidableEq ε] {m : Machine σ ε ω}

/-- Trigger some events one after the other: the answers, and the machine in the end. -/
def triggerAll (depth : Nat) (m : Machine σ ε ω) (events : List ε) :
    Option (List (Except (InvalidTransition σ ε) σ) × Machine σ ε ω) :=
  m.performAll depth (events.map .trigger)

/-! ## 1. One event -/

/-- **What one event does** to a machine without callbacks: there is an edge for it and it moves the
machine along the edge, or there is none and it is refused. -/
theorem trigger_cases (hsilent : m.callbacks = []) (depth : Nat) (event : ε) :
    (∃ t, ⟨m.current, event, t⟩ ∈ m.edges ∧
        m.trigger (depth + 1) event = some ⟨.ok t, { m with current := t }⟩) ∨
      (∀ t, ⟨m.current, event, t⟩ ∉ m.edges) ∧
        m.trigger (depth + 1) event = some ⟨.error ⟨m.current, event⟩, m⟩ := by
  rw [trigger_silent hsilent, target?]
  cases hfind : m.edges.find? (·.isFor m.current event) with
  | none =>
    refine .inr ⟨fun t hmem => ?_, rfl⟩
    exact List.find?_eq_none.mp hfind _ hmem (Edge.isFor_iff.mpr rfl)
  | some e =>
    have hfor := List.find?_some hfind
    obtain ⟨hsource, hevent⟩ := Prod.mk.inj (Edge.isFor_iff.mp hfor)
    refine .inl ⟨e.target, ?_, rfl⟩
    rw [← hsource, ← hevent]
    exact List.mem_of_find?_eq_some hfind

/-- If no two edges are for the same, an event moves the machine along the one for it. -/
theorem trigger_of_mem (hsilent : m.callbacks = []) (hnodup : (m.edges.map Edge.key).Nodup)
    {event : ε} {t : σ} (hmem : ⟨m.current, event, t⟩ ∈ m.edges) (depth : Nat) :
    m.trigger (depth + 1) event = some ⟨.ok t, { m with current := t }⟩ := by
  rcases trigger_cases hsilent depth event with ⟨t', hmem', h⟩ | ⟨hnone, -⟩
  · obtain rfl : t' = t := by
      simpa using List.inj_on_of_nodup_map hnodup hmem' hmem rfl
    exact h
  · exact absurd hmem (hnone t)

omit [DecidableEq ε] in
theorem validEvents_eq_nil_iff : m.validEvents = [] ↔ ∀ e ∈ m.edges, e.source ≠ m.current := by
  simp [validEvents]

/-- **No event is valid exactly if every event is refused.** -/
theorem validEvents_eq_nil_iff_refused (hsilent : m.callbacks = []) (depth : Nat) :
    m.validEvents = [] ↔
      ∀ event, m.trigger (depth + 1) event = some ⟨.error ⟨m.current, event⟩, m⟩ := by
  rw [validEvents_eq_nil_iff]
  constructor
  · intro hnone event
    rcases trigger_cases hsilent depth event with ⟨t, hmem, -⟩ | ⟨-, h⟩
    · exact absurd rfl (hnone _ hmem)
    · exact h
  · rintro hrefused ⟨source, event, t⟩ hmem rfl
    rcases trigger_cases hsilent depth event with ⟨t', -, h⟩ | ⟨hnone, -⟩
    · rw [hrefused event] at h
      cases h
    · exact hnone t hmem

/-! ## 2. Any events -/

theorem triggerAll_cons {depth : Nat} {event : ε} {o : Outcome σ ε ω}
    (h : m.trigger depth event = some o) (events : List ε) :
    m.triggerAll depth (event :: events) =
      (o.machine.triggerAll depth events).map fun (answers, m') => (o.answer :: answers, m') := by
  rw [triggerAll, List.map_cons, performAll, perform, h]
  show (performAll depth o.machine _ >>= _) = _
  rw [triggerAll]
  cases o.machine.performAll depth (events.map .trigger) <;> rfl

/-- **The accepted events spell a word** that leads to where the machine is in the end. -/
theorem triggerAll_leads (hsilent : m.callbacks = []) (depth : Nat) (events : List ε) :
    ∃ answers t, m.triggerAll (depth + 1) events = some (answers, { m with current := t }) ∧
      answers.length = events.length ∧
      Leads m.edges m.current (acceptedOf events answers) t := by
  induction events generalizing m with
  | nil => exact ⟨[], m.current, rfl, rfl, .stay _⟩
  | cons event events ih =>
    rcases trigger_cases hsilent depth event with ⟨s, hmem, h⟩ | ⟨-, h⟩
    · obtain ⟨answers, t, hrun, hlength, hleads⟩ := ih (m := { m with current := s }) hsilent
      refine ⟨.ok s :: answers, t, ?_, congrArg (· + 1) hlength, .go hmem hleads⟩
      rw [triggerAll_cons h, hrun]
      rfl
    · obtain ⟨answers, t, hrun, hlength, hleads⟩ := ih hsilent
      refine ⟨.error ⟨m.current, event⟩ :: answers, t, ?_, congrArg (· + 1) hlength, hleads⟩
      rw [triggerAll_cons h, hrun]
      rfl

/-- **A word that leads somewhere is accepted** as a whole. -/
theorem triggerAll_of_leads (hsilent : m.callbacks = []) (hnodup : (m.edges.map Edge.key).Nodup)
    {s t : σ} {word : List ε} (h : Leads m.edges s word t) (depth : Nat) :
    ∃ answers, { m with current := s }.triggerAll (depth + 1) word =
        some (answers, { m with current := t }) ∧ acceptedOf word answers = word := by
  induction h with
  | stay s => exact ⟨[], rfl, rfl⟩
  | @go e word t hmem _ ih =>
    obtain ⟨answers, hrun, haccepted⟩ := ih
    have hmoves := trigger_of_mem (m := { m with current := e.source }) hsilent hnodup hmem depth
    refine ⟨.ok e.target :: answers, ?_, congrArg (e.event :: ·) haccepted⟩
    rw [triggerAll_cons hmoves, hrun]
    rfl

/-- **No event is valid exactly if nothing will ever be accepted** again. -/
theorem validEvents_eq_nil_iff_over (hsilent : m.callbacks = []) (depth : Nat) :
    m.validEvents = [] ↔ ∀ events, ∃ answers,
      m.triggerAll (depth + 1) events = some (answers, m) ∧ acceptedOf events answers = [] := by
  constructor
  · intro hnone events
    obtain ⟨answers, t, hrun, -, hleads⟩ := triggerAll_leads hsilent depth events
    obtain ⟨haccepted, rfl⟩ := hleads.eq_nil (validEvents_eq_nil_iff.mp hnone)
    exact ⟨answers, hrun, haccepted⟩
  · intro hover
    rw [validEvents_eq_nil_iff_refused hsilent depth]
    intro event
    rcases trigger_cases hsilent depth event with ⟨t, -, hmoves⟩ | ⟨-, hstays⟩
    · obtain ⟨answers, hrun, haccepted⟩ := hover [event]
      rw [triggerAll_cons hmoves] at hrun
      obtain rfl : [.ok t] = answers := congrArg Prod.fst (Option.some.inj hrun)
      cases haccepted
    · exact hstays

end Machine
end StoreQL
