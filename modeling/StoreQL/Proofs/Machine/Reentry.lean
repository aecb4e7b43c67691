/-
# Events that are triggered from within events

A callback may trigger events, and so callbacks run within callbacks, to any depth, on a machine
that they change under one another. What happened is written down here in the order of time, as a
`Happening` each: a trigger began, a callback was called on account of a trigger, a note was taken, a
callback was registered, a trigger ended. `Recorded.trigger` is `Machine.trigger` with such a record;
a trigger is known by the place in the record where it began.

`Completed k event m rest` says what has to follow when the trigger at the place `k` finds the
machine `m`: nothing but its end if there is no edge, and otherwise the calls of the callbacks that
`m` has for the event, in order, all with the old and the new state and the first of them on the
machine as it has just moved, and then its end. `Adds` says what a part of a run adds to the record.
The notes that are taken are written down as well, though callbacks may read and be guided by them.

Main statements: `trigger_forget`, that a record changes nothing; `trigger_adds`, by induction on the
depth of the triggers and on the scripts, with `Adds.trans` for what follows one after the other and
`Adds.nest` for what happens within; and `trigger_reentrant`, which says it for every trigger of a
run, together with which callbacks the machine has by then.
-/
import StoreQL.Machine.Basic

namespace StoreQL

variable {σ ε ω : Type}

/-! ## 1. Records -/

/-- What happens while events are triggered. -/
inductive Happening (σ ε ω : Type) where
  | began (event : ε) (machine : Machine σ ε ω)
  | called (trigger : Nat) (callback : σ → σ → Script σ ε ω) (old new : σ) (machine : Machine σ ε ω)
  | noted (entry : ω)
  | registered (event : ε) (callback : σ → σ → Script σ ε ω)
  | ended (trigger : Nat) (answer : Except (InvalidTransition σ ε) σ) (machine : Machine σ ε ω)

namespace Happening

/-- The note that is taken. -/
def note? : Happening σ ε ω → Option ω
  | .noted entry => some entry
  | .began .. | .called .. | .registered .. | .ended .. => none

/-- The event and the callback that is registered for it. -/
def registration? : Happening σ ε ω → Option (ε × (σ → σ → Script σ ε ω))
  | .registered event callback => some (event, callback)
  | .began .. | .called .. | .noted _ | .ended .. => none

/-- The callbacks that are registered for an event, in order. -/
def registeredFor [DecidableEq ε] (event : ε) (record : List (Happening σ ε ω)) :
    List (σ → σ → Script σ ε ω) :=
  ((record.filterMap registration?).filter (fun c => decide (c.1 = event))).map Prod.snd

/-- The callback that is called on account of a trigger, with its arguments. -/
def callOf? (trigger : Nat) : Happening σ ε ω → Option ((σ → σ → Script σ ε ω) × σ × σ)
  | .called k callback old new _ => if k = trigger then some (callback, old, new) else none
  | .began .. | .noted _ | .registered .. | .ended .. => none

end Happening

open Happening

/-- A machine, and what has happened so far. -/
structure Recorded (σ ε ω : Type) where
  machine : Machine σ ε ω
  record : List (Happening σ ε ω)

namespace Recorded

/-- Write down what happens. -/
def write (r : Recorded σ ε ω) (h : Happening σ ε ω) : Recorded σ ε ω :=
  { r with record := r.record ++ [h] }

/-- Run a script, given how events are triggered from within. -/
def runScript [DecidableEq σ] [DecidableEq ε]
    (fire : Recorded σ ε ω → ε → Option (Except (InvalidTransition σ ε) σ × Recorded σ ε ω)) :
    Script σ ε ω → Recorded σ ε ω → Option (Recorded σ ε ω)
  | .done, r => some r
  | .note entry next, r =>
    runScript fire next ({ r with machine := r.machine.note entry }.write (.noted entry))
  | .readNotes next, r => runScript fire (next r.machine.notes) r
  | .readState next, r => runScript fire (next r.machine.current) r
  | .readEvents next, r => runScript fire (next r.machine.validEvents) r
  | .trigger event next, r => do
    let (answer, r) ← fire r event
    runScript fire (next answer) r
  | .addEdge source event target next, r =>
    runScript fire next { r with machine := r.machine.addEdge source event target }
  | .register event callback next, r =>
    runScript fire next
      ({ r with machine := r.machine.register event callback }.write (.registered event callback))

/-- Run some callbacks one after the other, on account of the trigger that began at a place. -/
def runCallbacks [DecidableEq σ] [DecidableEq ε]
    (fire : Recorded σ ε ω → ε → Option (Except (InvalidTransition σ ε) σ × Recorded σ ε ω))
    (trigger : Nat) (old new : σ) :
    List (σ → σ → Script σ ε ω) → Recorded σ ε ω → Option (Recorded σ ε ω)
  | [], r => some r
  | callback :: rest, r => do
    let r ← runScript fire (callback old new) (r.write (.called trigger callback old new r.machine))
    runCallbacks fire trigger old new rest r

/-- Trigger an event, from within which events may be triggered to the given depth. -/
def trigger [DecidableEq σ] [DecidableEq ε] : (depth : Nat) → Recorded σ ε ω → ε →
    Option (Except (InvalidTransition σ ε) σ × Recorded σ ε ω)
  | 0, _, _ => none
  | depth + 1, ⟨m, record⟩, event =>
    let k := record.length
    let began := record ++ [.began event m]
    match m.target? event with
    | none =>
      let answer := .error ⟨m.current, event⟩
      some (answer, ⟨m, began ++ [.ended k answer m]⟩)
    | some new => do
      let moved := { m with current := new }
      let r ← runCallbacks (trigger depth) k m.current new (m.callbacksFor event) ⟨moved, began⟩
      return (.ok new, r.write (.ended k (.ok new) r.machine))

/-! ## 2. A record changes nothing -/

variable [DecidableEq σ] [DecidableEq ε]

section Forget

variable {fire : Recorded σ ε ω → ε → Option (Except (InvalidTransition σ ε) σ × Recorded σ ε ω)}
  {fire' : Machine σ ε ω → ε → Option (Machine.Outcome σ ε ω)}

/-- Triggering with a record comes to what triggering comes to. -/
def Forgets (fire : Recorded σ ε ω → ε → Option (Except (InvalidTransition σ ε) σ × Recorded σ ε ω))
    (fire' : Machine σ ε ω → ε → Option (Machine.Outcome σ ε ω)) : Prop :=
  ∀ r event, (fire r event).map (fun (answer, r') => ⟨answer, r'.machine⟩) = fire' r.machine event

theorem runScript_forget (hfire : Forgets fire fire') (script : Script σ ε ω)
    (r : Recorded σ ε ω) :
    (runScript fire script r).map machine = Machine.runScript fire' script r.machine := by
  induction script generalizing r with
  | done => rfl
  | note entry next ih => exact ih _
  | readNotes next ih => exact ih r.machine.notes r
  | readState next ih => exact ih r.machine.current r
  | readEvents next ih => exact ih r.machine.validEvents r
  | trigger event next ih =>
    have hstep := hfire r event
    rw [runScript, Machine.runScript, ← hstep]
    cases fire r event with
    | none => rfl
    | some result => exact ih result.1 result.2
  | addEdge source event target next ih => exact ih _
  | register event callback next _ ih => exact ih _

theorem runCallbacks_forget (hfire : Forgets fire fire') (k : Nat) (old new : σ)
    (callbacks : List (σ → σ → Script σ ε ω)) (r : Recorded σ ε ω) :
    (runCallbacks fire k old new callbacks r).map machine =
      Machine.runCallbacks fire' old new callbacks r.machine := by
  induction callbacks generalizing r with
  | nil => rfl
  | cons callback rest ih =>
    let called := r.write (.called k callback old new r.machine)
    have hstep : (runScript fire (callback old new) called).map machine =
        Machine.runScript fire' (callback old new) r.machine := runScript_forget hfire _ called
    rw [runCallbacks, Machine.runCallbacks, ← hstep]
    cases runScript fire (callback old new) called with
    | none => rfl
    | some r' => exact ih r'

/-- **A record changes nothing**: the answer and the machine are the same. -/
theorem trigger_forget (depth : Nat) :
    Forgets (σ := σ) (ε := ε) (ω := ω) (trigger depth) (Machine.trigger depth) := by
  induction depth with
  | zero => exact fun _ _ => rfl
  | succ depth ih =>
    intro ⟨m, record⟩ event
    rw [trigger, Machine.trigger]
    cases m.target? event with
    | none => rfl
    | some new =>
      have hstep := runCallbacks_forget ih record.length m.current new (m.callbacksFor event)
        ⟨{ m with current := new }, record ++ [.began event m]⟩
      simp only [← hstep]
      cases runCallbacks (trigger depth) record.length m.current new (m.callbacksFor event)
        ⟨{ m with current := new }, record ++ [.began event m]⟩ <;> rfl

end Forget

/-! ## 3. What follows when a trigger begins -/

/-- Where something stands in two lists one after the other. -/
theorem append_eq_append_cons {α : Type} {as bs before rest : List α} {a : α}
    (h : as ++ bs = before ++ a :: rest) :
    (∃ rest', as = before ++ a :: rest' ∧ rest = rest' ++ bs) ∨
      ∃ before', before = as ++ before' ∧ bs = before' ++ a :: rest := by
  rcases List.append_eq_append_iff.mp h with ⟨before', hbefore, hbs⟩ | ⟨rest', has, hrest⟩
  · exact .inr ⟨before', hbefore, hbs⟩
  · cases rest' with
    | nil => exact .inr ⟨[], by rw [has, List.append_nil, List.append_nil], hrest.symm⟩
    | cons first rest' =>
      obtain ⟨rfl, rfl⟩ := List.cons.inj hrest
      exact .inl ⟨rest', has, rfl⟩

theorem eq_of_singleton_eq_append_cons {α : Type} {a b : α} {before rest : List α}
    (h : [a] = before ++ b :: rest) : b = a :=
  List.mem_singleton.mp (h ▸ List.mem_append_cons_self)

/-- What has to follow in a record where the trigger at the place `k` finds the machine `m`. -/
inductive Completed (k : Nat) (event : ε) (m : Machine σ ε ω) : List (Happening σ ε ω) → Prop where
  | refused {after : List (Happening σ ε ω)} : m.target? event = none →
      after.filterMap (callOf? k) = [] →
      Completed k event m (.ended k (.error ⟨m.current, event⟩) m :: after)
  | moved {target : σ} {inside after : List (Happening σ ε ω)} {finish : Machine σ ε ω} :
      m.target? event = some target →
      inside.head? = (m.callbacksFor event).head?.map
        (fun c => .called k c m.current target { m with current := target }) →
      (inside = [] → finish = { m with current := target }) →
      inside.filterMap (callOf? k) =
        (m.callbacksFor event).map (fun c => (c, m.current, target)) →
      after.filterMap (callOf? k) = [] →
      Completed k event m (inside ++ .ended k (.ok target) finish :: after)

/-- What comes later does not matter, if the trigger calls nothing then. -/
theorem Completed.append {k : Nat} {event : ε} {m : Machine σ ε ω}
    {rest more : List (Happening σ ε ω)} (h : Completed k event m rest)
    (hmore : more.filterMap (callOf? k) = []) : Completed k event m (rest ++ more) := by
  cases h with
  | refused htarget hafter =>
    rw [List.cons_append]
    refine .refused htarget ?_
    rw [List.filterMap_append, hafter, hmore, List.nil_append]
  | moved htarget hhead hfinish hcalls hafter =>
    rw [List.append_assoc, List.cons_append]
    refine .moved htarget hhead hfinish hcalls ?_
    rw [List.filterMap_append, hafter, hmore, List.nil_append]

/-- What a part of a run adds to the record. Its triggers are completed in it, each with the
callbacks that have been registered by then, and callbacks are called only on account of triggers
that began before. -/
structure Adds (r r' : Recorded σ ε ω) (added : List (Happening σ ε ω)) : Prop where
  record : r'.record = r.record ++ added
  callbacks : r'.machine.callbacks = r.machine.callbacks ++ added.filterMap registration?
  notes : r'.machine.notes = r.machine.notes ++ added.filterMap note?
  completed : ∀ before event m rest, added = before ++ .began event m :: rest →
    m.callbacks = r.machine.callbacks ++ before.filterMap registration? ∧
      Completed (r.record.length + before.length) event m rest
  called : ∀ before k callback old new m rest,
    added = before ++ .called k callback old new m :: rest →
      ∃ event m', (r.record ++ before)[k]? = some (.began event m')

/-- Nothing is added on account of a trigger that began before. -/
def Quiet (r : Recorded σ ε ω) (added : List (Happening σ ε ω)) : Prop :=
  ∀ k < r.record.length, added.filterMap (callOf? k) = []

variable {r r₁ r' : Recorded σ ε ω} {added added' : List (Happening σ ε ω)}

theorem adds_nothing (hrecord : r'.record = r.record)
    (hcallbacks : r'.machine.callbacks = r.machine.callbacks)
    (hnotes : r'.machine.notes = r.machine.notes) : Adds r r' [] where
  record := by rw [hrecord, List.append_nil]
  callbacks := by rw [hcallbacks, List.filterMap_nil, List.append_nil]
  notes := by rw [hnotes, List.filterMap_nil, List.append_nil]
  completed before event m rest h := by simp at h
  called before k callback old new m rest h := by simp at h

/-- What stands in a list stands there when the list goes on. -/
theorem getElem?_append_of_eq_some {α : Type} {as : List α} {k : Nat} {a : α} (h : as[k]? = some a)
    (bs : List α) : (as ++ bs)[k]? = some a := by
  rw [List.getElem?_append_left (List.getElem?_eq_some_iff.mp h).1, h]

/-- One thing that happens, but a trigger. -/
theorem adds_one {h : Happening σ ε ω} {m : Machine σ ε ω} (hbegan : ∀ event m, h ≠ .began event m)
    (hcalled : ∀ k callback old new m, h = .called k callback old new m →
      ∃ event m', r.record[k]? = some (.began event m'))
    (hcallbacks : m.callbacks = r.machine.callbacks ++ [h].filterMap registration?)
    (hnotes : m.notes = r.machine.notes ++ [h].filterMap note?) :
    Adds r ⟨m, r.record ++ [h]⟩ [h] where
  record := rfl
  callbacks := hcallbacks
  notes := hnotes
  completed before event m rest heq :=
    absurd (eq_of_singleton_eq_append_cons heq).symm (hbegan event m)
  called before k callback old new m rest heq := by
    obtain ⟨event, m', hk⟩ := hcalled k callback old new m (eq_of_singleton_eq_append_cons heq).symm
    exact ⟨event, m', getElem?_append_of_eq_some hk before⟩

/-- **One part of a run after the other**, if the later one calls nothing on account of the triggers
of the earlier one. -/
theorem Adds.trans (h : Adds r r₁ added) (h' : Adds r₁ r' added')
    (hquiet : ∀ k, r.record.length ≤ k → k < r₁.record.length →
      added'.filterMap (callOf? k) = []) : Adds r r' (added ++ added') where
  record := by rw [h'.record, h.record, List.append_assoc]
  callbacks := by rw [h'.callbacks, h.callbacks, List.filterMap_append, List.append_assoc]
  notes := by rw [h'.notes, h.notes, List.filterMap_append, List.append_assoc]
  completed before event m rest heq := by
    have hlength : r₁.record.length = r.record.length + added.length := by
      rw [h.record, List.length_append]
    -- The trigger began in the earlier part or in the later one.
    rcases append_eq_append_cons heq with ⟨rest', hadded, rfl⟩ | ⟨before', rfl, hadded'⟩
    · obtain ⟨hm, hcompleted⟩ := h.completed before event m rest' hadded
      refine ⟨hm, hcompleted.append (hquiet _ (Nat.le_add_right _ _) ?_)⟩
      rw [hlength, hadded, List.length_append, List.length_cons]
      omega
    · obtain ⟨hm, hcompleted⟩ := h'.completed before' event m rest hadded'
      rw [hlength, Nat.add_assoc, ← List.length_append] at hcompleted
      refine ⟨?_, hcompleted⟩
      rw [hm, h.callbacks, List.filterMap_append, List.append_assoc]
  called before k callback old new m rest heq := by
    rcases append_eq_append_cons heq with ⟨rest', hadded, -⟩ | ⟨before', rfl, hadded'⟩
    · exact h.called before k callback old new m rest' hadded
    · rw [← List.append_assoc, ← h.record]
      exact h'.called before' k callback old new m rest hadded'

/-- A trigger that is refused ends at once. -/
theorem adds_refused {m : Machine σ ε ω} {event : ε} (htarget : m.target? event = none)
    (record : List (Happening σ ε ω)) :
    let ending : Happening σ ε ω := .ended record.length (.error ⟨m.current, event⟩) m
    Adds ⟨m, record⟩ ⟨m, record ++ [.began event m] ++ [ending]⟩ [.began event m, ending] where
  record := by simp
  callbacks := by simp [registration?]
  notes := by simp [note?]
  completed before event' m' rest heq := by
    cases before with
    | nil =>
      cases heq
      exact ⟨by simp, .refused htarget rfl⟩
    | cons first before =>
      cases eq_of_singleton_eq_append_cons (List.cons.inj heq).2
  called before k callback old new m' rest heq := by
    cases before with
    | nil => cases (List.cons.inj heq).1
    | cons first before => cases eq_of_singleton_eq_append_cons (List.cons.inj heq).2

/-- **What happens within a trigger**: the trigger is completed with it. -/
theorem Adds.nest {m : Machine σ ε ω} {record inside : List (Happening σ ε ω)} {event : ε}
    {target : σ} (htarget : m.target? event = some target)
    (h : Adds ⟨{ m with current := target }, record ++ [.began event m]⟩ r' inside)
    (hhead : inside.head? = (m.callbacksFor event).head?.map
      (fun c => .called record.length c m.current target { m with current := target }))
    (hfinish : inside = [] → r'.machine = { m with current := target })
    (hcalls : inside.filterMap (callOf? record.length) =
      (m.callbacksFor event).map (fun c => (c, m.current, target))) :
    Adds ⟨m, record⟩ (r'.write (.ended record.length (.ok target) r'.machine))
      (.began event m :: (inside ++ [.ended record.length (.ok target) r'.machine])) where
  record := by simp [write, h.record]
  callbacks := by
    rw [write, h.callbacks]
    simp [registration?, List.filterMap_cons]
  notes := by
    rw [write, h.notes]
    simp [note?, List.filterMap_cons]
  completed before event' m' rest heq := by
    cases before with
    | nil =>
      obtain ⟨hbegan, rfl⟩ := List.cons.inj heq
      cases hbegan
      exact ⟨by simp, .moved htarget hhead hfinish hcalls rfl⟩
    | cons first before =>
      obtain ⟨rfl, htail⟩ := List.cons.inj heq
      rcases append_eq_append_cons htail with ⟨rest', hinside, rfl⟩ | ⟨before', -, hending⟩
      · obtain ⟨hm, hcompleted⟩ := h.completed before event' m' rest' hinside
        have hplace : (record ++ [Happening.began event m]).length + before.length =
            record.length + (Happening.began event m :: before).length := by
          simp only [List.length_append, List.length_cons, List.length_nil]
          omega
        rw [hplace] at hcompleted
        exact ⟨by rw [hm]; simp [registration?, List.filterMap_cons], hcompleted.append rfl⟩
      · cases eq_of_singleton_eq_append_cons hending
  called before k callback old new m' rest heq := by
    cases before with
    | nil => cases (List.cons.inj heq).1
    | cons first before =>
      obtain ⟨rfl, htail⟩ := List.cons.inj heq
      rcases append_eq_append_cons htail with ⟨rest', hinside, -⟩ | ⟨before', -, hending⟩
      · have hbegan := h.called before k callback old new m' rest' hinside
        rwa [List.append_assoc, List.singleton_append] at hbegan
      · cases eq_of_singleton_eq_append_cons hending

/-! ## 4. What a run adds to the record -/

section Runs

variable {fire : Recorded σ ε ω → ε → Option (Except (InvalidTransition σ ε) σ × Recorded σ ε ω)}

/-- A run adds to the record only what belongs there, and nothing on account of earlier triggers. -/
def Extends (r r' : Recorded σ ε ω) : Prop := ∃ added, Adds r r' added ∧ Quiet r added

theorem Extends.trans (h : Extends r r₁) (h' : Extends r₁ r') : Extends r r' := by
  obtain ⟨added, hadds, hquiet⟩ := h
  obtain ⟨added', hadds', hquiet'⟩ := h'
  have hle : r.record.length ≤ r₁.record.length := by
    rw [hadds.record, List.length_append]
    omega
  refine ⟨added ++ added', hadds.trans hadds' fun k _ hk => hquiet' k hk, fun k hk => ?_⟩
  rw [List.filterMap_append, hquiet k hk, hquiet' k (Nat.lt_of_lt_of_le hk hle), List.nil_append]

theorem runScript_extends
    (hfire : ∀ r event answer r', fire r event = some (answer, r') → Extends r r')
    (script : Script σ ε ω) {r r' : Recorded σ ε ω} (h : runScript fire script r = some r') :
    Extends r r' := by
  induction script generalizing r with
  | done =>
    cases h
    exact ⟨[], adds_nothing rfl rfl rfl, fun _ _ => rfl⟩
  | note entry next ih =>
    have hnote : Extends r ({ r with machine := r.machine.note entry }.write (.noted entry)) :=
      ⟨_, adds_one nofun nofun (by simp [Machine.note, registration?, List.filterMap_cons]) rfl,
        fun _ _ => rfl⟩
    exact hnote.trans (ih h)
  | readNotes next ih => exact ih r.machine.notes h
  | readState next ih => exact ih r.machine.current h
  | readEvents next ih => exact ih r.machine.validEvents h
  | trigger event next ih =>
    obtain ⟨⟨answer, r₁⟩, hfired, hnext⟩ := Option.bind_eq_some_iff.mp h
    exact (hfire r event answer r₁ hfired).trans (ih answer hnext)
  | addEdge source event target next ih =>
    have hedge : Extends r { r with machine := r.machine.addEdge source event target } :=
      ⟨[], adds_nothing rfl rfl rfl, fun _ _ => rfl⟩
    exact hedge.trans (ih h)
  | register event callback next _ ih =>
    have hregister : Extends r ({ r with machine := r.machine.register event callback }.write
        (.registered event callback)) :=
      ⟨_, adds_one nofun nofun rfl (by simp [Machine.register, note?, List.filterMap_cons]),
        fun _ _ => rfl⟩
    exact hregister.trans (ih h)

/-- **Callbacks that run one after the other** are called in order, on account of their trigger, and
whatever else they do is on account of later triggers. -/
theorem runCallbacks_adds
    (hfire : ∀ r event answer r', fire r event = some (answer, r') → Extends r r')
    {k : Nat} {old new : σ} (callbacks : List (σ → σ → Script σ ε ω)) {r r' : Recorded σ ε ω}
    (hbegan : ∃ event m, r.record[k]? = some (.began event m))
    (h : runCallbacks fire k old new callbacks r = some r') :
    ∃ added, Adds r r' added ∧
      (∀ j < r.record.length, added.filterMap (callOf? j) =
        if j = k then callbacks.map (fun c => (c, old, new)) else []) ∧
      added.head? = callbacks.head?.map (fun c => .called k c old new r.machine) ∧
      (added = [] → r'.machine = r.machine) := by
  induction callbacks generalizing r with
  | nil =>
    cases h
    exact ⟨[], adds_nothing rfl rfl rfl, by simp, rfl, fun _ => rfl⟩
  | cons callback rest ih =>
    obtain ⟨r₁, hscript, hrest⟩ := Option.bind_eq_some_iff.mp h
    let call : Happening σ ε ω := .called k callback old new r.machine
    have hcall : Adds r (r.write call) [call] := by
      refine adds_one nofun ?_ (by simp [call, registration?, List.filterMap_cons])
        (by simp [call, note?, List.filterMap_cons])
      intro j _ _ _ _ heq
      have hj : k = j := (Happening.called.inj heq).1
      exact hj ▸ hbegan
    obtain ⟨within, hwithin, hquiet⟩ := runScript_extends hfire (callback old new) hscript
    have hfirst : Adds r r₁ ([call] ++ within) := hcall.trans hwithin fun j _ hj => hquiet j hj
    have hle : r.record.length ≤ r₁.record.length := by
      rw [hfirst.record, List.length_append]
      omega
    obtain ⟨event, m, hk⟩ := hbegan
    have hbegan' : ∃ event m, r₁.record[k]? = some (.began event m) :=
      ⟨event, m, hfirst.record ▸ getElem?_append_of_eq_some hk _⟩
    have hlt : k < r.record.length := (List.getElem?_eq_some_iff.mp hk).1
    obtain ⟨more, hmore, hcalls, -, -⟩ := ih hbegan' hrest
    refine ⟨[call] ++ within ++ more, hfirst.trans hmore fun j hj hj' => ?_, fun j hj => ?_, rfl,
      nofun⟩
    · have hne : j ≠ k := by omega
      rw [hcalls j hj', if_neg hne]
    · have hlt : j < (r.write call).record.length := by
        simp only [write, List.length_append]
        omega
      rw [List.filterMap_append, List.filterMap_append, hquiet j hlt,
        hcalls j (Nat.lt_of_lt_of_le hj hle)]
      by_cases hjk : j = k
      · subst hjk
        simp [call, callOf?]
      · simp [call, callOf?, hjk, Ne.symm hjk]

end Runs

/-- **What a trigger adds to the record**: that it began and, last of all, that it ended; and all
that happened between, to whatever depth, belongs there. -/
theorem trigger_adds {depth : Nat} {r r' : Recorded σ ε ω} {event : ε}
    {answer : Except (InvalidTransition σ ε) σ} (h : trigger depth r event = some (answer, r')) :
    ∃ rest, Adds r r' (.began event r.machine :: rest) ∧ Quiet r (.began event r.machine :: rest) ∧
      rest.getLast? = some (.ended r.record.length answer r'.machine) := by
  induction depth generalizing r event answer r' with
  | zero => cases h
  | succ depth ih =>
    obtain ⟨m, record⟩ := r
    have hfire : ∀ (r : Recorded σ ε ω) event answer r',
        trigger depth r event = some (answer, r') → Extends r r' := by
      intro r event answer r' hfired
      obtain ⟨rest, hadds, hquiet, -⟩ := ih hfired
      exact ⟨_, hadds, hquiet⟩
    rw [trigger] at h
    cases htarget : m.target? event with
    | none =>
      simp only [htarget] at h
      cases h
      exact ⟨_, adds_refused htarget record, fun _ _ => rfl, rfl⟩
    | some target =>
      simp only [htarget] at h
      obtain ⟨r₁, hcallbacks, hreturn⟩ := Option.bind_eq_some_iff.mp h
      cases hreturn
      have hk : record.length < (record ++ [Happening.began event m]).length := by simp
      obtain ⟨inside, hadds, hcalls, hhead, hfinish⟩ := runCallbacks_adds hfire
        (m.callbacksFor event) ⟨event, m, List.getElem?_concat_length⟩ hcallbacks
      refine ⟨_, hadds.nest htarget hhead hfinish ?_, fun j hj => ?_, ?_⟩
      · rw [hcalls _ hk, if_pos rfl]
      · have hne : j ≠ record.length := Nat.ne_of_lt hj
        have hlt : j < (record ++ [Happening.began event m]).length := Nat.lt_trans hj hk
        simp only [List.filterMap_cons, callOf?, List.filterMap_append, hcalls j hlt, if_neg hne]
        rfl
      · exact List.getLast?_concat

end Recorded

/-! ## 5. The depth of the triggers -/

namespace Machine

variable [DecidableEq σ] [DecidableEq ε]

section Depth

variable {fire fire' : Machine σ ε ω → ε → Option (Outcome σ ε ω)}

theorem runScript_mono (hfire : ∀ m event o, fire m event = some o → fire' m event = some o)
    (script : Script σ ε ω) {m m' : Machine σ ε ω} (h : runScript fire script m = some m') :
    runScript fire' script m = some m' := by
  induction script generalizing m m' with
  | done => exact h
  | note entry next ih => exact ih h
  | readNotes next ih => exact ih m.notes h
  | readState next ih => exact ih m.current h
  | readEvents next ih => exact ih m.validEvents h
  | trigger event next ih =>
    obtain ⟨o, hfired, hnext⟩ := Option.bind_eq_some_iff.mp h
    exact Option.bind_eq_some_iff.mpr ⟨o, hfire m event o hfired, ih o.answer hnext⟩
  | addEdge source event target next ih => exact ih h
  | register event callback next _ ih => exact ih h

theorem runCallbacks_mono (hfire : ∀ m event o, fire m event = some o → fire' m event = some o)
    {old new : σ} (callbacks : List (σ → σ → Script σ ε ω)) {m m' : Machine σ ε ω}
    (h : runCallbacks fire old new callbacks m = some m') :
    runCallbacks fire' old new callbacks m = some m' := by
  induction callbacks generalizing m m' with
  | nil => exact h
  | cons callback rest ih =>
    obtain ⟨m₁, hscript, hrest⟩ := Option.bind_eq_some_iff.mp h
    exact Option.bind_eq_some_iff.mpr ⟨m₁, runScript_mono hfire _ hscript, ih hrest⟩

end Depth

/-- **A run that ends does not depend on the depth** to which events may be triggered. -/
theorem trigger_mono {depth depth' : Nat} (hle : depth ≤ depth') {m : Machine σ ε ω} {event : ε}
    {o : Outcome σ ε ω} (h : m.trigger depth event = some o) : m.trigger depth' event = some o := by
  induction depth generalizing depth' m event o with
  | zero => cases h
  | succ depth ih =>
    obtain ⟨depth', rfl⟩ : ∃ n, depth' = n + 1 := ⟨depth' - 1, by omega⟩
    rw [trigger] at h ⊢
    cases htarget : m.target? event with
    | none => simpa only [htarget] using h
    | some target =>
      simp only [htarget] at h ⊢
      obtain ⟨r, hcallbacks, hreturn⟩ := Option.bind_eq_some_iff.mp h
      have hmono : ∀ (m : Machine σ ε ω) event o,
          m.trigger depth event = some o → m.trigger depth' event = some o :=
        fun _ _ _ h => ih (Nat.le_of_succ_le_succ hle) h
      exact Option.bind_eq_some_iff.mpr ⟨r, runCallbacks_mono hmono _ hcallbacks, hreturn⟩

/-- A trigger without an edge is refused and nothing else happens. -/
theorem trigger_of_no_target {m : Machine σ ε ω} {event : ε} (h : m.target? event = none)
    (depth : Nat) : m.trigger (depth + 1) event = some ⟨.error ⟨m.current, event⟩, m⟩ := by
  rw [trigger, h]

/-- The answer is the state that the edge leads to, wherever the machine has got to by then. -/
theorem answer_of_target {m : Machine σ ε ω} {event : ε} {target : σ}
    (htarget : m.target? event = some target) {depth : Nat} {o : Outcome σ ε ω}
    (h : m.trigger depth event = some o) : o.answer = .ok target := by
  cases depth with
  | zero => cases h
  | succ depth =>
    rw [trigger, htarget] at h
    obtain ⟨r, -, hreturn⟩ := Option.bind_eq_some_iff.mp h
    cases hreturn
    rfl

/-! ## 6. Every trigger of a run -/

omit [DecidableEq σ] in
/-- The callbacks for an event, after those that were registered in between. -/
theorem callbacksFor_of_registered {m m' : Machine σ ε ω} {before : List (Happening σ ε ω)}
    (h : m'.callbacks = m.callbacks ++ before.filterMap registration?) (event : ε) :
    m'.callbacksFor event = m.callbacksFor event ++ registeredFor event before := by
  rw [callbacksFor, h, List.filter_append, List.map_append]
  rfl

/-- What the record says of a run in which the machine `m` was asked to trigger an event. -/
structure Accounts (m : Machine σ ε ω) (event : ε) (o : Outcome σ ε ω)
    (record : List (Happening σ ε ω)) : Prop where
  notes : o.machine.notes = m.notes ++ record.filterMap note?
  begins : record.head? = some (.began event m)
  ends : record.getLast? = some (.ended 0 o.answer o.machine)
  called : ∀ before k callback old new m' rest,
    record = before ++ .called k callback old new m' :: rest →
      ∃ event' m'', before[k]? = some (.began event' m'')
  completed : ∀ before event' m' rest, record = before ++ .began event' m' :: rest →
    m'.callbacksFor event' = m.callbacksFor event' ++ registeredFor event' before ∧
      Recorded.Completed before.length event' m' rest
  afterwards : ∀ event', o.machine.callbacksFor event' =
    m.callbacksFor event' ++ registeredFor event' record

/-- **Callbacks may do to the machine what they like.** If the triggers within a trigger end, then
the answer is the state that the edge leads to. In the record of the run, every trigger that moves
the machine is followed by the calls of exactly the callbacks that were registered for its event
before it began, in order and with the state before and the state after, of which the first finds
the machine as it has just moved; and one that is refused by its end. The callbacks that were
registered meanwhile are there for whatever is triggered afterwards. -/
theorem trigger_reentrant {m : Machine σ ε ω} {event : ε} {depth : Nat} {o : Outcome σ ε ω}
    (h : m.trigger depth event = some o) :
    (∀ depth' ≥ depth, m.trigger depth' event = some o) ∧
      (∀ target, m.target? event = some target → o.answer = .ok target) ∧
      (m.target? event = none → o = ⟨.error ⟨m.current, event⟩, m⟩) ∧
      ∃ record, Recorded.trigger depth ⟨m, []⟩ event = some (o.answer, ⟨o.machine, record⟩) ∧
        m.Accounts event o record := by
  refine ⟨fun _ hle => trigger_mono hle h, fun _ ht => answer_of_target ht h, ?_, ?_⟩
  · intro htarget
    have hrefused := trigger_mono (Nat.le_succ depth) h
    rw [trigger_of_no_target htarget] at hrefused
    exact (Option.some.inj hrefused).symm
  · have hforget := Recorded.trigger_forget (σ := σ) (ε := ε) (ω := ω) depth ⟨m, []⟩ event
    rw [h, Option.map_eq_some_iff] at hforget
    obtain ⟨⟨answer, r⟩, hrun, rfl⟩ := hforget
    obtain ⟨rest, hadds, -, hlast⟩ := Recorded.trigger_adds hrun
    have hrecord : r.record = .began event m :: rest := hadds.record
    refine ⟨r.record, hrun, ?_, by rw [hrecord]; rfl, ?_, ?_, ?_, fun event' => ?_⟩
    · rw [hrecord]
      exact hadds.notes
    · rw [hrecord, List.getLast?_cons, hlast]
      rfl
    · intro before k callback old new m' rest' heq
      exact hadds.called before k callback old new m' rest' (hrecord ▸ heq)
    · intro before event' m' rest' heq
      obtain ⟨hm', hcompleted⟩ := hadds.completed before event' m' rest' (hrecord ▸ heq)
      rw [List.length_nil, Nat.zero_add] at hcompleted
      exact ⟨callbacksFor_of_registered hm' event', hcompleted⟩
    · rw [hrecord]
      exact callbacksFor_of_registered hadds.callbacks event'

/-- A callback that writes down its arguments. -/
def observe (old new : Nat) : Script Nat Unit (Nat × Nat) := .note (old, new) .done

/-- A callback that does something only if nothing has been noted yet: it writes down its arguments,
registers an observer and goes on. -/
def goOnOnce (old new : Nat) : Script Nat Unit (Nat × Nat) :=
  .readNotes fun notes =>
    if notes = [] then .note (old, new) (.register () observe (.trigger () fun _ => .done))
    else .done

/-- Two edges one after the other, a callback that goes on and an observer. -/
def twoSteps : Machine Nat Unit (Nat × Nat) :=
  ((((start 0).addEdge 0 () 1).addEdge 1 () 2).register () goOnOnce).register () observe

/-- The inner trigger runs both observers and the outer one, that began before, only its own; and it
answers with the state in between. -/
theorem trigger_reentrant_twoSteps :
    ∃ o, twoSteps.trigger 2 () = some o ∧
      o.machine.notes = [(0, 1), (1, 2), (1, 2), (0, 1)] ∧
      o.machine.current = 2 ∧ o.answer = .ok 1 ∧
      ∃ record, twoSteps.Accounts () o record := by
  obtain ⟨o, ho⟩ : ∃ o, twoSteps.trigger 2 () = some o := ⟨_, rfl⟩
  obtain ⟨-, hanswer, -, record, -, haccounts⟩ := trigger_reentrant ho
  refine ⟨o, ho, ?_, ?_, hanswer 1 rfl, record, haccounts⟩
  · cases ho
    rfl
  · cases ho
    rfl

end Machine
end StoreQL
