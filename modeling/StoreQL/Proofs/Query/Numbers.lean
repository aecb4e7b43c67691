/-
# The numbers of a statement

A statement names numbers at three kinds of place: as its limit, as the number of its workers and as
values that are assigned. `NamesNumber` says where among the tokens such a number stands, by the
phrases before it, and `numberAt?` what the nodes of the statement keep at the place.

Main statements: `NamesNumber.kept`, that the literal of its text is kept of a number that is named;
and `StatementPhrase.named`, that no other number is kept but the one worker that is meant where
none is said.
-/
import StoreQL.Proofs.Query.Extent

namespace StoreQL.Query

/-! ## 1. The numbers of a statement -/

/-- A place of a statement where a number may stand: its limit, its number of workers, and the
values that it assigns, which are counted from zero. -/
inductive NumberPlace where
  | limit
  | workers
  | assigned (index : Nat)
deriving DecidableEq, Repr

/-- Some assignments, the one at the index of which assigns the number `n`. -/
inductive AssignsNumber : Nat → Token → List Token → Prop where
  | first {name : String} {e n : Token} {ts rest : List Token} :
      FieldPhrase name ts (e :: n :: rest) → e.kind = .operator → e.text = "=" →
      n.kind = .number → AssignsNumber 0 n ts
  | later {o : Outline Node} {c n : Token} {ts ts' : List Token} {index : Nat} :
      AssignmentPhrase o ts (c :: ts') → c.kind = .comma → AssignsNumber index n ts' →
      AssignsNumber (index + 1) n ts

/-- A statement that names the number `n` at a place. -/
inductive NamesNumber : NumberPlace → Token → List Token → Prop where
  | limit {s f e l n : Token} {name : String} {ts ts₁ ts₂ rest : List Token}
      {filters orders : List (Outline Node)} :
      s.isKeyword "SELECT" → ProjectionPhrase name ts (f :: e :: ts₁) → f.isKeyword "FROM" →
      IsSource e → FilterPhrase filters ts₁ ts₂ → OrderPhrase orders ts₂ (l :: n :: rest) →
      l.isKeyword "LIMIT" → n.kind = .number → NamesNumber .limit n (s :: ts)
  | workers {s e w c n : Token} {ts ts₁ rest : List Token}
      {assignments filters : List (Outline Node)} :
      s.isKeyword "UPDATE" → e.kind = .identifier → w.isKeyword "SET" →
      AssignmentsPhrase assignments ts ts₁ → FilterPhrase filters ts₁ (c :: n :: rest) →
      c.isKeyword "CONCURRENT" → n.kind = .number → NamesNumber .workers n (s :: e :: w :: ts)
  | assigned {s e w n : Token} {ts : List Token} {index : Nat} :
      s.isKeyword "UPDATE" → e.kind = .identifier → w.isKeyword "SET" → AssignsNumber index n ts →
      NamesNumber (.assigned index) n (s :: e :: w :: ts)

/-- The count of a limit. -/
def limitCount? : Outline Node → Option Literal
  | .node ⟨.limit, _, attributes⟩ _ => attributes.find? "count"
  | _ => none

/-- The value of an assignment. -/
def assignedValue? : Outline Node → Option Literal
  | .node ⟨.assignment, _, _⟩ [_, .node ⟨.value, _, attributes⟩ _] => attributes.find? "value"
  | _ => none

/-- What the nodes of a statement keep at a place: the count of the limit, which is the last part;
an attribute of the statement itself; and the value of an assignment, of which the first comes after
the name of what is updated. -/
def numberAt? : NumberPlace → Outline Node → Option Literal
  | .limit, .node _ parts => parts.getLast?.bind limitCount?
  | .workers, .node n _ => n.attributes.find? "concurrent"
  | .assigned index, .node _ parts => parts[index + 1]?.bind assignedValue?

variable {o o' : Outline Node} {os : List (Outline Node)} {ts rest rest' : List Token} {n : Token}
  {place : NumberPlace} {index : Nat}

theorem AssignsNumber.kind (h : AssignsNumber index n ts) : n.kind = .number := by
  induction h with
  | first _ _ _ hn => exact hn
  | later _ _ _ ih => exact ih

theorem NamesNumber.kind (h : NamesNumber place n ts) : n.kind = .number := by
  cases h with
  | limit _ _ _ _ _ _ _ hn => exact hn
  | workers _ _ _ _ _ _ hn => exact hn
  | assigned _ _ _ hn => exact hn.kind

theorem Taken.mem {p : Token → Prop} {t : Token} (h : Taken p ts rest) (ht : t ∈ rest) :
    t ∈ ts := by
  obtain ⟨taken, rfl, -⟩ := h
  exact List.mem_append_right taken ht

theorem AssignsNumber.mem (h : AssignsNumber index n ts) : n ∈ ts := by
  induction h with
  | first hf _ _ _ => exact hf.taken.mem (by simp)
  | later ha _ _ ih => exact ha.taken.mem (List.mem_cons_of_mem _ ih)

theorem NamesNumber.mem (h : NamesNumber place n ts) : n ∈ ts := by
  cases h with
  | limit _ hp _ _ hb hd _ _ =>
    have hn : n ∈ _ := hb.taken.mem (hd.taken.mem (by simp))
    exact List.mem_cons_of_mem _ (hp.taken.mem (by simp [hn]))
  | workers _ _ _ has hb _ _ =>
    have hn : n ∈ _ := has.taken.mem (hb.taken.mem (by simp))
    simp [hn]
  | assigned _ _ _ hn =>
    have hn := hn.mem
    simp [hn]

/-! ## 2. What is kept of them -/

theorem AssignmentPhrase.unique (h : AssignmentPhrase o ts rest)
    (h' : AssignmentPhrase o' ts rest') : o = o' ∧ rest = rest' := by
  obtain ⟨a, ha, rfl⟩ := assignment_iff.mpr h
  obtain ⟨a', ha', rfl⟩ := assignment_iff.mpr h'
  cases ha.symm.trans ha'
  exact ⟨rfl, rfl⟩

/-- One of the nodes of some assignments is that of the assigned number. -/
theorem AssignsNumber.node (h : AssignsNumber index n ts) (has : AssignmentsPhrase os ts rest) :
    ∃ name, os[index]? = some (.node ⟨.assignment, "=", []⟩
      [.node ⟨.field, name, []⟩ [], .node ⟨.value, (Literal.ofNumeral n.text).render,
        [("value", .ofNumeral n.text)]⟩ []]) := by
  induction h generalizing os rest with
  | @first name e n ts rest' hf hek het hn =>
    have ha := AssignmentPhrase.sets hf hek het (.number hn)
    cases has with
    | last ha' _ => exact ⟨name, by rw [(ha'.unique ha).1, List.getElem?_cons_zero]⟩
    | more ha' _ _ => exact ⟨name, by rw [(ha'.unique ha).1, List.getElem?_cons_zero]⟩
  | later ha hc _ ih =>
    cases has with
    | last ha' hcomma =>
      obtain ⟨-, rfl⟩ := ha'.unique ha
      exact absurd hc hcomma
    | more ha' _ has' =>
      obtain ⟨-, hrest⟩ := ha'.unique ha
      cases hrest
      obtain ⟨name, hname⟩ := ih has'
      exact ⟨name, by rw [List.getElem?_cons_succ, hname]⟩

/-- **What is kept of a number is the literal of its text.** -/
theorem NamesNumber.kept (h : NamesNumber place n ts) (ho : StatementPhrase o ts rest) :
    numberAt? place o = some (.ofNumeral n.text) := by
  cases h with
  | limit hs hp hf he hb hd hl hn =>
    obtain ⟨rfl, -⟩ := ho.unique (.select hs hp hf he hb hd (.present hl hn))
    rw [numberAt?, ← List.cons_append, ← List.cons_append, List.getLast?_concat]
    simp [limitCount?, Dictionary.find?]
  | workers hs he hw has hb hc hn =>
    obtain ⟨rfl, -⟩ := ho.unique (.update hs he hw has hb (.counted hc hn))
    simp [numberAt?, Dictionary.find?]
  | assigned hs he hw hn =>
    cases ho with
    | @update _ _ _ _ _ _ _ _ assignments _ _ _ _ has _ _ =>
      obtain ⟨name, hname⟩ := hn.node has
      have hlt := (List.getElem?_eq_some_iff.mp hname).1
      simp [numberAt?, List.getElem?_append_left hlt, hname, assignedValue?, Dictionary.find?]
    | select hs' => exact absurd (Reader.isKeyword_unique hs hs') (by decide)
    | find hs' => exact absurd (Reader.isKeyword_unique hs hs') (by decide)
    | analyze hs' => exact absurd (Reader.isKeyword_unique hs hs') (by decide)

/-! ## 3. Nothing else is kept as a number -/

variable {p : Outline Node} {v : Literal} {d : Decimal}

theorem kind_of_limitCount? (h : limitCount? p = some v) : p.value.kind = .limit := by
  unfold limitCount? at h
  split at h
  · rfl
  · cases h

theorem kind_of_assignedValue? (h : assignedValue? p = some v) : p.value.kind = .assignment := by
  unfold assignedValue? at h
  split at h
  · rfl
  · cases h

theorem FilterPhrase.kinds (h : FilterPhrase os ts rest) : ∀ p ∈ os, p.value.kind = .filter := by
  cases h with
  | absent => exact nofun
  | present => simp [Outline.value]

theorem OrderPhrase.kinds (h : OrderPhrase os ts rest) : ∀ p ∈ os, p.value.kind = .orderBy := by
  cases h with
  | absent => exact nofun
  | present => simp [Outline.value]

theorem clauses_kinds {os' : List (Outline Node)} {mid : List Token} (hb : FilterPhrase os ts mid)
    (hd : OrderPhrase os' mid rest) :
    ∀ p ∈ os ++ os', p.value.kind = .filter ∨ p.value.kind = .orderBy := by
  intro p hp
  rcases List.mem_append.mp hp with hp | hp
  · exact .inl (hb.kinds p hp)
  · exact .inr (hd.kinds p hp)

theorem LimitPhrase.kinds (h : LimitPhrase os ts rest) : ∀ p ∈ os, p.value.kind = .limit := by
  cases h with
  | absent => exact nofun
  | present => simp [Outline.value]

theorem GroupPhrase.kinds (h : GroupPhrase os ts rest) : ∀ p ∈ os, p.value.kind = .groupBy := by
  cases h with
  | absent => exact nofun
  | present => simp [Outline.value]

theorem AssignmentsPhrase.kinds (h : AssignmentsPhrase os ts rest) :
    ∀ p ∈ os, p.value.kind = .assignment := by
  induction h with
  | last ha _ =>
    cases ha
    simp [Outline.value]
  | more ha _ _ ih =>
    cases ha
    exact List.forall_mem_cons.mpr ⟨rfl, ih⟩

/-- A number that is assigned is one that is named. -/
theorem AssignmentsPhrase.assigns (h : AssignmentsPhrase os ts rest) (hp : os[index]? = some p)
    (hv : assignedValue? p = some (.number d)) : ∃ n, AssignsNumber index n ts := by
  -- Of the tokens of values only a number stands for a number.
  have hnumber {o : Outline Node} {ts rest : List Token} (ha : AssignmentPhrase o ts rest)
      (hv : assignedValue? o = some (.number d)) : ∃ n, AssignsNumber 0 n ts := by
    cases ha with
    | sets hf hek het ht =>
      simp only [assignedValue?, Dictionary.find?, if_true, Option.some.injEq] at hv
      subst hv
      generalize hd : Literal.number d = v at ht
      cases ht with
      | number hn => exact ⟨_, .first hf hek het hn⟩
      | _ => cases hd
  induction h generalizing index with
  | last ha _ =>
    cases index with
    | zero =>
      cases hp
      exact hnumber ha hv
    | succ index => cases hp
  | more ha hc _ ih =>
    cases index with
    | zero =>
      cases hp
      exact hnumber ha hv
    | succ index =>
      obtain ⟨n, hn⟩ := ih hp
      exact ⟨n, .later ha hc hn⟩

/-- A limit that is kept is one that is named. -/
theorem StatementPhrase.limits {m : Node} (ho : StatementPhrase (.node m os) ts rest)
    (hp : os.getLast? = some p) (hkind : p.value.kind = .limit) :
    ∃ n, NamesNumber .limit n ts := by
  have hmem := List.mem_of_getLast? hp
  cases ho with
  | select hs hproj hf he hb hd hl =>
    cases hl with
    | present hl hn => exact ⟨_, .limit hs hproj hf he hb hd hl hn⟩
    | absent =>
      rw [List.append_nil, List.mem_cons, List.mem_cons] at hmem
      rcases hmem with rfl | rfl | hmem
      · cases hkind
      · cases hkind
      · simpa [hkind] using clauses_kinds hb hd p hmem
  | find _ _ hb hd =>
    rcases List.mem_cons.mp hmem with rfl | hmem
    · cases hkind
    · simpa [hkind] using clauses_kinds hb hd p hmem
  | update _ _ _ has hb _ =>
    rw [List.mem_cons, List.mem_append] at hmem
    rcases hmem with rfl | hmem | hmem
    · cases hkind
    · simpa [hkind] using has.kinds p hmem
    · simpa [hkind] using hb.kinds p hmem
  | analyze _ _ hb hg =>
    rw [List.mem_cons, List.mem_append] at hmem
    rcases hmem with rfl | hmem | hmem
    · cases hkind
    · simpa [hkind] using hb.kinds p hmem
    · simpa [hkind] using hg.kinds p hmem

/-- An assigned number that is kept is one that is named. -/
theorem StatementPhrase.assigned {m : Node} (ho : StatementPhrase (.node m os) ts rest)
    (hp : os[index + 1]? = some p) (hv : assignedValue? p = some (.number d)) :
    ∃ n, NamesNumber (.assigned index) n ts := by
  have hkind := kind_of_assignedValue? hv
  -- The first part is never an assignment: it is passed over by the index.
  have hmem {first : Outline Node} {parts : List (Outline Node)}
      (hp : (first :: parts)[index + 1]? = some p) : p ∈ parts := by
    rw [List.getElem?_cons_succ] at hp
    exact List.mem_of_getElem? hp
  cases ho with
  | update hs he hw has hb _ =>
    rw [List.getElem?_cons_succ] at hp
    rcases Nat.lt_or_ge index _ with hlt | hge
    · rw [List.getElem?_append_left hlt] at hp
      obtain ⟨n, hn⟩ := has.assigns hp hv
      exact ⟨n, .assigned hs he hw hn⟩
    · rw [List.getElem?_append_right hge] at hp
      simpa [hkind] using hb.kinds p (List.mem_of_getElem? hp)
  | select _ _ _ _ hb hd hl =>
    rcases List.mem_cons.mp (hmem hp) with rfl | hmem
    · cases hkind
    rcases List.mem_append.mp hmem with hmem | hmem
    · simpa [hkind] using clauses_kinds hb hd p hmem
    · simpa [hkind] using hl.kinds p hmem
  | find _ _ hb hd => simpa [hkind] using clauses_kinds hb hd p (hmem hp)
  | analyze _ _ hb hg =>
    rcases List.mem_append.mp (hmem hp) with hmem | hmem
    · simpa [hkind] using hb.kinds p hmem
    · simpa [hkind] using hg.kinds p hmem

/-- A number of workers that is kept is one that is named, or it is one. -/
theorem StatementPhrase.workers {m : Node} (ho : StatementPhrase (.node m os) ts rest)
    (hv : m.attributes.find? "concurrent" = some (.number d)) :
    (∃ n, NamesNumber .workers n ts) ∨ d = .ofNat 1 := by
  cases ho with
  | update hs he hw has hb hc =>
    cases hc with
    | absent => cases hv
    | counted hc hn => exact .inl ⟨_, .workers hs he hw has hb hc hn⟩
    | uncounted =>
      simp only [Dictionary.find?, if_true, Option.some.injEq, Literal.number.injEq] at hv
      exact .inr hv.symm
  | select => cases hv
  | find => cases hv
  | analyze => cases hv

/-- **A number that is kept is one that is named**, or the one worker that is meant where none is
said. -/
theorem StatementPhrase.named (ho : StatementPhrase o ts rest)
    (h : numberAt? place o = some (.number d)) :
    (∃ n, NamesNumber place n ts) ∨ (place = .workers ∧ d = .ofNat 1) := by
  obtain ⟨m, parts⟩ := o
  cases place with
  | limit =>
    obtain ⟨p, hp, hv⟩ := Option.bind_eq_some_iff.mp h
    exact .inl (ho.limits hp (kind_of_limitCount? hv))
  | workers => exact (ho.workers h).imp_right fun hd => ⟨rfl, hd⟩
  | assigned index =>
    obtain ⟨p, hp, hv⟩ := Option.bind_eq_some_iff.mp h
    exact .inl (ho.assigned hp hv)

end StoreQL.Query
