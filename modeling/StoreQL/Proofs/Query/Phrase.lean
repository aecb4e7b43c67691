/-
# The grammar of queries

A phrase is a stretch of tokens that says one thing. `FieldPhrase name ts rest` says that `ts`
begins with a field of that name and that `rest` is left; the other phrases are written alike, with
the nodes that the phrase stands for in the place of the name. What is optional is taken as soon as
its first token comes, so the rule for its absence asks that the token does not come. A condition is
the run of tokens up to the next word that begins a clause, or up to the end.

`StatementPhrase o ts rest` puts them together: the four statements, each with the outline of the
nodes that it stands for.

Main statements: `statement_iff`, that the reader of statements takes exactly the statement phrases;
`StatementPhrase.unique`, that the grammar is not ambiguous; and `parseTokens_grammar`, that tokens
are accepted exactly if they begin with a statement phrase, with the tree that the phrase
prescribes.
-/
import StoreQL.Proofs.Container.Outline
import StoreQL.Proofs.Query.Build

namespace StoreQL.Query

/-! ## 1. Phrases -/

/-- An identifier, or two with a point between them. -/
inductive FieldPhrase : String → List Token → List Token → Prop where
  | plain {t : Token} {rest : List Token} : t.kind = .identifier →
      ¬ Next (fun d => d.kind = .dot) rest → FieldPhrase t.text (t :: rest) rest
  | member {b d m : Token} {rest : List Token} : b.kind = .identifier → d.kind = .dot →
      m.kind = .identifier → FieldPhrase (b.text ++ "." ++ m.text) (b :: d :: m :: rest) rest

/-- `*` or a field. -/
inductive ProjectionPhrase : String → List Token → List Token → Prop where
  | whole {t : Token} {rest : List Token} : t.kind = .asterisk →
      ProjectionPhrase "*" (t :: rest) rest
  | field {name : String} {ts rest : List Token} : FieldPhrase name ts rest →
      ProjectionPhrase name ts rest

/-- The token of a value. -/
inductive ValueToken : Token → Literal → Prop where
  | string {t : Token} : t.kind = .string → ValueToken t (.string t.text)
  | number {t : Token} : t.kind = .number → ValueToken t (.ofNumeral t.text)
  | true {t : Token} : t.isKeyword "TRUE" → ValueToken t (.boolean true)
  | false {t : Token} : t.isKeyword "FALSE" → ValueToken t (.boolean false)
  | null {t : Token} : t.isKeyword "NULL" → ValueToken t .null

/-- A field, the sign and a value. -/
inductive AssignmentPhrase : Outline Node → List Token → List Token → Prop where
  | sets {name : String} {ts rest : List Token} {e t : Token} {v : Literal} :
      FieldPhrase name ts (e :: t :: rest) → e.kind = .operator → e.text = "=" → ValueToken t v →
      AssignmentPhrase
        (.node ⟨.assignment, "=", []⟩
          [.node ⟨.field, name, []⟩ [], .node ⟨.value, v.render, [("value", v)]⟩ []]) ts rest

/-- One assignment or more, with commas between them. -/
inductive AssignmentsPhrase : List (Outline Node) → List Token → List Token → Prop where
  | last {o : Outline Node} {ts rest : List Token} : AssignmentPhrase o ts rest →
      ¬ Next (fun c => c.kind = .comma) rest → AssignmentsPhrase [o] ts rest
  | more {o : Outline Node} {os : List (Outline Node)} {ts ts' rest : List Token} {c : Token} :
      AssignmentPhrase o ts (c :: ts') → c.kind = .comma → AssignmentsPhrase os ts' rest →
      AssignmentsPhrase (o :: os) ts rest

/-- A token that a condition passes over. -/
def PassedOver (t : Token) : Prop :=
  t.kind ≠ .endOfInput ∧ t.kind ≠ .error ∧
    ∀ word ∈ ["ORDER", "LIMIT", "GROUP", "CONCURRENT"], ¬ t.isKeyword word

/-- `WHERE` and the run of tokens after it, or nothing. -/
inductive FilterPhrase : List (Outline Node) → List Token → List Token → Prop where
  | absent {ts : List Token} : ¬ Next (fun w => w.isKeyword "WHERE") ts → FilterPhrase [] ts ts
  | present {w : Token} {condition rest : List Token} : w.isKeyword "WHERE" →
      (∀ t ∈ condition, PassedOver t) → ¬ Next PassedOver rest →
      FilterPhrase [.node ⟨.filter, "WHERE", []⟩ []] (w :: (condition ++ rest)) rest

/-- `ASC` or `DESC`, and the first of them if neither is said. -/
inductive DirectionPhrase : String → List Token → List Token → Prop where
  | said {d : Token} {rest : List Token} : d.isKeyword "ASC" ∨ d.isKeyword "DESC" →
      DirectionPhrase d.text (d :: rest) rest
  | unsaid {ts : List Token} : ¬ Next (fun d => d.isKeyword "ASC" ∨ d.isKeyword "DESC") ts →
      DirectionPhrase "ASC" ts ts

/-- `ORDER BY`, a field and a direction, or nothing. -/
inductive OrderPhrase : List (Outline Node) → List Token → List Token → Prop where
  | absent {ts : List Token} : ¬ Next (fun o => o.isKeyword "ORDER") ts → OrderPhrase [] ts ts
  | present {o b : Token} {name direction : String} {ts ts' rest : List Token} :
      o.isKeyword "ORDER" → b.isKeyword "BY" → FieldPhrase name ts ts' →
      DirectionPhrase direction ts' rest →
      OrderPhrase
        [.node ⟨.orderBy, "ORDER_BY", [("direction", .string direction)]⟩
          [.node ⟨.field, name, []⟩ []]] (o :: b :: ts) rest

/-- `LIMIT` and a number, or nothing. -/
inductive LimitPhrase : List (Outline Node) → List Token → List Token → Prop where
  | absent {ts : List Token} : ¬ Next (fun l => l.isKeyword "LIMIT") ts → LimitPhrase [] ts ts
  | present {l n : Token} {rest : List Token} : l.isKeyword "LIMIT" → n.kind = .number →
      LimitPhrase [.node ⟨.limit, n.text, [("count", .ofNumeral n.text)]⟩ []] (l :: n :: rest) rest

/-- `GROUP BY` and a field, or nothing. -/
inductive GroupPhrase : List (Outline Node) → List Token → List Token → Prop where
  | absent {ts : List Token} : ¬ Next (fun g => g.isKeyword "GROUP") ts → GroupPhrase [] ts ts
  | present {g b : Token} {name : String} {ts rest : List Token} : g.isKeyword "GROUP" →
      b.isKeyword "BY" → FieldPhrase name ts rest →
      GroupPhrase [.node ⟨.groupBy, "GROUP_BY", []⟩ [.node ⟨.field, name, []⟩ []]]
        (g :: b :: ts) rest

/-- `CONCURRENT` and a number, which is one if it is not said, or nothing. The phrase stands for
attributes of the statement. -/
inductive ConcurrentPhrase : Dictionary Literal → List Token → List Token → Prop where
  | absent {ts : List Token} : ¬ Next (fun c => c.isKeyword "CONCURRENT") ts →
      ConcurrentPhrase [] ts ts
  | counted {c n : Token} {rest : List Token} : c.isKeyword "CONCURRENT" → n.kind = .number →
      ConcurrentPhrase [("concurrent", .ofNumeral n.text)] (c :: n :: rest) rest
  | uncounted {c : Token} {rest : List Token} : c.isKeyword "CONCURRENT" →
      ¬ Next (fun n => n.kind = .number) rest →
      ConcurrentPhrase [("concurrent", .number (.ofNat 1))] (c :: rest) rest

/-- The token of a collection that is read from: an identifier or any keyword. -/
def IsSource (t : Token) : Prop := t.kind = .identifier ∨ t.kind = .keyword

/-- One of the four statements, with its nodes. -/
inductive StatementPhrase : Outline Node → List Token → List Token → Prop where
  | select {s f e : Token} {name : String} {ts ts₁ ts₂ ts₃ rest : List Token}
      {filters orders limits : List (Outline Node)} :
      s.isKeyword "SELECT" → ProjectionPhrase name ts (f :: e :: ts₁) → f.isKeyword "FROM" →
      IsSource e → FilterPhrase filters ts₁ ts₂ → OrderPhrase orders ts₂ ts₃ →
      LimitPhrase limits ts₃ rest →
      StatementPhrase
        (.node ⟨.select, "SELECT", []⟩
          (.node ⟨.field, name, []⟩ [] :: .node ⟨.field, e.text, []⟩ [] ::
            (filters ++ orders ++ limits))) (s :: ts) rest
  | find {s e : Token} {ts₁ ts₂ rest : List Token} {filters orders : List (Outline Node)} :
      s.isKeyword "FIND" → IsSource e → FilterPhrase filters ts₁ ts₂ →
      OrderPhrase orders ts₂ rest →
      StatementPhrase
        (.node ⟨.find, "FIND", []⟩ (.node ⟨.field, e.text, []⟩ [] :: (filters ++ orders)))
        (s :: e :: ts₁) rest
  | update {s e w : Token} {attributes : Dictionary Literal} {ts ts₁ ts₂ rest : List Token}
      {assignments filters : List (Outline Node)} :
      s.isKeyword "UPDATE" → e.kind = .identifier → w.isKeyword "SET" →
      AssignmentsPhrase assignments ts ts₁ → FilterPhrase filters ts₁ ts₂ →
      ConcurrentPhrase attributes ts₂ rest →
      StatementPhrase
        (.node ⟨.update, "UPDATE", attributes⟩
          (.node ⟨.field, e.text, []⟩ [] :: (assignments ++ filters))) (s :: e :: w :: ts) rest
  | analyze {s e : Token} {ts₁ ts₂ rest : List Token} {filters groups : List (Outline Node)} :
      s.isKeyword "ANALYZE" → e.kind = .identifier → FilterPhrase filters ts₁ ts₂ →
      GroupPhrase groups ts₂ rest →
      StatementPhrase
        (.node ⟨.analyze, "ANALYZE", []⟩ (.node ⟨.field, e.text, []⟩ [] :: (filters ++ groups)))
        (s :: e :: ts₁) rest

open Reader

/-! ## 2. Single tokens -/

theorem identifier_eq_ok_iff {what : Expectation} {s : String} {ts rest : List Token} :
    identifier what ts = .ok (s, rest) ↔
      ∃ t, ts = t :: rest ∧ t.kind = .identifier ∧ s = t.text := by
  rw [identifier_eq, token_eq_ok_iff]
  simp only [textOf_eq_some_iff]

theorem collectionName_eq_ok_iff {what : Expectation} {s : String} {ts rest : List Token} :
    collectionName what ts = .ok (s, rest) ↔ ∃ t, ts = t :: rest ∧ IsSource t ∧ s = t.text := by
  rw [collectionName_eq, token_eq_ok_iff]
  simp only [IsSource, Option.ite_none_right_eq_some, Option.some.injEq, @eq_comm _ s]

theorem literalOf?_eq_some_iff {t : Token} {v : Literal} :
    literalOf? t = some v ↔ ValueToken t v := by
  constructor
  · intro h
    unfold literalOf? at h
    split at h
    · rename_i hk
      cases h
      exact .string hk
    split at h
    · rename_i hk
      cases h
      exact .number hk
    split at h
    · rename_i hk
      cases h
      exact .true hk
    split at h
    · rename_i hk
      cases h
      exact .false hk
    split at h
    · rename_i hk
      cases h
      exact .null hk
    · cases h
  · rintro (hk | hk | hk | hk | hk)
    · simp [literalOf?, hk]
    · simp [literalOf?, hk]
    · simp [literalOf?, hk, kind_of_isKeyword hk]
    · simp [literalOf?, Token.isKeyword, kind_of_isKeyword hk, text_of_isKeyword hk]
    · simp [literalOf?, Token.isKeyword, kind_of_isKeyword hk, text_of_isKeyword hk]

/-! ## 3. Fields and assignments -/

theorem fieldMember_eq_ok_iff {m : Option String} {ts rest : List Token} :
    fieldMember ts = .ok (m, rest) ↔
      (m = none ∧ ts = rest ∧ ¬ Next (fun d => d.kind = .dot) ts) ∨
        ∃ d t, ts = d :: t :: rest ∧ d.kind = .dot ∧ t.kind = .identifier ∧ m = some t.text := by
  rw [fieldMember_eq, ifNext_pass_eq_ok_iff]
  simp only [decide_eq_true_eq, andThen_eq_ok_iff, identifier_eq_ok_iff]
  constructor
  · rintro (⟨d, mid, rfl, hd, s, rest', ⟨t, rfl, ht, rfl⟩, hgive⟩ | ⟨hnext, hgive⟩)
    · cases hgive
      exact .inr ⟨d, t, rfl, hd, ht, rfl⟩
    · cases hgive
      exact .inl ⟨rfl, rfl, hnext⟩
  · rintro (⟨rfl, rfl, hnext⟩ | ⟨d, t, rfl, hd, ht, rfl⟩)
    · exact .inr ⟨hnext, rfl⟩
    · exact .inl ⟨d, _, rfl, hd, _, _, ⟨t, rfl, ht, rfl⟩, rfl⟩

theorem field_iff {what : Expectation} {name : String} {ts rest : List Token} :
    (∃ f, field what ts = .ok (f, rest) ∧ f.text = name) ↔ FieldPhrase name ts rest := by
  simp only [field_eq, andThen_eq_ok_iff, identifier_eq_ok_iff, fieldMember_eq_ok_iff]
  constructor
  · rintro ⟨f, ⟨base, mid, ⟨b, rfl, hb, rfl⟩, m, rest', hm, hgive⟩, rfl⟩
    cases hgive
    rcases hm with ⟨rfl, rfl, hdot⟩ | ⟨d, t, rfl, hd, ht, rfl⟩
    · exact .plain hb hdot
    · exact .member hb hd ht
  · rintro (⟨hb, hdot⟩ | ⟨hb, hd, hm⟩)
    · exact ⟨_, ⟨_, _, ⟨_, rfl, hb, rfl⟩, _, _, .inl ⟨rfl, rfl, hdot⟩, rfl⟩, rfl⟩
    · exact ⟨_, ⟨_, _, ⟨_, rfl, hb, rfl⟩, _, _, .inr ⟨_, _, rfl, hd, hm, rfl⟩, rfl⟩, rfl⟩

theorem FieldPhrase.next {name : String} {ts rest : List Token} (h : FieldPhrase name ts rest) :
    Next (fun t => t.kind = .identifier) ts := by
  cases h with
  | plain hkind _ => exact hkind
  | member hkind _ _ => exact hkind

theorem projection_iff {name : String} {ts rest : List Token} :
    (∃ p, projection ts = .ok (p, rest) ∧ p.text = name) ↔
      ProjectionPhrase name ts rest ∧ ¬ Next (fun c => c.kind = .comma) rest := by
  simp only [projection_eq, projected_eq, andThen_eq_ok_iff, ifNext_pass_eq_ok_iff]
  simp only [ifNext_eq_ok_iff, decide_eq_true_eq]
  constructor
  · rintro ⟨p, ⟨p', mid, hp, hcomma⟩, rfl⟩
    rcases hcomma with ⟨_, hrefuse⟩ | ⟨hcomma, hgive⟩
    · cases hrefuse
    cases hgive
    refine ⟨?_, hcomma⟩
    rcases hp with ⟨t, mid, rfl, hstar, hgive⟩ | ⟨_, f, mid, hf, hgive⟩
    · cases hgive
      exact .whole hstar
    · cases hgive
      exact .field (field_iff.mp ⟨f, hf, rfl⟩)
  · rintro ⟨hstar | hfield, hcomma⟩
    · exact ⟨.whole, ⟨_, _, .inl ⟨_, _, rfl, hstar, rfl⟩, .inr ⟨hcomma, rfl⟩⟩, rfl⟩
    · obtain ⟨f, hf, rfl⟩ := field_iff.mpr hfield
      have hid := hfield.next
      have hstar : ¬ Next (fun t => t.kind = .asterisk) ts := by
        cases ts with
        | nil => exact next_nil _
        | cons t ts => simp_all
      exact ⟨.field f, ⟨_, _, .inr ⟨hstar, f, _, hf, rfl⟩, .inr ⟨hcomma, rfl⟩⟩, rfl⟩

theorem assignment_iff {o : Outline Node} {ts rest : List Token} :
    (∃ a, assignment ts = .ok (a, rest) ∧ a.outline = o) ↔ AssignmentPhrase o ts rest := by
  simp only [assignment_eq, literal_eq, andThen_eq_ok_iff, token_eq_ok_iff,
    Option.ite_none_right_eq_some, literalOf?_eq_some_iff]
  constructor
  · rintro ⟨a, ⟨f, mid, hf, _, mid', ⟨e, rfl, ⟨hk, ht⟩, _⟩, v, rest', ⟨t, rfl, hv⟩, hgive⟩, rfl⟩
    cases hgive
    exact .sets (field_iff.mp ⟨f, hf, rfl⟩) hk ht hv
  · rintro ⟨hf, hk, ht, hv⟩
    obtain ⟨f, hf, rfl⟩ := field_iff.mpr hf
    exact ⟨⟨f, _⟩, ⟨f, _, hf, (), _, ⟨_, rfl, ⟨hk, ht⟩, trivial⟩, _, _, ⟨_, rfl, hv⟩, rfl⟩,
      rfl⟩

theorem assignments_eq_ok_iff {as : List Assignment} {ts rest : List Token} :
    assignments ts = .ok (as, rest) ↔
      ∃ a mid, assignment ts = .ok (a, mid) ∧
        ((¬ Next (fun c => c.kind = .comma) mid ∧ as = [a] ∧ rest = mid) ∨
          ∃ c ts' as', mid = c :: ts' ∧ c.kind = .comma ∧ assignments ts' = .ok (as', rest) ∧
            as = a :: as') := by
  conv => lhs; rw [assignments_eq]
  simp only [andThen_eq_ok_iff, ifNext_pass_eq_ok_iff, decide_eq_true_eq]
  constructor
  · rintro ⟨a, mid, ha, ⟨c, ts', rfl, hcomma, as', rest', has, hgive⟩ | ⟨hcomma, hgive⟩⟩
    · cases hgive
      exact ⟨a, _, ha, .inr ⟨c, ts', as', rfl, hcomma, has, rfl⟩⟩
    · cases hgive
      exact ⟨a, _, ha, .inl ⟨hcomma, rfl, rfl⟩⟩
  · rintro ⟨a, mid, ha, ⟨hcomma, rfl, rfl⟩ | ⟨c, ts', as', rfl, hcomma, has, rfl⟩⟩
    · exact ⟨a, _, ha, .inr ⟨hcomma, rfl⟩⟩
    · exact ⟨a, _, ha, .inl ⟨c, ts', rfl, hcomma, as', _, has, rfl⟩⟩

theorem assignments_sound : ∀ {ts rest : List Token} {as : List Assignment},
    assignments ts = .ok (as, rest) → AssignmentsPhrase (as.map Assignment.outline) ts rest
  | ts, rest, as, h => by
    obtain ⟨a, mid, ha, ⟨hcomma, rfl, rfl⟩ | ⟨c, ts', as', rfl, hcomma, has, rfl⟩⟩ :=
      assignments_eq_ok_iff.mp h
    · exact .last (assignment_iff.mp ⟨a, ha, rfl⟩) hcomma
    · have hlt : ts'.length < ts.length := Nat.lt_of_succ_lt (assignment_length_lt ha)
      exact .more (assignment_iff.mp ⟨a, ha, rfl⟩) hcomma (assignments_sound has)
termination_by ts => ts.length

theorem assignments_iff {os : List (Outline Node)} {ts rest : List Token} :
    (∃ as, assignments ts = .ok (as, rest) ∧ as.map Assignment.outline = os) ↔
      AssignmentsPhrase os ts rest := by
  constructor
  · rintro ⟨as, has, rfl⟩
    exact assignments_sound has
  · intro h
    induction h with
    | last ha hcomma =>
      obtain ⟨a, hread, rfl⟩ := assignment_iff.mpr ha
      exact ⟨[a], assignments_eq_ok_iff.mpr ⟨a, _, hread, .inl ⟨hcomma, rfl, rfl⟩⟩, rfl⟩
    | more ha hcomma _ ih =>
      obtain ⟨a, hread, rfl⟩ := assignment_iff.mpr ha
      obtain ⟨as, has, rfl⟩ := ih
      exact ⟨a :: as,
        assignments_eq_ok_iff.mpr ⟨a, _, hread, .inr ⟨_, _, as, rfl, hcomma, has, rfl⟩⟩, rfl⟩

/-! ## 4. Clauses -/

theorem inCondition_iff {t : Token} : inCondition t = true ↔ PassedOver t := by
  simp only [inCondition, clauseWords, PassedOver, Bool.and_eq_true, Bool.not_eq_true',
    List.any_eq_false]
  constructor
  · rintro ⟨hkind, hwords⟩
    refine ⟨?_, ?_, hwords⟩
    · intro h
      simp [Token.isTerminal, Token.Kind.isTerminal, h] at hkind
    · intro h
      simp [Token.isTerminal, Token.Kind.isTerminal, h] at hkind
  · rintro ⟨hend, herror, hwords⟩
    refine ⟨?_, hwords⟩
    unfold Token.isTerminal Token.Kind.isTerminal
    split
    · contradiction
    · contradiction
    · rfl

theorem passedOver_eq : PassedOver = fun t => inCondition t = true :=
  funext fun _ => propext inCondition_iff.symm

theorem filterReader_iff {os : List (Outline Node)} {ts rest : List Token} :
    (∃ b, filterReader ts = .ok (b, rest) ∧ filterOutline b = os) ↔ FilterPhrase os ts rest := by
  simp only [filterReader, ifNext_pass_eq_ok_iff, andThen_eq_ok_iff]
  constructor
  · rintro ⟨b, ⟨w, ts, rfl, hw, _, rest', hrun, hgive⟩ | ⟨hnext, hgive⟩, rfl⟩
    · cases hgive
      cases hrun
      have h : FilterPhrase [.node ⟨.filter, "WHERE", []⟩ []]
          (w :: (ts.takeWhile inCondition ++ ts.dropWhile inCondition))
          (ts.dropWhile inCondition) := by
        refine .present hw (fun t ht => ?_) ?_
        · exact inCondition_iff.mp (List.all_eq_true.mp List.all_takeWhile t ht)
        · rw [passedOver_eq]
          exact not_next_dropWhile inCondition ts
      rwa [List.takeWhile_append_dropWhile] at h
    · cases hgive
      exact .absent hnext
  · rintro (hnext | ⟨hw, hrun, hrest⟩)
    · exact ⟨false, .inr ⟨hnext, rfl⟩, rfl⟩
    · rw [passedOver_eq] at hrun hrest
      refine ⟨true, .inl ⟨_, _, rfl, hw, (), _, ?_, rfl⟩, rfl⟩
      rw [passWhile, dropWhile_run hrun hrest]

theorem directionReader_iff {name : String} {ts rest : List Token} :
    (∃ d, directionReader ts = .ok (d, rest) ∧ d.name = name) ↔ DirectionPhrase name ts rest := by
  simp only [directionReader, ifNext_pass_eq_ok_iff]
  constructor
  · rintro ⟨d, ⟨t, ts, rfl, hasc, hgive⟩ | ⟨hasc, ⟨t, ts, rfl, hdesc, hgive⟩ | ⟨hdesc, hgive⟩⟩, rfl⟩
    · cases hgive
      rw [Direction.name, ← text_of_isKeyword hasc]
      exact .said (.inl hasc)
    · cases hgive
      rw [Direction.name, ← text_of_isKeyword hdesc]
      exact .said (.inr hdesc)
    · cases hgive
      refine .unsaid ?_
      cases ts with
      | nil => exact next_nil _
      | cons t ts => exact fun h => h.elim hasc hdesc
  · rintro ((hasc | hdesc) | hnone)
    · exact ⟨.ascending, .inl ⟨_, _, rfl, hasc, rfl⟩, (text_of_isKeyword hasc).symm⟩
    · rename_i d
      have hasc : ¬ d.isKeyword "ASC" = true := fun h =>
        absurd (isKeyword_unique h hdesc) (by decide)
      exact ⟨.descending, .inr ⟨hasc, .inl ⟨_, _, rfl, hdesc, rfl⟩⟩,
        (text_of_isKeyword hdesc).symm⟩
    · refine ⟨.ascending, .inr ⟨?_, .inr ⟨?_, rfl⟩⟩, rfl⟩
      · cases ts with
        | nil => exact next_nil _
        | cons t ts => exact fun h => hnone (.inl h)
      · cases ts with
        | nil => exact next_nil _
        | cons t ts => exact fun h => hnone (.inr h)

theorem orderClause_iff {os : List (Outline Node)} {ts rest : List Token} :
    (∃ o, orderClause ts = .ok (o, rest) ∧ o.toList.map Order.outline = os) ↔
      OrderPhrase os ts rest := by
  simp only [orderClause_eq, ifNext_pass_eq_ok_iff, andThen_eq_ok_iff, token_eq_ok_iff,
    wordOf_eq_some_iff]
  constructor
  · rintro ⟨o, ⟨t, _, rfl, ho, _, _, ⟨b, rfl, hb⟩, f, _, hf, d, _, hd, hgive⟩ |
      ⟨hnext, hgive⟩, rfl⟩
    · cases hgive
      exact .present ho hb (field_iff.mp ⟨f, hf, rfl⟩) (directionReader_iff.mp ⟨d, hd, rfl⟩)
    · cases hgive
      exact .absent hnext
  · rintro (hnext | ⟨ho, hb, hf, hd⟩)
    · exact ⟨none, .inr ⟨hnext, rfl⟩, rfl⟩
    · obtain ⟨f, hread, rfl⟩ := field_iff.mpr hf
      obtain ⟨d, hsaid, rfl⟩ := directionReader_iff.mpr hd
      exact ⟨some ⟨f, d⟩,
        .inl ⟨_, _, rfl, ho, (), _, ⟨_, rfl, hb⟩, f, _, hread, d, _, hsaid, rfl⟩, rfl⟩

theorem limitClause_iff {os : List (Outline Node)} {ts rest : List Token} :
    (∃ l, limitClause ts = .ok (l, rest) ∧ l.toList.map limitOutline = os) ↔
      LimitPhrase os ts rest := by
  simp only [limitClause_eq, ifNext_pass_eq_ok_iff, andThen_eq_ok_iff, token_eq_ok_iff,
    textOf_eq_some_iff]
  constructor
  · rintro ⟨l, ⟨t, _, rfl, hl, _, _, ⟨n, rfl, hn, rfl⟩, hgive⟩ | ⟨hnext, hgive⟩, rfl⟩
    · cases hgive
      exact .present hl hn
    · cases hgive
      exact .absent hnext
  · rintro (hnext | ⟨hl, hn⟩)
    · exact ⟨none, .inr ⟨hnext, rfl⟩, rfl⟩
    · exact ⟨some _, .inl ⟨_, _, rfl, hl, _, _, ⟨_, rfl, hn, rfl⟩, rfl⟩, rfl⟩

theorem groupClause_iff {os : List (Outline Node)} {ts rest : List Token} :
    (∃ g, groupClause ts = .ok (g, rest) ∧ g.toList.map groupOutline = os) ↔
      GroupPhrase os ts rest := by
  simp only [groupClause_eq, ifNext_pass_eq_ok_iff, andThen_eq_ok_iff, token_eq_ok_iff,
    wordOf_eq_some_iff]
  constructor
  · rintro ⟨g, ⟨t, _, rfl, hg, _, _, ⟨b, rfl, hb⟩, f, _, hf, hgive⟩ | ⟨hnext, hgive⟩, rfl⟩
    · cases hgive
      exact .present hg hb (field_iff.mp ⟨f, hf, rfl⟩)
    · cases hgive
      exact .absent hnext
  · rintro (hnext | ⟨hg, hb, hf⟩)
    · exact ⟨none, .inr ⟨hnext, rfl⟩, rfl⟩
    · obtain ⟨f, hf, rfl⟩ := field_iff.mpr hf
      exact ⟨some f, .inl ⟨_, _, rfl, hg, (), _, ⟨_, rfl, hb⟩, f, _, hf, rfl⟩, rfl⟩

/-- The attributes that a number of workers gives to a statement. -/
def workerAttributes (workers : Option Literal) : Dictionary Literal :=
  workers.toList.map (fun count => ("concurrent", count))

theorem concurrentReader_iff {attributes : Dictionary Literal} {ts rest : List Token} :
    (∃ w, concurrentReader ts = .ok (w, rest) ∧ workerAttributes w = attributes) ↔
      ConcurrentPhrase attributes ts rest := by
  simp only [concurrentReader, ifNext_pass_eq_ok_iff]
  simp only [ifNext_eq_ok_iff, andThen_eq_ok_iff, token_eq_ok_iff, textOf_eq_some_iff,
    decide_eq_true_eq]
  constructor
  · rintro ⟨w, ⟨t, _, rfl, hc, ⟨_, _, _, ⟨n, rfl, hn, rfl⟩, hgive⟩ | ⟨hcount, hgive⟩⟩ |
      ⟨hnext, hgive⟩, rfl⟩
    · cases hgive
      exact .counted hc hn
    · cases hgive
      exact .uncounted hc hcount
    · cases hgive
      exact .absent hnext
  · rintro (hnext | ⟨hc, hn⟩ | ⟨hc, hcount⟩)
    · exact ⟨none, .inr ⟨hnext, rfl⟩, rfl⟩
    · exact ⟨some _, .inl ⟨_, _, rfl, hc, .inl ⟨hn, _, _, ⟨_, rfl, hn, rfl⟩, rfl⟩⟩, rfl⟩
    · exact ⟨some _, .inl ⟨_, _, rfl, hc, .inr ⟨hcount, rfl⟩⟩, rfl⟩

/-! ## 5. Statements -/

variable {k : Token} {o : Outline Node} {ts rest : List Token}

theorem selectStatement_iff (hk : k.isKeyword "SELECT" = true) :
    (∃ s, selectStatement ts = .ok (s, rest) ∧ s.outline = o) ↔
      StatementPhrase o (k :: ts) rest := by
  simp only [selectStatement_eq, andThen_eq_ok_iff, token_eq_ok_iff, wordOf_eq_some_iff,
    collectionName_eq_ok_iff]
  constructor
  · rintro ⟨s, ⟨p, _, hp, _, _, ⟨f, rfl, hf⟩, _, _, ⟨e, rfl, he, rfl⟩, b, _, hb, d, _, hd, l, _, hl,
      hgive⟩, rfl⟩
    cases hgive
    exact .select hk (projection_iff.mp ⟨p, hp, rfl⟩).1 hf he (filterReader_iff.mp ⟨b, hb, rfl⟩)
      (orderClause_iff.mp ⟨d, hd, rfl⟩) (limitClause_iff.mp ⟨l, hl, rfl⟩)
  · intro h
    cases h with
    | @select _ f e _ _ ts₁ _ _ _ _ _ _ _ hp hf he hb hd hl =>
      have hcomma : ¬ Next (fun c => c.kind = .comma) (f :: e :: ts₁) := by
        rw [next_cons, kind_of_isKeyword hf]
        decide
      obtain ⟨p, hp', rfl⟩ := projection_iff.mpr ⟨hp, hcomma⟩
      obtain ⟨b, hb', rfl⟩ := filterReader_iff.mpr hb
      obtain ⟨d, hd', rfl⟩ := orderClause_iff.mpr hd
      obtain ⟨l, hl', rfl⟩ := limitClause_iff.mpr hl
      exact ⟨.select p _ b d l, ⟨p, _, hp', (), _, ⟨_, rfl, hf⟩, _, _, ⟨_, rfl, he, rfl⟩, b, _,
        hb', d, _, hd', l, _, hl', rfl⟩, rfl⟩
    | find h => exact absurd (isKeyword_unique hk h) (by decide)
    | update h => exact absurd (isKeyword_unique hk h) (by decide)
    | analyze h => exact absurd (isKeyword_unique hk h) (by decide)

theorem findStatement_iff (hk : k.isKeyword "FIND" = true) :
    (∃ s, findStatement ts = .ok (s, rest) ∧ s.outline = o) ↔
      StatementPhrase o (k :: ts) rest := by
  simp only [findStatement_eq, andThen_eq_ok_iff, collectionName_eq_ok_iff]
  constructor
  · rintro ⟨s, ⟨_, _, ⟨e, rfl, he, rfl⟩, b, _, hb, d, _, hd, hgive⟩, rfl⟩
    cases hgive
    exact .find hk he (filterReader_iff.mp ⟨b, hb, rfl⟩) (orderClause_iff.mp ⟨d, hd, rfl⟩)
  · intro h
    cases h with
    | find _ he hb hd =>
      obtain ⟨b, hb', rfl⟩ := filterReader_iff.mpr hb
      obtain ⟨d, hd', rfl⟩ := orderClause_iff.mpr hd
      exact ⟨.find _ b d, ⟨_, _, ⟨_, rfl, he, rfl⟩, b, _, hb', d, _, hd', rfl⟩, rfl⟩
    | select h => exact absurd (isKeyword_unique hk h) (by decide)
    | update h => exact absurd (isKeyword_unique hk h) (by decide)
    | analyze h => exact absurd (isKeyword_unique hk h) (by decide)

theorem outline_update (entity : String) (as : List Assignment) (filtered : Bool)
    (workers : Option Literal) :
    (Statement.update entity as filtered workers).outline =
      .node ⟨.update, "UPDATE", workerAttributes workers⟩
        (.node ⟨.field, entity, []⟩ [] ::
          (as.map Assignment.outline ++ filterOutline filtered)) := by
  cases workers <;> rfl

theorem updateStatement_iff (hk : k.isKeyword "UPDATE" = true) :
    (∃ s, updateStatement ts = .ok (s, rest) ∧ s.outline = o) ↔
      StatementPhrase o (k :: ts) rest := by
  simp only [updateStatement_eq, andThen_eq_ok_iff, token_eq_ok_iff, wordOf_eq_some_iff,
    identifier_eq_ok_iff]
  constructor
  · rintro ⟨s, ⟨_, _, ⟨e, rfl, he, rfl⟩, _, _, ⟨w, rfl, hw⟩, as, _, has, b, _, hb, n, _, hn, hgive⟩,
      rfl⟩
    cases hgive
    rw [outline_update]
    exact .update hk he hw (assignments_iff.mp ⟨as, has, rfl⟩) (filterReader_iff.mp ⟨b, hb, rfl⟩)
      (concurrentReader_iff.mp ⟨n, hn, rfl⟩)
  · intro h
    cases h with
    | update _ he hw has hb hn =>
      obtain ⟨as, has', rfl⟩ := assignments_iff.mpr has
      obtain ⟨b, hb', rfl⟩ := filterReader_iff.mpr hb
      obtain ⟨n, hn', rfl⟩ := concurrentReader_iff.mpr hn
      exact ⟨.update _ as b n, ⟨_, _, ⟨_, rfl, he, rfl⟩, (), _, ⟨_, rfl, hw⟩, as, _, has', b, _,
        hb', n, _, hn', rfl⟩, outline_update _ as b n⟩
    | select h => exact absurd (isKeyword_unique hk h) (by decide)
    | find h => exact absurd (isKeyword_unique hk h) (by decide)
    | analyze h => exact absurd (isKeyword_unique hk h) (by decide)

theorem analyzeStatement_iff (hk : k.isKeyword "ANALYZE" = true) :
    (∃ s, analyzeStatement ts = .ok (s, rest) ∧ s.outline = o) ↔
      StatementPhrase o (k :: ts) rest := by
  simp only [analyzeStatement_eq, andThen_eq_ok_iff, identifier_eq_ok_iff]
  constructor
  · rintro ⟨s, ⟨_, _, ⟨e, rfl, he, rfl⟩, b, _, hb, g, _, hg, hgive⟩, rfl⟩
    cases hgive
    exact .analyze hk he (filterReader_iff.mp ⟨b, hb, rfl⟩) (groupClause_iff.mp ⟨g, hg, rfl⟩)
  · intro h
    cases h with
    | analyze _ he hb hg =>
      obtain ⟨b, hb', rfl⟩ := filterReader_iff.mpr hb
      obtain ⟨g, hg', rfl⟩ := groupClause_iff.mpr hg
      exact ⟨.analyze _ b g, ⟨_, _, ⟨_, rfl, he, rfl⟩, b, _, hb', g, _, hg', rfl⟩, rfl⟩
    | select h => exact absurd (isKeyword_unique hk h) (by decide)
    | find h => exact absurd (isKeyword_unique hk h) (by decide)
    | update h => exact absurd (isKeyword_unique hk h) (by decide)

/-- A statement phrase begins with one of four words. -/
theorem StatementPhrase.first (h : StatementPhrase o ts rest) :
    Next (fun k => k.isKeyword "SELECT" = true ∨ k.isKeyword "FIND" = true ∨
      k.isKeyword "UPDATE" = true ∨ k.isKeyword "ANALYZE" = true) ts := by
  cases h with
  | select hk => exact .inl hk
  | find hk => exact .inr (.inl hk)
  | update hk => exact .inr (.inr (.inl hk))
  | analyze hk => exact .inr (.inr (.inr hk))

/-- **Statements**: the reader takes the statement phrases, with their nodes. -/
theorem statement_iff :
    (∃ s, statement ts = .ok (s, rest) ∧ s.outline = o) ↔ StatementPhrase o ts rest := by
  cases ts with
  | nil =>
    constructor
    · rintro ⟨s, hs, _⟩
      cases hs
    · exact fun h => absurd h.first (next_nil _)
  | cons k ts =>
    rw [statement_eq]
    by_cases hselect : Next (fun t => t.isKeyword "SELECT" = true) (k :: ts)
    · rw [ifNext_of_next hselect]
      exact selectStatement_iff hselect
    rw [ifNext_of_not_next hselect]
    by_cases hfind : Next (fun t => t.isKeyword "FIND" = true) (k :: ts)
    · rw [ifNext_of_next hfind]
      exact findStatement_iff hfind
    rw [ifNext_of_not_next hfind]
    by_cases hupdate : Next (fun t => t.isKeyword "UPDATE" = true) (k :: ts)
    · rw [ifNext_of_next hupdate]
      exact updateStatement_iff hupdate
    rw [ifNext_of_not_next hupdate]
    by_cases hanalyze : Next (fun t => t.isKeyword "ANALYZE" = true) (k :: ts)
    · rw [ifNext_of_next hanalyze]
      exact analyzeStatement_iff hanalyze
    rw [ifNext_of_not_next hanalyze]
    constructor
    · rintro ⟨s, hs, _⟩
      cases hs
    · intro h
      rcases h.first with hk | hk | hk | hk <;> contradiction

/-- Some tokens are a query exactly if a statement can be read off their front. -/
theorem readStatement_eq_ok {s : Statement} :
    readStatement ts = .ok s ↔ ∃ rest, statement ts = .ok (s, rest) := by
  unfold readStatement
  split
  · rename_i hempty
    constructor
    · intro h
      cases h
    · rintro ⟨rest, hs⟩
      have hfirst := (statement_iff.mp ⟨s, hs, rfl⟩).first
      cases ts with
      | nil => exact absurd hfirst (next_nil _)
      | cons k ts =>
        have hkind : k.kind = .endOfInput := by simpa [isEmptyQuery] using hempty
        simp [Token.isKeyword, hkind] at hfirst
  · split
    · rename_i hs
      constructor
      · intro h
        cases h
        exact ⟨_, hs⟩
      · rintro ⟨rest, h⟩
        cases hs.symm.trans h
        rfl
    · rename_i hs
      constructor
      · intro h
        cases h
      · rintro ⟨rest, h⟩
        cases hs.symm.trans h

theorem parseTokens_eq_ok {t : SyntaxTree} :
    parseTokens ts = .ok t ↔ ∃ s, (∃ rest, statement ts = .ok (s, rest)) ∧ s.tree = t := by
  simp only [parseTokens_eq, map_eq_ok_iff, readStatement_eq_ok]

/-- The grammar is not ambiguous: tokens begin with at most one statement phrase. -/
theorem StatementPhrase.unique {o' : Outline Node} {rest' : List Token}
    (h : StatementPhrase o ts rest) (h' : StatementPhrase o' ts rest') :
    o = o' ∧ rest = rest' := by
  obtain ⟨s, hs, rfl⟩ := statement_iff.mpr h
  obtain ⟨s', hs', rfl⟩ := statement_iff.mpr h'
  cases hs.symm.trans hs'
  exact ⟨rfl, rfl⟩

/-- **The grammar of queries**: tokens are accepted exactly if they begin with a statement phrase,
and the tree then consists of the nodes that the phrase stands for, under the root of every query.
-/
theorem parseTokens_grammar (ts : List Token) :
    ((∃ t, parseTokens ts = .ok t) ↔ ∃ o rest, StatementPhrase o ts rest) ∧
      ∀ t : SyntaxTree, parseTokens ts = .ok t ↔
        ∃ o rest, StatementPhrase o ts rest ∧ t.Represents (.node ⟨.query, "ROOT", []⟩ [o]) := by
  have hread (t : SyntaxTree) : parseTokens ts = .ok t ↔
      ∃ o rest, StatementPhrase o ts rest ∧ t.Represents (.node ⟨.query, "ROOT", []⟩ [o]) := by
    rw [parseTokens_eq_ok]
    constructor
    · rintro ⟨s, ⟨rest, hread⟩, rfl⟩
      exact ⟨s.outline, rest, statement_iff.mp ⟨s, hread, rfl⟩, Tree.represents_iff.mpr rfl⟩
    · rintro ⟨o, rest, ho, ht⟩
      obtain ⟨s, hread, rfl⟩ := statement_iff.mpr ho
      exact ⟨s, ⟨rest, hread⟩, (Tree.represents_iff.mp ht).symm⟩
  refine ⟨⟨?_, ?_⟩, hread⟩
  · rintro ⟨t, ht⟩
    obtain ⟨o, rest, ho, _⟩ := (hread t).mp ht
    exact ⟨o, rest, ho⟩
  · rintro ⟨o, rest, ho⟩
    exact ⟨_, (hread _).mpr ⟨o, rest, ho, Tree.represents_iff.mpr rfl⟩⟩

end StoreQL.Query
