/-
# What a query means

A query asks one thing: its first word, the entity and, for a selection, the field are all that its
answer depends on. `Question` is what is asked, `Question.Heads` says that some tokens begin with
it, and `Question.result` is what a store in memory gives, said without tokens or trees.

Main statements: `StatementPhrase.heads` and `Question.Heads.unique`, that an accepted query begins
with one question; `Statement.answer_congr`, that the answer of a statement depends on its question
alone; and `executeQuery_meaning`, which puts them together from the text of a query to its result.
-/
import StoreQL.Proofs.Execute.Outcome
import StoreQL.Proofs.Query.Phrase
import StoreQL.Proofs.Token.Segmentation

namespace StoreQL

open Query (Node Statement StatementPhrase ProjectionPhrase IsSource Projection)

/-! ## 1. Questions -/

/-- What a query asks, apart from its clauses. -/
inductive Question where
  | select (field source : String)
  | find (entity : String)
  | update (entity : String)
  | analyze (entity : String)
deriving DecidableEq, Repr

/-- The tokens begin with the question: its keyword, for a selection the field, and the entity. -/
inductive Question.Heads : Question → List Token → Prop where
  | select {s f e : Token} {name : String} {ts rest : List Token} : s.isKeyword "SELECT" →
      ProjectionPhrase name ts (f :: e :: rest) → f.isKeyword "FROM" → IsSource e →
      Heads (.select name e.text) (s :: ts)
  | find {s e : Token} {rest : List Token} : s.isKeyword "FIND" → IsSource e →
      Heads (.find e.text) (s :: e :: rest)
  | update {s e : Token} {rest : List Token} : s.isKeyword "UPDATE" → e.kind = .identifier →
      Heads (.update e.text) (s :: e :: rest)
  | analyze {s e : Token} {rest : List Token} : s.isKeyword "ANALYZE" → e.kind = .identifier →
      Heads (.analyze e.text) (s :: e :: rest)

/-- The records that are kept under a name, none if it is not that of a collection which can be
asked for. -/
def MemoryStore.named (m : MemoryStore) (name : String) : List Json :=
  if name = "products" then m.products
  else if name = "orders" then m.orders
  else if name = "stores" then m.stores
  else []

/-- What a store in memory gives. -/
def Question.result (m : MemoryStore) (limit : Nat) : Question → QueryResult
  | .select field source =>
    { kind := .select
      records := ((m.named source).take limit).map fun r =>
        if field = "*" then r else r.project field
      count := (m.named source).length
      success := true
      message := s!"Selected {(m.named source).length} records FROM {source}" }
  | .find entity =>
    { kind := .find
      records := (m.named entity).take limit
      count := (m.named entity).length
      success := true
      message := s!"Found {(m.named entity).length} {entity}" }
  | .update entity => ⟨.update, [], 0, true, s!"Executed UPDATE {entity}"⟩
  | .analyze entity => ⟨.analyze, [], 0, true, s!"Executed ANALYZE {entity}"⟩

/-! ## 2. The question of a statement -/

/-- What a statement asks. -/
def Query.Statement.question : Statement → Question
  | .select projection source _ _ _ => .select projection.text source
  | .find entity _ _ => .find entity
  | .update entity _ _ _ => .update entity
  | .analyze entity _ _ => .analyze entity

/-- What the nodes of a statement ask, by the kind of the topmost one and the texts of its first
children. -/
def questionOf? : Outline Node → Option Question
  | .node n (.node first _ :: rest) =>
    match n.kind, rest with
    | .select, .node second _ :: _ => some (.select first.text second.text)
    | .find, _ => some (.find first.text)
    | .update, _ => some (.update first.text)
    | .analyze, _ => some (.analyze first.text)
    | _, _ => none
  | _ => none

theorem questionOf?_outline (s : Statement) : questionOf? s.outline = some s.question := by
  cases s with
  | update entity assignments filtered workers => cases workers <;> rfl
  | _ => rfl

variable {o : Outline Node} {ts rest : List Token}

/-- **A statement phrase begins with the question of its nodes.** -/
theorem Query.StatementPhrase.heads (h : StatementPhrase o ts rest) :
    ∃ q, questionOf? o = some q ∧ q.Heads ts := by
  cases h with
  | select hs hp hf he _ _ _ => exact ⟨_, rfl, .select hs hp hf he⟩
  | find hs he _ _ => exact ⟨_, rfl, .find hs he⟩
  | update hs he _ _ _ _ => exact ⟨_, rfl, .update hs he⟩
  | analyze hs he _ _ => exact ⟨_, rfl, .analyze hs he⟩

theorem Query.ProjectionPhrase.unique {name name' : String} {f f' : Token} {rest' : List Token}
    (hf : f.isKeyword "FROM") (hf' : f'.isKeyword "FROM")
    (h : ProjectionPhrase name ts (f :: rest)) (h' : ProjectionPhrase name' ts (f' :: rest')) :
    name = name' ∧ rest = rest' := by
  -- A word is no comma, so what `FROM` follows is all that is selected.
  have hcomma {f : Token} {rest : List Token} (hf : f.isKeyword "FROM") :
      ¬ Next (fun c => c.kind = .comma) (f :: rest) := by
    rw [next_cons, Query.Reader.kind_of_isKeyword hf]
    decide
  obtain ⟨p, hp, rfl⟩ := Query.projection_iff.mpr ⟨h, hcomma hf⟩
  obtain ⟨p', hp', rfl⟩ := Query.projection_iff.mpr ⟨h', hcomma hf'⟩
  cases hp.symm.trans hp'
  exact ⟨rfl, rfl⟩

/-- The word that a question begins with. -/
def Question.keyword : Question → String
  | .select _ _ => "SELECT"
  | .find _ => "FIND"
  | .update _ => "UPDATE"
  | .analyze _ => "ANALYZE"

theorem Question.Heads.first {q : Question} (h : q.Heads ts) :
    Next (fun t => t.isKeyword q.keyword = true) ts := by
  cases h <;> assumption

/-- **Some tokens begin with one question at most.** -/
theorem Question.Heads.unique {q q' : Question} (h : q.Heads ts) (h' : q'.Heads ts) : q = q' := by
  have hword : q.keyword = q'.keyword := by
    have hfirst := h.first
    have hfirst' := h'.first
    cases ts with
    | nil => exact absurd hfirst (next_nil _)
    | cons t ts => exact Query.Reader.isKeyword_unique hfirst hfirst'
  cases h with
  | select _ hp hf _ =>
    cases h' with
    | select _ hp' hf' _ =>
      obtain ⟨rfl, hrest⟩ := hp.unique hf hf' hp'
      cases hrest
      rfl
    | find | update | analyze => simp [keyword] at hword
  | find =>
    cases h' with
    | find => rfl
    | select | update | analyze => simp [keyword] at hword
  | update =>
    cases h' with
    | update => rfl
    | select | find | analyze => simp [keyword] at hword
  | analyze =>
    cases h' with
    | analyze => rfl
    | select | find | update => simp [keyword] at hword

/-- An accepted query begins with a statement phrase, and its statement has the nodes of it. -/
theorem parseStatement_phrase {query : String} {s : Statement} (h : parseStatement query = .ok s) :
    ∃ rest, StatementPhrase s.outline (tokenize query) rest := by
  rw [parseStatement] at h
  cases htokens : tokenizeStrict query with
  | error e =>
    rw [htokens] at h
    cases h
  | ok tokens =>
    rw [htokens] at h
    obtain ⟨rest, hread⟩ := Query.readStatement_eq_ok.mp (mapError_eq_ok_iff.mp h)
    rw [(tokenizeStrict_eq_ok_iff.mp htokens).1] at hread
    exact ⟨rest, Query.statement_iff.mp ⟨s, hread, rfl⟩⟩

/-- The tree of an accepted query has the nodes of the statement phrase that it begins with. -/
theorem parseQuery_phrase {query : String} {tree : Query.SyntaxTree}
    (h : parseQuery query = .ok tree) :
    ∃ o rest, StatementPhrase o (tokenize query) rest ∧
      tree.Represents (.node ⟨.query, "ROOT", []⟩ [o]) := by
  rw [parseQuery_eq] at h
  obtain ⟨s, hs, rfl⟩ := map_eq_ok_iff.mp h
  obtain ⟨rest, hphrase⟩ := parseStatement_phrase hs
  exact ⟨s.outline, rest, hphrase, Tree.represents_iff.mpr rfl⟩

/-- An accepted query is that of a statement whose question it begins with. -/
theorem parseStatement_heads {query : String} {s : Statement} (h : parseStatement query = .ok s) :
    s.question.Heads (tokenize query) := by
  obtain ⟨rest, hphrase⟩ := parseStatement_phrase h
  obtain ⟨q, hq, hheads⟩ := hphrase.heads
  cases hq.symm.trans (questionOf?_outline s)
  exact hheads

/-! ## 3. The answer to a question -/

/-- **The answer depends on the question alone.** -/
theorem Query.Statement.answer_congr {s s' : Statement} (h : s.question = s'.question)
    (store : DataStore) (limit : Nat) : s.answer store limit = s'.answer store limit := by
  cases s <;> cases s' <;> simp only [question, reduceCtorEq, Question.select.injEq,
    Question.find.injEq, Question.update.injEq, Question.analyze.injEq] at h
  · simp only [answer, h]
  · simp only [answer, h]
  · simp only [answer, h]
  · simp only [answer, h]

/-- What is loaded from a store in memory are the records under the name. -/
theorem loadCollection_memory (m : MemoryStore) (limit : Nat) (name : String) :
    loadCollection m.toDataStore limit name =
      .ok ((m.named name).take limit, (m.named name).length) := by
  by_cases hproducts : name = "products"
  · subst hproducts
    rfl
  by_cases horders : name = "orders"
  · subst horders
    rfl
  by_cases hstores : name = "stores"
  · subst hstores
    rfl
  have hnamed : m.named name = [] := by
    rw [MemoryStore.named, if_neg hproducts, if_neg horders, if_neg hstores]
  rw [hnamed, List.take_nil]
  by_cases hcustomers : name = "customers"
  · subst hcustomers
    rfl
  have hunknown : Entity.ofName? name = none := by
    simp [Entity.ofName?, Entity.all, Entity.name, Ne.symm hproducts, Ne.symm horders,
      Ne.symm hstores, Ne.symm hcustomers]
  rw [loadCollection, hunknown]
  rfl

theorem selectRecords_eq (field : String) (records : List Json) :
    selectRecords field records = records.map fun r => if field = "*" then r else r.project field := by
  unfold selectRecords
  split <;> simp

/-- **What a statement answers on a store in memory** is what its question gives. -/
theorem Query.Statement.answer_memory (m : MemoryStore) (limit : Nat) (s : Statement) :
    s.answer m.toDataStore limit = .ok (s.question.result m limit) := by
  cases s with
  | select projection source filtered order numeral =>
    simp only [answer, loadCollection_memory, selectRecords_eq]
    rfl
  | find entity filtered order =>
    simp only [answer, loadCollection_memory]
    rfl
  | update entity assignments filtered workers => rfl
  | analyze entity filtered group => rfl

/-- A larger limit gives the same records and perhaps more, and counts the same. -/
theorem Question.result_mono (m : MemoryStore) (q : Question) {limit limit' : Nat}
    (h : limit ≤ limit') :
    (q.result m limit).records <+: (q.result m limit').records ∧
      (q.result m limit).count = (q.result m limit').count := by
  cases q with
  | select field source => exact ⟨(List.take_prefix_take_left h).map _, rfl⟩
  | find entity => exact ⟨List.take_prefix_take_left h, rfl⟩
  | update entity => exact ⟨List.prefix_rfl, rfl⟩
  | analyze entity => exact ⟨List.prefix_rfl, rfl⟩

/-! ## 4. From the text to the result -/

/-- **The meaning of a query.** An accepted query begins with one question. In memory it gives the
result of the question, a prefix of what a larger limit gives; on any store, every other accepted
query that begins with the same question gives the same; and an update or an analysis gives the
same on all stores. -/
theorem executeQuery_meaning (query : String) (haccepted : validateQuery query = .ok ()) :
    ∃ q : Question, q.Heads (tokenize query) ∧ (∀ q', q'.Heads (tokenize query) → q' = q) ∧
      (∀ (m : MemoryStore) limit,
        executeQuery m.toDataStore limit query = .ok (q.result m limit)) ∧
      (∀ query', validateQuery query' = .ok () → q.Heads (tokenize query') →
        ∀ store limit, executeQuery store limit query' = executeQuery store limit query) ∧
      (∀ (m : MemoryStore) limit limit' r r', limit ≤ limit' →
        executeQuery m.toDataStore limit query = .ok r →
        executeQuery m.toDataStore limit' query = .ok r' →
        r.records <+: r'.records ∧ r.count = r'.count) ∧
      (∀ entity, q = .update entity ∨ q = .analyze entity →
        ∀ store limit, executeQuery store limit query = .ok (q.result .empty 0)) := by
  obtain ⟨s, hs⟩ := validateQuery_eq_ok_iff.mp haccepted
  have hresult (m : MemoryStore) (limit : Nat) :
      executeQuery m.toDataStore limit query = .ok (s.question.result m limit) := by
    rw [executeQuery_of_ok hs, Statement.answer_memory]
    rfl
  refine ⟨s.question, parseStatement_heads hs, fun q' h => h.unique (parseStatement_heads hs),
    hresult, ?_, ?_, ?_⟩
  · intro query' haccepted' hheads store limit
    obtain ⟨s', hs'⟩ := validateQuery_eq_ok_iff.mp haccepted'
    have hquestion : s'.question = s.question := (parseStatement_heads hs').unique hheads
    rw [executeQuery_of_ok hs, executeQuery_of_ok hs', Statement.answer_congr hquestion]
  · intro m limit limit' r r' hle hr hr'
    cases hr.symm.trans (hresult m limit)
    cases hr'.symm.trans (hresult m limit')
    exact s.question.result_mono m hle
  · intro entity hentity store limit
    rw [executeQuery_of_ok hs]
    cases s with
    | update => rfl
    | analyze => rfl
    | select | find => simp [Statement.question] at hentity

/-- Each record keeps the field that is selected and no other. Neither the condition nor the limit is
applied, and what follows the statement is passed over. -/
theorem executeQuery_meaning_clauses :
    validateQuery "select id from orders where id > 1 limit 0 find" = .ok () ∧
      validateQuery "SELECT id FROM orders" = .ok () ∧
      executeQuery (MemoryStore.toDataStore
          ⟨[], [.obj [("id", .bool true), ("total", .null)], .null], [], []⟩) 1
          "select id from orders where id > 1 limit 0 find" =
        .ok ⟨.select, [.obj [("id", .bool true)]], 2, true, "Selected 2 records FROM orders"⟩ ∧
      executeQuery (.unavailable "offline") 1 "SELECT id FROM orders" =
        executeQuery (.unavailable "offline") 1
          "select id from orders where id > 1 limit 0 find" := by
  have hclauses : parseStatement "select id from orders where id > 1 limit 0 find" =
      .ok (.select (.field ⟨"id", none⟩) "orders" true none (some "0")) := by decide +kernel
  have hplain : parseStatement "SELECT id FROM orders" =
      .ok (.select (.field ⟨"id", none⟩) "orders" false none none) := by decide +kernel
  have haccepted := validateQuery_eq_ok_iff.mpr ⟨_, hclauses⟩
  have haccepted' := validateQuery_eq_ok_iff.mpr ⟨_, hplain⟩
  have hheads : (Question.select "id" "orders").Heads (tokenize "SELECT id FROM orders") :=
    parseStatement_heads hplain
  obtain ⟨q, -, hunique, hresult, hsame, -, -⟩ := executeQuery_meaning _ haccepted
  obtain rfl := hunique _ (parseStatement_heads hclauses)
  exact ⟨haccepted, haccepted', hresult _ 1, hsame _ haccepted' hheads _ 1⟩

end StoreQL
