/-
# What comes of a query

A query that is refused is refused before any store is asked. A query that is accepted names a
collection, or none that a store keeps, and from then on only the store can refuse it: the tree of a
statement has its entity where each kind of statement looks for it. `Statement.answer` says what a
statement answers without any tree.

Main statements: `executeTree_tree`, that a statement is executed as `Statement.answer` says;
`executeQuery_eq_error_iff`, that the errors of an accepted query are the refusals of the store; and
`executeQuery_outcome`, which puts them together with what is true of stores in memory and of
checks.
-/
import StoreQL.Command.Check
import StoreQL.Proofs.Query.Build

namespace StoreQL

open Query (Node Statement SyntaxTree)

/-! ## 1. What a store answers -/

/-- The store refuses to give the records, or it gives them and refuses to count. -/
def DataStore.Refuses (store : DataStore) (entity : Entity) (limit : Nat) (e : StoreError) : Prop :=
  store.fetch entity limit = .error e ∨
    (∃ records, store.fetch entity limit = .ok records) ∧ store.count entity = .error e

/-- The collection of a given name that a store is asked for. -/
def backed? (name : String) : Option Entity := (Entity.ofName? name).filter Entity.isBacked

theorem loadCollection_eq_error_iff {store : DataStore} {limit : Nat} {name : String}
    {e : StoreError} :
    loadCollection store limit name = .error e ↔
      ∃ entity, backed? name = some entity ∧ store.Refuses entity limit e := by
  unfold loadCollection backed? DataStore.Refuses
  cases (Entity.ofName? name).filter Entity.isBacked with
  | none => simp
  | some entity =>
    cases hfetch : store.fetch entity limit with
    | error d => simp [bind, Except.bind, hfetch]
    | ok records =>
      cases hcount : store.count entity <;>
        simp [bind, Except.bind, pure, Except.pure, hfetch, hcount]

namespace Query.Statement

/-- The collection that a statement asks a store for, if it asks. -/
def collection? : Statement → Option Entity
  | .select _ source _ _ _ => backed? source
  | .find entity _ _ => backed? entity
  | .update .. | .analyze .. => none

/-- What a statement answers. -/
def answer (store : DataStore) (limit : Nat) : Statement → Except ExecutionError QueryResult
  | .select projection source _ _ _ =>
    ((loadCollection store limit source).mapError .store).map fun (records, count) =>
      ⟨.select, selectRecords projection.text records, count, true,
        s!"Selected {count} records FROM {source}"⟩
  | .find entity _ _ =>
    ((loadCollection store limit entity).mapError .store).map fun (records, count) =>
      ⟨.find, records, count, true, s!"Found {count} {entity}"⟩
  | .update entity _ _ _ => .ok (.acknowledged .update entity)
  | .analyze entity _ _ => .ok (.acknowledged .analyze entity)

/-- An answer that is made of what is loaded is refused as the loading is. -/
theorem loaded_eq_error_iff {store : DataStore} {limit : Nat} {name : String} {e : ExecutionError}
    {f : List Json × Nat → QueryResult} :
    ((loadCollection store limit name).mapError ExecutionError.store).map f = .error e ↔
      ∃ d entity, e = .store d ∧ backed? name = some entity ∧ store.Refuses entity limit d := by
  simp only [map_eq_error_iff, mapError_eq_error_iff, loadCollection_eq_error_iff]
  constructor
  · rintro ⟨d, ⟨entity, hentity, hd⟩, rfl⟩
    exact ⟨d, entity, rfl, hentity, hd⟩
  · rintro ⟨d, entity, rfl, hentity, hd⟩
    exact ⟨d, ⟨entity, hentity, hd⟩, rfl⟩

theorem answer_eq_error_iff {store : DataStore} {limit : Nat} {e : ExecutionError} (s : Statement) :
    s.answer store limit = .error e ↔
      ∃ d entity, e = .store d ∧ s.collection? = some entity ∧ store.Refuses entity limit d := by
  cases s with
  | select projection source filtered order numeral => exact loaded_eq_error_iff
  | find entity filtered order => exact loaded_eq_error_iff
  | update entity assignments filtered workers => simp [answer, collection?]
  | analyze entity filtered group => simp [answer, collection?]

end Query.Statement

/-! ## 2. Where a statement has its entity -/

section Children

open Query

variable {t : SyntaxTree} {h : Nat} {parent : Option Nat} {v : Node} {os : List (Outline Node)}

theorem leadingField_of_holds {name : String} (kind : QueryKind)
    (hheld : t.Holds h parent (.node v (fieldLeaf name :: os))) :
    leadingField t h kind = .ok name := by
  rw [leadingField, Tree.children_of_holds hheld]
  rfl

theorem acknowledge_of_holds {name : String} (kind : QueryKind)
    (hheld : t.Holds h parent (.node v (fieldLeaf name :: os))) :
    acknowledge kind t h = .ok (.acknowledged kind name) := by
  rw [acknowledge, leadingField_of_holds kind hheld]
  rfl

/-- The first two fields under a statement are its first two children, if these are fields. -/
theorem childrenOfKind_of_holds {name name' : String}
    (hheld : t.Holds h parent (.node v (fieldLeaf name :: fieldLeaf name' :: os))) :
    ∃ i j rest, t.childrenOfKind h .field =
      (i, .plain .field name) :: (j, .plain .field name') :: rest := by
  rw [SyntaxTree.childrenOfKind, Tree.children_of_holds hheld]
  exact ⟨_, _, _, rfl⟩

theorem tree_holds (s : Statement) :
    s.tree.Holds Tree.root none (.node rootNode [s.outline]) :=
  (Tree.ofOutline_represents _).holds

theorem outline_holds (s : Statement) : s.tree.Holds 1 (some Tree.root) s.outline := by
  have hheld := tree_holds s
  simp only [Tree.Holds, Tree.HoldsAll] at hheld
  exact hheld.2.1

theorem statement?_tree (s : Statement) : s.tree.statement? = some (1, s.outline.value) := by
  rw [SyntaxTree.statement?, Tree.children_of_holds (tree_holds s)]
  rfl

end Children

/-- **A statement is executed** as its answer says, whatever clauses it has. -/
theorem executeTree_tree (store : DataStore) (limit : Nat) (s : Statement) :
    executeTree store limit s.tree = s.answer store limit := by
  have hheld := outline_holds s
  rw [executeTree, statement?_tree]
  cases s with
  | select projection source filtered order numeral =>
    obtain ⟨i, j, rest, hfields⟩ := childrenOfKind_of_holds hheld
    show executeSelect store limit _ 1 = _
    rw [executeSelect, hfields, Statement.answer]
    show (loadCollection store limit source).mapError ExecutionError.store >>= _ = _
    cases loadCollection store limit source <;> rfl
  | find entity filtered order =>
    show executeFind store limit _ 1 = _
    rw [executeFind, leadingField_of_holds .find hheld, Statement.answer]
    show (loadCollection store limit entity).mapError ExecutionError.store >>= _ = _
    cases loadCollection store limit entity <;> rfl
  | update entity assignments filtered workers =>
    -- The number of workers is an attribute: with it or without, the first child is the same.
    cases workers with
    | none => exact acknowledge_of_holds .update hheld
    | some count => exact acknowledge_of_holds .update hheld
  | analyze entity filtered group => exact acknowledge_of_holds .analyze hheld

/-! ## 3. Queries -/

theorem validateQuery_eq_error_iff {query : String} {e : QueryError} :
    validateQuery query = .error e ↔ parseStatement query = .error e := by
  rw [validateQuery, map_eq_error_iff, parseQuery_eq, map_eq_error_iff]

theorem validateQuery_eq_ok_iff {query : String} :
    validateQuery query = .ok () ↔ ∃ s, parseStatement query = .ok s := by
  simp only [validateQuery, parseQuery_eq, map_eq_ok_iff, and_true]
  constructor
  · rintro ⟨t, s, hs, -⟩
    exact ⟨s, hs⟩
  · rintro ⟨s, hs⟩
    exact ⟨s.tree, s, hs, rfl⟩

/-- No error of execution comes from reading a query. -/
theorem parseStatement_error {query : String} {e : QueryError} (h : parseStatement query = .error e)
    (d : ExecutionError) : e ≠ .execution d := by
  rintro rfl
  rw [parseStatement] at h
  cases htokens : tokenizeStrict query with
  | error d' =>
    rw [htokens] at h
    cases h
  | ok tokens =>
    rw [htokens] at h
    obtain ⟨d', -, hd⟩ := mapError_eq_error_iff.mp h
    cases hd

/-- **A query does not fail for want of a node** under which to put another. -/
theorem parseQuery_ne_tree (query : String) (d : Tree.UnknownNode) :
    parseQuery query ≠ .error (.syntactic (.tree d)) := by
  intro h
  rw [parseQuery] at h
  cases htokens : tokenizeStrict query with
  | error d' =>
    rw [htokens] at h
    cases h
  | ok tokens =>
    rw [htokens] at h
    obtain ⟨e, he, heq⟩ := mapError_eq_error_iff.mp h
    cases heq
    exact Query.parseTokens_ne_tree tokens d he

theorem executeQuery_of_error {query : String} {e : QueryError}
    (h : parseStatement query = .error e) (store : DataStore) (limit : Nat) :
    executeQuery store limit query = .error e := by
  rw [executeQuery, parseQuery_eq, h]
  rfl

theorem executeQuery_of_ok {query : String} {s : Statement} (h : parseStatement query = .ok s)
    (store : DataStore) (limit : Nat) :
    executeQuery store limit query = (s.answer store limit).mapError .execution := by
  rw [executeQuery, parseQuery_of_statement h, ← executeTree_tree]
  rfl

/-- **The errors of an accepted query** are the refusals of the store. -/
theorem executeQuery_eq_error_iff {query : String} {s : Statement}
    (h : parseStatement query = .ok s) {store : DataStore} {limit : Nat} {e : QueryError} :
    executeQuery store limit query = .error e ↔
      ∃ d entity, e = .execution (.store d) ∧ s.collection? = some entity ∧
        store.Refuses entity limit d := by
  rw [executeQuery_of_ok h, mapError_eq_error_iff]
  simp only [Statement.answer_eq_error_iff]
  constructor
  · rintro ⟨_, ⟨d, entity, rfl, hentity, hd⟩, rfl⟩
    exact ⟨d, entity, rfl, hentity, hd⟩
  · rintro ⟨d, entity, rfl, hentity, hd⟩
    exact ⟨.store d, ⟨d, entity, rfl, hentity, hd⟩, rfl⟩

/-- A store in memory does not refuse. -/
theorem MemoryStore.not_refuses (m : MemoryStore) (entity : Entity) (limit : Nat) (e : StoreError) :
    ¬ m.toDataStore.Refuses entity limit e := by
  rintro (hfetch | ⟨-, hcount⟩)
  · cases hfetch
  · cases hcount

theorem executeQuery_memory (m : MemoryStore) (limit : Nat) (query : String) :
    (∃ r, executeQuery m.toDataStore limit query = .ok r) ↔ validateQuery query = .ok () := by
  rw [validateQuery_eq_ok_iff]
  cases h : parseStatement query with
  | error e => simp [executeQuery_of_error h]
  | ok s =>
    cases hrun : executeQuery m.toDataStore limit query with
    | ok r => simp
    | error e =>
      obtain ⟨d, entity, -, -, hd⟩ := (executeQuery_eq_error_iff h).mp hrun
      exact absurd hd (m.not_refuses entity limit d)

/-! ## 4. Checks -/

open Command

/-- The data set is loaded first. -/
theorem check_eq (query input : String) (limit : Nat) :
    check ⟨query, some input, false, limit⟩ =
      (MemoryStore.ofText input).mapError Error.dataSet >>= fun m =>
        ((executeQuery m.toDataStore limit query).mapError .query).map .executed := by
  show (MemoryStore.ofText input).mapError Error.dataSet >>= _ = _
  refine bind_congr fun m => ?_
  cases executeQuery m.toDataStore limit query <;> rfl

theorem check_of_unloaded {query input : String} {limit : Nat} {e : StoreError}
    (h : MemoryStore.ofText input = .error e) :
    check ⟨query, some input, false, limit⟩ = .error (.dataSet e) := by
  rw [check_eq, h]
  rfl

theorem check_of_loaded {query input : String} {limit : Nat} {m : MemoryStore}
    (h : MemoryStore.ofText input = .ok m) :
    check ⟨query, some input, false, limit⟩ =
      ((executeQuery m.toDataStore limit query).mapError .query).map .executed := by
  rw [check_eq, h]
  rfl

theorem check_eq_ok_iff (query input : String) (limit : Nat) :
    (∃ r, check ⟨query, some input, false, limit⟩ = .ok r) ↔
      (∃ m, MemoryStore.ofText input = .ok m) ∧ validateQuery query = .ok () := by
  cases h : MemoryStore.ofText input with
  | error e => simp [check_of_unloaded h]
  | ok m =>
    simp only [check_of_loaded h, map_eq_ok_iff, mapError_eq_ok_iff, ← executeQuery_memory m limit]
    constructor
    · rintro ⟨_, r, hr, -⟩
      exact ⟨⟨m, rfl⟩, r, hr⟩
    · rintro ⟨-, r, hr⟩
      exact ⟨_, r, hr, rfl⟩

/-- **What comes of a query**: one that is refused is refused alike whatever the store, and never
because its tree does not know a node; one that is accepted fails only where the store refuses its
collection, hence never in memory; and a check wants its data set first. -/
theorem executeQuery_outcome (query : String) :
    (∀ e, validateQuery query = .error e →
      ∀ store limit, executeQuery store limit query = .error e) ∧
    (∀ d, parseQuery query ≠ .error (.syntactic (.tree d)) ∧
      validateQuery query ≠ .error (.syntactic (.tree d)) ∧
      ∀ store limit, executeQuery store limit query ≠ .error (.syntactic (.tree d))) ∧
    (validateQuery query = .ok () → ∃ s, parseStatement query = .ok s ∧
      parseQuery query = .ok s.tree ∧
      ∀ store limit e, executeQuery store limit query = .error e ↔
        ∃ d entity, e = .execution (.store d) ∧ s.collection? = some entity ∧
          store.Refuses entity limit d) ∧
    (∀ store limit d, executeQuery store limit query = .error (.execution d) →
      ∃ refusal, d = .store refusal) ∧
    (∀ (m : MemoryStore) limit, (∃ r, executeQuery m.toDataStore limit query = .ok r) ↔
      validateQuery query = .ok ()) ∧
    (∀ input limit, (∃ r, check ⟨query, some input, false, limit⟩ = .ok r) ↔
      (∃ m, MemoryStore.ofText input = .ok m) ∧ validateQuery query = .ok ()) ∧
    (∀ input limit e, MemoryStore.ofText input = .error e →
      check ⟨query, some input, false, limit⟩ = .error (.dataSet e)) := by
  refine ⟨fun e h => ?_, fun d => ⟨parseQuery_ne_tree query d, fun h => ?_, fun store limit h => ?_⟩,
    fun h => ?_, fun store limit d h => ?_, ?_, ?_, ?_⟩
  · exact executeQuery_of_error (validateQuery_eq_error_iff.mp h)
  · exact parseQuery_ne_tree query d (map_eq_error_iff.mp h)
  · cases hs : parseStatement query with
    | error e =>
      rw [executeQuery_of_error hs] at h
      cases h
      exact parseQuery_ne_tree query d (map_eq_error_iff.mp (validateQuery_eq_error_iff.mpr hs))
    | ok s =>
      obtain ⟨_, _, hd, -, -⟩ := (executeQuery_eq_error_iff hs).mp h
      cases hd
  · obtain ⟨s, hs⟩ := validateQuery_eq_ok_iff.mp h
    exact ⟨s, hs, parseQuery_of_statement hs, fun store limit e => executeQuery_eq_error_iff hs⟩
  · cases hs : parseStatement query with
    | error e =>
      rw [executeQuery_of_error hs] at h
      cases h
      exact absurd rfl (parseStatement_error hs d)
    | ok s =>
      obtain ⟨refusal, _, hd, -, -⟩ := (executeQuery_eq_error_iff hs).mp h
      cases hd
      exact ⟨refusal, rfl⟩
  · exact fun m limit => executeQuery_memory m limit query
  · exact fun input limit => check_eq_ok_iff query input limit
  · exact fun input limit e h => check_of_unloaded h

/-- A selection is accepted, executed on the records of a data set and checked with it, and it is
refused by a store that cannot be reached. -/
theorem executeQuery_outcome_checked :
    let query := "SELECT name FROM products LIMIT 1"
    let input := "\x7b\x22products\x22: [\x7b\x22name\x22: \x22mug\x22, \x22price\x22: 2\x7d, null]\x7d"
    validateQuery query = .ok () ∧
      (∃ m r, MemoryStore.ofText input = .ok m ∧ executeQuery m.toDataStore 9 query = .ok r) ∧
      (∃ r, check ⟨query, some input, false, 9⟩ = .ok r) ∧
      executeQuery (.unavailable "offline") 9 query =
        .error (.execution (.store (.unavailable "offline"))) := by
  intro query input
  have hstatement : parseStatement query =
      .ok (.select (.field ⟨"name", none⟩) "products" false none (some "1")) := by decide +kernel
  have haccepted : validateQuery query = .ok () := validateQuery_eq_ok_iff.mpr ⟨_, hstatement⟩
  have hloaded : ∃ m, MemoryStore.ofText input = .ok m := by
    have hok : (MemoryStore.ofText input).isOk = true := by decide +kernel
    cases h : MemoryStore.ofText input with
    | error e =>
      rw [h] at hok
      cases hok
    | ok m => exact ⟨m, rfl⟩
  obtain ⟨-, -, hasked, -, hmemory, hcheck, -⟩ := executeQuery_outcome query
  obtain ⟨s, hs, -, hrefused⟩ := hasked haccepted
  obtain ⟨m, hm⟩ := hloaded
  obtain ⟨r, hr⟩ := (hmemory m 9).mpr haccepted
  refine ⟨haccepted, ⟨m, r, hm, hr⟩, (hcheck input 9).mpr ⟨⟨m, hm⟩, haccepted⟩, ?_⟩
  obtain rfl : _ = s := Except.ok.inj (hstatement.symm.trans hs)
  exact (hrefused _ 9 _).mpr ⟨_, .products, rfl, rfl, .inl rfl⟩

end StoreQL
