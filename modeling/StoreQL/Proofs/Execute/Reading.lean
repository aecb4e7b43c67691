/-
# What execution reads of a tree

A tree need not be that of a query: it may have several statements, clauses before its fields,
fields under its clauses, or no statement at all. Of all this, execution reads the first node under
the root, which is the statement, and the fields directly under the statement. `Reads t r` says that
`r` is found in the tree `t`, and `Reading.outcome` is what comes of it.

A tree grows by nodes that come last among the children of some node. So a new node is read only
where something was missing before (`Reads.append`).

Main statements: `Reads.execute`, that a tree is executed by what is read of it, and `exists_reads`,
that something is; `executeTree_insertAll`, that an outcome for which nothing was missing stays the
same whatever is inserted; and `executeTree_frame`, what one more node can change.
-/
import StoreQL.Proofs.Container.Links
import StoreQL.Proofs.Execute.Meaning

namespace StoreQL

open Query (Node SyntaxTree)

/-! ## 1. Questions and their answers -/

/-- The answer to a question. An update and an analysis are only acknowledged. -/
def Question.answer (store : DataStore) (limit : Nat) :
    Question → Except ExecutionError QueryResult
  | .select field source =>
    ((loadCollection store limit source).mapError .store).map fun (records, count) =>
      ⟨.select, selectRecords field records, count, true,
        s!"Selected {count} records FROM {source}"⟩
  | .find entity =>
    ((loadCollection store limit entity).mapError .store).map fun (records, count) =>
      ⟨.find, records, count, true, s!"Found {count} {entity}"⟩
  | .update entity => .ok (.acknowledged .update entity)
  | .analyze entity => .ok (.acknowledged .analyze entity)

/-- A statement answers its question. -/
theorem Query.Statement.answer_question (s : Query.Statement) (store : DataStore) (limit : Nat) :
    s.answer store limit = s.question.answer store limit := by
  cases s <;> rfl

/-- What a statement asks by the nodes directly under it: a selection takes the first two fields,
wherever they stand, and the other statements take the very first node, which has to be a field. -/
inductive Question.Among : QueryKind → List Node → Question → Prop where
  | select {before between after : List Node} {f s : Node} : (∀ n ∈ before, n.kind ≠ .field) →
      f.kind = .field → (∀ n ∈ between, n.kind ≠ .field) → s.kind = .field →
      Among .select (before ++ f :: (between ++ s :: after)) (.select f.text s.text)
  | find {e : Node} {rest : List Node} : e.kind = .field → Among .find (e :: rest) (.find e.text)
  | update {e : Node} {rest : List Node} : e.kind = .field →
      Among .update (e :: rest) (.update e.text)
  | analyze {e : Node} {rest : List Node} : e.kind = .field →
      Among .analyze (e :: rest) (.analyze e.text)

namespace Question.Among

variable {kind : QueryKind} {ns : List Node} {q : Question}

/-- The first two fields are those that are left if all other nodes are taken out. -/
theorem select_iff : Among .select ns q ↔
    ∃ f s rest, ns.filter (fun n => n.kind == .field) = f :: s :: rest ∧
      q = .select f.text s.text := by
  constructor
  · rintro @⟨before, between, after, f, s, hbefore, hf, hbetween, hs⟩
    refine ⟨f, s, after.filter fun n => n.kind == .field, ?_, rfl⟩
    have hsecond : (between ++ s :: after).filter (fun n => n.kind == .field) =
        s :: after.filter fun n => n.kind == .field :=
      List.filter_eq_cons_iff.mpr
        ⟨between, after, rfl, by simpa using hbetween, by simpa using hs, rfl⟩
    exact List.filter_eq_cons_iff.mpr
      ⟨before, _, rfl, by simpa using hbefore, by simpa using hf, hsecond⟩
  · rintro ⟨f, s, rest, hfields, rfl⟩
    obtain ⟨before, ns', rfl, hbefore, hf, hfields⟩ := List.filter_eq_cons_iff.mp hfields
    obtain ⟨between, after, rfl, hbetween, hs, -⟩ := List.filter_eq_cons_iff.mp hfields
    simp only [beq_iff_eq] at hbefore hf hbetween hs
    exact .select hbefore hf hbetween hs

/-- What is asked stays the same if more nodes come last. -/
theorem append (h : Among kind ns q) (v : Node) : Among kind (ns ++ [v]) q := by
  cases h with
  | @select before between after f s hbefore hf hbetween hs =>
    have hmore := @Among.select before between (after ++ [v]) f s hbefore hf hbetween hs
    simpa using hmore
  | find he => exact .find he
  | update he => exact .update he
  | analyze he => exact .analyze he

/-- A last node that is no field does not make a question. -/
theorem of_append {v : Node} (hv : v.kind ≠ .field) (h : Among kind (ns ++ [v]) q) :
    Among kind ns q := by
  cases kind with
  | select =>
    rw [select_iff] at h ⊢
    simpa [hv] using h
  | find | update | analyze =>
    cases ns with
    | nil =>
      cases h
      rename_i he
      exact absurd he hv
    | cons n ns =>
      cases h
      rename_i he
      constructor
      exact he

end Question.Among

/-! ## 2. Readings -/

/-- The kind of query that a node begins, if it begins one. -/
def QueryKind.ofNode? : Node.Kind → Option QueryKind
  | .select => some .select
  | .find => some .find
  | .update => some .update
  | .analyze => some .analyze
  | _ => none

/-- What can be read of a tree. -/
inductive Reading where
  /-- There is no statement. -/
  | nothing
  /-- The statement is a node of a kind that begins no query. -/
  | stray (kind : Node.Kind)
  /-- The statement lacks a field. -/
  | incomplete (kind : QueryKind)
  | asks (question : Question)
deriving DecidableEq, Repr

/-- What comes of a reading. -/
def Reading.outcome (store : DataStore) (limit : Nat) :
    Reading → Except ExecutionError QueryResult
  | .nothing => .error .noStatement
  | .stray kind => .error (.unknownStatement kind)
  | .incomplete kind => .error (.noEntity kind)
  | .asks q => q.answer store limit

/-- The nodes directly under a node, without their handles. -/
def nodesUnder (t : SyntaxTree) (h : Nat) : List Node := (t.children h).map Prod.snd

/-- What is read of a tree: of the nodes under the root the first, and of the nodes under that what
they ask. -/
inductive Reads (t : SyntaxTree) : Reading → Prop where
  | nothing : t.children Tree.root = [] → Reads t .nothing
  | stray {h : Nat} {s : Node} {rest : List (Nat × Node)} :
      t.children Tree.root = (h, s) :: rest → QueryKind.ofNode? s.kind = none →
      Reads t (.stray s.kind)
  | incomplete {h : Nat} {s : Node} {rest : List (Nat × Node)} {kind : QueryKind} :
      t.children Tree.root = (h, s) :: rest → QueryKind.ofNode? s.kind = some kind →
      (∀ q, ¬ Question.Among kind (nodesUnder t h) q) → Reads t (.incomplete kind)
  | asks {h : Nat} {s : Node} {rest : List (Nat × Node)} {kind : QueryKind} {q : Question} :
      t.children Tree.root = (h, s) :: rest → QueryKind.ofNode? s.kind = some kind →
      Question.Among kind (nodesUnder t h) q → Reads t (.asks q)

/-- Something is read of every tree. -/
theorem exists_reads (t : SyntaxTree) : ∃ r, Reads t r := by
  cases hroot : t.children Tree.root with
  | nil => exact ⟨_, .nothing hroot⟩
  | cons c rest =>
    obtain ⟨h, s⟩ := c
    cases hkind : QueryKind.ofNode? s.kind with
    | none => exact ⟨_, .stray hroot hkind⟩
    | some kind =>
      by_cases hq : ∃ q, Question.Among kind (nodesUnder t h) q
      · obtain ⟨q, hq⟩ := hq
        exact ⟨_, .asks hroot hkind hq⟩
      · exact ⟨_, .incomplete hroot hkind (not_exists.mp hq)⟩

/-! ## 3. Execution goes by the reading -/

section Execute

variable {t : SyntaxTree} {h : Nat} {kind : QueryKind} (store : DataStore) (limit : Nat)

theorem leadingField_of_field {e : Node} {rest : List Node} (hnodes : nodesUnder t h = e :: rest)
    (he : e.kind = .field) : leadingField t h kind = .ok e.text := by
  obtain ⟨⟨_, n⟩, cs, hchildren, rfl, -⟩ := List.map_eq_cons_iff.mp hnodes
  rw [leadingField, hchildren]
  exact if_pos he

theorem leadingField_of_no_field
    (hnone : ∀ e rest, nodesUnder t h = e :: rest → e.kind ≠ .field) :
    leadingField t h kind = .error (.noEntity kind) := by
  rw [leadingField]
  cases hchildren : t.children h with
  | nil => rfl
  | cons c rest =>
    have hkind := hnone c.2 (rest.map Prod.snd) (by rw [nodesUnder, hchildren, List.map_cons])
    exact if_neg hkind

/-- The fields under a node, without their handles. -/
theorem map_childrenOfKind (t : SyntaxTree) (h : Nat) :
    (t.childrenOfKind h .field).map Prod.snd =
      (nodesUnder t h).filter fun n => n.kind == .field := by
  rw [nodesUnder, List.filter_map]
  rfl

/-- The statement at a handle, executed as a query of some kind. -/
def executeStatement (t : SyntaxTree) (h : Nat) : QueryKind → Except ExecutionError QueryResult
  | .select => executeSelect store limit t h
  | .find => executeFind store limit t h
  | .update => acknowledge .update t h
  | .analyze => acknowledge .analyze t h

/-- **What a statement asks is answered.** -/
theorem executeStatement_of_among {q : Question} (hq : Question.Among kind (nodesUnder t h) q) :
    executeStatement store limit t h kind = q.answer store limit := by
  generalize hnodes : nodesUnder t h = ns at hq
  cases hq with
  | @select before between after f s hbefore hf hbetween hs =>
    obtain ⟨f', s', rest, hfields, hq⟩ :=
      Question.Among.select_iff.mp (.select hbefore hf hbetween hs)
    rw [← hnodes, ← map_childrenOfKind] at hfields
    obtain ⟨⟨i, _⟩, cs, hchildren, rfl, hrest⟩ := List.map_eq_cons_iff.mp hfields
    obtain ⟨⟨j, _⟩, cs, rfl, rfl, -⟩ := List.map_eq_cons_iff.mp hrest
    rw [hq, Question.answer, executeStatement, executeSelect, hchildren]
    show (loadCollection store limit _).mapError ExecutionError.store >>= _ = _
    cases loadCollection store limit _ <;> rfl
  | @find e rest he =>
    rw [Question.answer, executeStatement, executeFind, leadingField_of_field hnodes he]
    show (loadCollection store limit e.text).mapError ExecutionError.store >>= _ = _
    cases loadCollection store limit e.text <;> rfl
  | update he =>
    rw [executeStatement, acknowledge, leadingField_of_field hnodes he]
    rfl
  | analyze he =>
    rw [executeStatement, acknowledge, leadingField_of_field hnodes he]
    rfl

/-- **A statement that asks nothing has no entity.** -/
theorem executeStatement_of_none (hnone : ∀ q, ¬ Question.Among kind (nodesUnder t h) q) :
    executeStatement store limit t h kind = .error (.noEntity kind) := by
  -- For all but a selection, what is missing is a first node that is a field.
  have hlead (hfield : ∀ e rest, e.kind = .field → ∃ q, Question.Among kind (e :: rest) q) :
      leadingField t h kind = .error (.noEntity kind) := by
    refine leadingField_of_no_field fun e rest hnodes he => ?_
    obtain ⟨q, hq⟩ := hfield e rest he
    exact hnone q (hnodes ▸ hq)
  cases kind with
  | select =>
    simp only [Question.Among.select_iff, ← map_childrenOfKind] at hnone
    rw [executeStatement, executeSelect]
    rcases hfields : t.childrenOfKind h .field with - | ⟨⟨i, f⟩, - | ⟨⟨j, s⟩, rest⟩⟩
    · rfl
    · rfl
    · refine absurd ⟨f, s, rest.map Prod.snd, ?_, rfl⟩ (hnone _)
      rw [hfields, List.map_cons, List.map_cons]
  | find =>
    rw [executeStatement, executeFind, hlead fun e rest he => ⟨_, .find he⟩]
    rfl
  | update =>
    rw [executeStatement, acknowledge, hlead fun e rest he => ⟨_, .update he⟩]
    rfl
  | analyze =>
    rw [executeStatement, acknowledge, hlead fun e rest he => ⟨_, .analyze he⟩]
    rfl

/-- A tree with a statement is executed as the kind of the statement says. -/
theorem executeTree_of_statement {s : Node} {rest : List (Nat × Node)}
    (hroot : t.children Tree.root = (h, s) :: rest) :
    executeTree store limit t =
      match QueryKind.ofNode? s.kind with
      | some kind => executeStatement store limit t h kind
      | none => .error (.unknownStatement s.kind) := by
  simp only [executeTree, SyntaxTree.statement?, hroot, List.head?_cons]
  cases s.kind <;> rfl

/-- **A tree is executed by what is read of it.** -/
theorem Reads.execute {r : Reading} (hr : Reads t r) :
    executeTree store limit t = r.outcome store limit := by
  cases hr with
  | nothing hroot =>
    rw [executeTree, SyntaxTree.statement?, hroot]
    rfl
  | stray hroot hkind =>
    rw [executeTree_of_statement store limit hroot, hkind]
    rfl
  | incomplete hroot hkind hnone =>
    rw [executeTree_of_statement store limit hroot, hkind]
    exact executeStatement_of_none store limit hnone
  | asks hroot hkind hq =>
    rw [executeTree_of_statement store limit hroot, hkind]
    exact executeStatement_of_among store limit hq

end Execute

/-! ## 4. One more node -/

section Append

variable {t : SyntaxTree} {p : Nat}

theorem nodesUnder_append (hl : t.Linked) (hp : p < t.size) (v : Node) (h : Nat) :
    nodesUnder (t.append p v) h = if h = p then nodesUnder t h ++ [v] else nodesUnder t h := by
  rw [nodesUnder, hl.children_append hp]
  split
  · rw [nodesUnder, List.map_append, List.map_singleton]
  · rfl

/-- The statement stays the first node under the root. -/
theorem children_root_append (hl : t.Linked) (hp : p < t.size) (v : Node) {c : Nat × Node}
    {rest : List (Nat × Node)} (hroot : t.children Tree.root = c :: rest) :
    ∃ rest', (t.append p v).children Tree.root = c :: rest' := by
  rw [hl.children_append hp, hroot]
  split
  · exact ⟨rest ++ [(t.size, v)], rfl⟩
  · exact ⟨rest, rfl⟩

/-- **A new node is read only where something was missing**: where there was no statement it has to
stand under the root, and where a field was missing it has to be a field under the statement. -/
theorem Reads.append (hl : t.Linked) (hp : p < t.size) (v : Node) {r : Reading} (hr : Reads t r) :
    Reads (t.append p v) r ∨ (r = .nothing ∧ p = Tree.root) ∨
      ∃ kind s, r = .incomplete kind ∧ t.statement? = some (p, s) ∧ v.kind = .field := by
  cases hr with
  | nothing hroot =>
    by_cases hpr : p = Tree.root
    · exact .inr (.inl ⟨rfl, hpr⟩)
    · refine .inl (.nothing ?_)
      rw [hl.children_append hp, if_neg (Ne.symm hpr), hroot]
  | stray hroot hkind =>
    obtain ⟨rest', hroot'⟩ := children_root_append hl hp v hroot
    exact .inl (.stray hroot' hkind)
  | @incomplete h s rest kind hroot hkind hnone =>
    obtain ⟨rest', hroot'⟩ := children_root_append hl hp v hroot
    by_cases hread : h = p ∧ v.kind = .field
    · obtain ⟨rfl, hv⟩ := hread
      refine .inr (.inr ⟨kind, s, rfl, ?_, hv⟩)
      rw [SyntaxTree.statement?, hroot]
      rfl
    · refine .inl (.incomplete hroot' hkind fun q hq => hnone q ?_)
      rw [nodesUnder_append hl hp] at hq
      by_cases hhp : h = p
      · rw [if_pos hhp] at hq
        exact hq.of_append fun hv => hread ⟨hhp, hv⟩
      · rwa [if_neg hhp] at hq
  | @asks h s rest kind q hroot hkind hq =>
    obtain ⟨rest', hroot'⟩ := children_root_append hl hp v hroot
    refine .inl (.asks hroot' hkind ?_)
    rw [nodesUnder_append hl hp]
    split
    · exact hq.append v
    · exact hq

/-- A new node changes the outcome only where something was missing. -/
theorem executeTree_append (hl : t.Linked) (hp : p < t.size) (v : Node) (store : DataStore)
    (limit : Nat) :
    executeTree store limit (t.append p v) = executeTree store limit t ∨
      (executeTree store limit t = .error .noStatement ∧ p = Tree.root) ∨
      ∃ kind s, executeTree store limit t = .error (.noEntity kind) ∧
        t.statement? = some (p, s) ∧ v.kind = .field := by
  obtain ⟨r, hr⟩ := exists_reads t
  rw [hr.execute]
  rcases hr.append hl hp v with hr' | ⟨rfl, hpr⟩ | ⟨kind, s, rfl, hs, hv⟩
  · exact .inl (hr'.execute store limit)
  · exact .inr (.inl ⟨rfl, hpr⟩)
  · exact .inr (.inr ⟨kind, s, rfl, hs, hv⟩)

end Append

/-! ## 5. Any number of nodes -/

/-- Nothing was missing where the tree was executed. -/
def Complete (outcome : Except ExecutionError QueryResult) : Prop :=
  outcome ≠ .error .noStatement ∧ ∀ kind, outcome ≠ .error (.noEntity kind)

section Grow

variable {t : SyntaxTree} {store : DataStore} {limit : Nat}

/-- An outcome for which nothing was missing is not changed by a new node. -/
theorem executeTree_append_of_complete (hl : t.Linked) {p : Nat} (hp : p < t.size) (v : Node)
    (hc : Complete (executeTree store limit t)) :
    executeTree store limit (t.append p v) = executeTree store limit t := by
  rcases executeTree_append hl hp v store limit with hsame | ⟨hnone, -⟩ | ⟨kind, _, hnone, -⟩
  · exact hsame
  · exact absurd hnone hc.1
  · exact absurd hnone (hc.2 kind)

/-- **An outcome for which nothing was missing stays the same**, whatever is inserted. -/
theorem executeTree_insertAll (hl : t.Linked) (hc : Complete (executeTree store limit t))
    (is : List (Tree.Insertion Node)) :
    executeTree store limit (t.insertAll is).2 = executeTree store limit t := by
  induction is generalizing t with
  | nil => rfl
  | cons i is ih =>
    have hstep : executeTree store limit (t.attempt i).2 = executeTree store limit t := by
      by_cases hknown : i.parent < t.size
      · rw [Tree.attempt_of_known hknown]
        exact executeTree_append_of_complete hl hknown i.value hc
      · rw [Tree.attempt_of_unknown hknown]
    rw [Tree.insertAll, ih (hl.attempt i) (hstep ▸ hc), hstep]

end Grow

/-- **Only the statement and its fields are read.** A tree that is grown from a root is executed by
what is read of it. A further node under a node that the tree has leaves the outcome as it was if
nothing was missing, and so do all nodes that come after it; if the statement had no entity, the new
node has to be a field directly under the statement to change the outcome; and if there was no
statement, it has to stand under the root. -/
theorem executeTree_frame (root : Node) (is : List (Tree.Insertion Node)) (p h : Nat) (n : Node)
    (t' : SyntaxTree) (hinsert : ((Tree.singleton root).insertAll is).2.insert p n = .ok (h, t')) :
    let t : SyntaxTree := ((Tree.singleton root).insertAll is).2
    (∃ r, Reads t r ∧ ∀ store limit, executeTree store limit t = r.outcome store limit) ∧
    ∀ store limit,
      (Complete (executeTree store limit t) →
        executeTree store limit t' = executeTree store limit t ∧
        ∀ later, executeTree store limit (t'.insertAll later).2 = executeTree store limit t) ∧
      (∀ kind, executeTree store limit t = .error (.noEntity kind) →
        executeTree store limit t' ≠ executeTree store limit t →
        (∃ s, t.statement? = some (p, s)) ∧ n.kind = .field) ∧
      (executeTree store limit t = .error .noStatement →
        executeTree store limit t' ≠ executeTree store limit t → p = Tree.root) := by
  intro t
  have hl : t.Linked := (Tree.singleton_linked root).insertAll is
  obtain ⟨hp, rfl⟩ : p < t.size ∧ t' = t.append p n := by
    rw [Tree.insert] at hinsert
    split at hinsert
    · rename_i hp
      cases hinsert
      exact ⟨hp, rfl⟩
    · cases hinsert
  obtain ⟨r, hr⟩ := exists_reads t
  refine ⟨⟨r, hr, hr.execute⟩, fun store limit => ⟨fun hc => ?_, ?_, ?_⟩⟩
  · have hsame := executeTree_append_of_complete hl hp n hc
    refine ⟨hsame, fun later => ?_⟩
    rw [executeTree_insertAll (hl.append hp n) (hsame ▸ hc), hsame]
  · intro kind hmissing hchange
    rcases executeTree_append hl hp n store limit with hsame | ⟨hnone, -⟩ | ⟨_, s, -, hs, hn⟩
    · exact absurd hsame hchange
    · rw [hmissing] at hnone
      cases hnone
    · exact ⟨⟨s, hs⟩, hn⟩
  · intro hmissing hchange
    rcases executeTree_append hl hp n store limit with hsame | ⟨-, hpr⟩ | ⟨kind, _, hnone, -⟩
    · exact absurd hsame hchange
    · exact hpr
    · rw [hmissing] at hnone
      cases hnone

/-- A selection with a clause before its fields is executed; what is inserted for an unknown parent
is not there, and a field under the clause or a second statement is not read. -/
theorem executeTree_frame_clause :
    let is : List (Tree.Insertion Node) := [⟨0, .named .select⟩, ⟨1, .named .filter⟩,
      ⟨1, .plain .field "*"⟩, ⟨7, .plain .field "a"⟩, ⟨1, .plain .field "orders"⟩]
    let t : SyntaxTree := ((Tree.singleton Query.rootNode).insertAll is).2
    let t' := t.append 2 (.plain .field "stores")
    let store := MemoryStore.toDataStore ⟨[], [.null], [], []⟩
    t.insert 2 (.plain .field "stores") = .ok (5, t') ∧
      executeTree store 9 t = .ok ⟨.select, [.null], 1, true, "Selected 1 records FROM orders"⟩ ∧
      executeTree store 9 t' = executeTree store 9 t ∧
      executeTree store 9 (t'.insertAll [⟨0, .named .find⟩]).2 = executeTree store 9 t := by
  intro is t t' store
  have hinsert : t.insert 2 (.plain .field "stores") = .ok (5, t') := rfl
  have hresult : executeTree store 9 t =
      .ok ⟨.select, [.null], 1, true, "Selected 1 records FROM orders"⟩ := rfl
  have hcomplete : Complete (executeTree store 9 t) := by
    rw [hresult]
    exact ⟨nofun, nofun⟩
  obtain ⟨-, hframe⟩ := executeTree_frame Query.rootNode is 2 5 _ t' hinsert
  obtain ⟨hsame, hlater⟩ := (hframe store 9).1 hcomplete
  exact ⟨hinsert, hresult, hsame, hlater _⟩

end StoreQL
