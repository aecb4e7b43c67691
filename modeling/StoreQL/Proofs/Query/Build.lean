/-
# Reading first and building afterwards

A query is read and its tree grown in one go. `Lays build parent read` says that this comes to the
same as to read all of it first: where `read` succeeds, `build` succeeds with the tree in which the
outlines that were read hang under the node `parent`, and where `read` fails, `build` stops with the
same failure, whatever has been put in before. It is true of a single node that is put in under a
handle that is known, and it is kept when builders are put together, because the tree only grows.

Main statements: `lays_node` and `Lays.after`, for a node with what hangs under it and for one
builder after another; `addStatement_lays`; `parseTokens_eq` and `parseQuery_eq`, that the tree of
some tokens or of a text is that of the statement they begin with; and `parseTokens_ne_tree`, that
an unknown handle is never met.
-/
import Mathlib.Control.Monad.Basic
import StoreQL.Proofs.Query.Statement
import StoreQL.Query.Basic

namespace StoreQL.Query

open Reader

variable {α β γ : Type}

/-! ## 1. Readers in a row -/

theorem Reader.andThen_assoc (first : Reader α) (second : α → Reader β) (third : β → Reader γ) :
    andThen (andThen first second) third = andThen first fun a => andThen (second a) third := by
  funext ts
  simp only [andThen, bind_assoc]

theorem Reader.give_andThen (a : α) (next : α → Reader β) : andThen (give a) next = next a := rfl

/-! ## 2. What a builder lays -/

/-- What comes of a draft when the outlines that are read are put under the node `parent`. -/
def laid (parent : Nat) (t : SyntaxTree) :
    Except Failure (List (Outline Node) × List Token) → Except Halt (Unit × Draft)
  | .ok (os, rest) => .ok ((), ⟨rest, t.graftAll parent os⟩)
  | .error f => .error (.failure f)

/-- The builder puts under a known node what the reader reads. -/
def Lays (build : Builder Unit) (parent : Nat) (read : Reader (List (Outline Node))) : Prop :=
  ∀ (ts : List Token) (t : SyntaxTree), parent < t.size → build ⟨ts, t⟩ = laid parent t (read ts)

section Lays

variable {parent : Nat} {build build' : Builder Unit} {read read' : Reader (List (Outline Node))}

theorem lays_nothing : Lays (pure ()) parent (give []) := by
  intro ts t _
  rfl

/-- What is read goes into what is built afterwards. -/
theorem lays_read {reader : Reader α} {build : α → Builder Unit}
    {next : α → Reader (List (Outline Node))} (h : ∀ a, Lays (build a) parent (next a)) :
    Lays (Builder.read reader >>= build) parent (andThen reader next) := by
  intro ts t ht
  show (Builder.read reader ⟨ts, t⟩ >>= fun x => build x.1 x.2) = _
  simp only [Builder.read, andThen]
  cases reader ts with
  | error f => rfl
  | ok x => exact h x.1 x.2 t ht

theorem lays_word {word : String} {what : Expectation} (h : Lays build parent read) :
    Lays (Builder.word word what >>= fun _ => build) parent
      (andThen (token (wordOf word) (.expected what)) fun _ => read) := by
  have hword : Lays (Builder.word word what >>= fun _ => build) parent
      (andThen (fun ts => (keyword word what ts).map fun rest => ((), rest)) fun _ => read) :=
    lays_read fun _ => h
  intro ts t ht
  refine (hword ts t ht).trans (congrArg (laid parent t) ?_)
  simp only [andThen, ← keyword_bind]
  cases keyword word what ts <;> rfl

/-- **A node with what hangs under it.** Its handle is known to the tree that it is put into. -/
theorem lays_node {v : Node} {build : Nat → Builder Unit}
    (h : ∀ handle, Lays (build handle) handle read) :
    Lays (Builder.add parent v >>= build) parent (andThen read fun os => give [.node v os]) := by
  intro ts t ht
  have hinsert : t.insert parent v = .ok (t.size, t.append parent v) := if_pos ht
  have hknown : t.size < (t.append parent v).size := by simp
  show (Builder.add parent v ⟨ts, t⟩ >>= fun x => build x.1 x.2) = _
  simp only [Builder.add, hinsert, andThen]
  show build t.size ⟨ts, t.append parent v⟩ = _
  rw [h t.size ts _ hknown]
  cases read ts <;> rfl

theorem lays_leaf {v : Node} : Lays (Builder.addLeaf parent v) parent (give [leaf v]) :=
  lays_node fun _ => lays_nothing

/-- **One builder after another.** What the first has put in does not make a handle unknown. -/
theorem Lays.after (h : Lays build parent read) (h' : Lays build' parent read') :
    Lays (build >>= fun _ => build') parent
      (andThen read fun os => andThen read' fun os' => give (os ++ os')) := by
  intro ts t ht
  show (build ⟨ts, t⟩ >>= fun x => build' x.2) = _
  rw [h ts t ht]
  simp only [andThen]
  cases read ts with
  | error f => rfl
  | ok x =>
    obtain ⟨os, rest⟩ := x
    have hknown : parent < (t.graftAll parent os).size := by
      rw [Tree.size_graftAll]
      omega
    show build' ⟨rest, t.graftAll parent os⟩ = _
    rw [h' rest _ hknown]
    show _ = laid parent t (read' rest >>= fun x => give (os ++ x.1) x.2)
    cases read' rest with
    | error f => rfl
    | ok y => simp only [laid, bind, Except.bind, give, Tree.graftAll_append]

theorem Lays.congr (hread : read = read') (h : Lays build parent read) :
    Lays build parent read' :=
  hread ▸ h

end Lays

/-! ## 3. Clauses -/

section Clauses

variable {parent : Nat}

theorem addProjection_lays :
    Lays (addProjection parent) parent (andThen projection fun p => give [fieldLeaf p.text]) :=
  lays_read fun _ => lays_leaf

theorem addSource_lays {what : Expectation} :
    Lays (addSource parent what) parent
      (andThen (collectionName what) fun name => give [fieldLeaf name]) :=
  lays_read fun _ => lays_leaf

theorem filterOutline_lays (filtered : Bool) :
    Lays (if filtered then Builder.addLeaf parent (.named .filter) else pure ()) parent
      (give (filterOutline filtered)) := by
  cases filtered with
  | false => exact lays_nothing
  | true => exact lays_leaf

theorem addFilter_lays :
    Lays (addFilter parent) parent (andThen filterReader fun b => give (filterOutline b)) := by
  have hread : (fun ts => .ok (filterClause ts)) = filterReader := funext filterClause_eq
  rw [← hread]
  exact lays_read filterOutline_lays

theorem addOrder_lays :
    Lays (addOrder parent) parent
      (andThen orderClause fun order => give (order.toList.map Order.outline)) := by
  refine lays_read fun order => ?_
  cases order with
  | none => exact lays_nothing
  | some o => exact lays_node fun _ => lays_leaf

theorem addLimit_lays :
    Lays (addLimit parent) parent
      (andThen limitClause fun limit => give (limit.toList.map limitOutline)) := by
  refine lays_read fun limit => ?_
  cases limit with
  | none => exact lays_nothing
  | some numeral => exact lays_leaf

theorem addGroup_lays :
    Lays (addGroup parent) parent
      (andThen groupClause fun group => give (group.toList.map groupOutline)) := by
  refine lays_read fun group => ?_
  cases group with
  | none => exact lays_nothing
  | some f => exact lays_node fun _ => lays_leaf

theorem addAssignment_lays (a : Assignment) :
    Lays (addAssignment parent a) parent (give [a.outline]) :=
  lays_node fun _ => lays_leaf.after lays_leaf

theorem addAssignments_lays (as : List Assignment) :
    Lays (as.forM (addAssignment parent)) parent (give (as.map Assignment.outline)) := by
  induction as with
  | nil => exact lays_nothing
  | cons a as ih =>
    exact (addAssignment_lays a).after ih

end Clauses

/-! ## 4. Statements -/

section Statements

variable {root : Nat}

/-- What is built for a statement: what is read first, and the nodes of it. -/
def outlined (read : Reader Statement) : Reader (List (Outline Node)) :=
  andThen read fun s => give [s.outline]

theorem addSelect_lays : Lays (addSelect root) root (outlined selectStatement) := by
  refine .congr ?_ (lays_node fun _ => addProjection_lays.after (lays_word (addSource_lays.after
    (addFilter_lays.after (addOrder_lays.after addLimit_lays)))))
  simp only [outlined, selectStatement_eq, andThen_assoc, give_andThen, Statement.outline,
    List.append_assoc]
  rfl

theorem addFind_lays : Lays (addFind root) root (outlined findStatement) := by
  refine .congr ?_ (lays_node fun _ => addSource_lays.after (addFilter_lays.after addOrder_lays))
  simp only [outlined, findStatement_eq, andThen_assoc, give_andThen, Statement.outline,
    List.append_assoc]

theorem addUpdate_lays : Lays (addUpdate root) root (outlined updateStatement) := by
  have hfilter : (fun ts => .ok (filterClause ts)) = filterReader := funext filterClause_eq
  have hworkers : (fun ts => .ok (concurrentClause ts)) = concurrentReader :=
    funext concurrentClause_eq
  refine .congr ?_ (lays_read fun entity => lays_word (lays_read fun as => lays_read fun filtered =>
    lays_read fun workers => lays_node fun _ => lays_leaf.after ((addAssignments_lays as).after
      (filterOutline_lays filtered))))
  simp only [outlined, updateStatement_eq, hfilter, hworkers, andThen_assoc, give_andThen,
    Statement.outline, List.append_assoc]
  rfl

theorem addAnalyze_lays : Lays (addAnalyze root) root (outlined analyzeStatement) := by
  refine .congr ?_ (lays_read fun entity => lays_node fun _ => lays_leaf.after
    (addFilter_lays.after addGroup_lays))
  simp only [outlined, analyzeStatement_eq, andThen_assoc, give_andThen, Statement.outline,
    List.append_assoc]
  rfl

/-- **Every statement is laid out as it is read.** -/
theorem addStatement_lays : Lays (addStatement root) root (outlined statement) := by
  intro ts t ht
  simp only [addStatement, outlined, andThen, statement]
  split
  · exact addSelect_lays ts.tail t ht
  split
  · exact addFind_lays ts.tail t ht
  split
  · exact addUpdate_lays ts.tail t ht
  split
  · exact addAnalyze_lays ts.tail t ht
  · rfl

end Statements

/-! ## 5. Queries -/

/-- **The tree of some tokens** is that of the statement that they begin with, and where they are
refused, so is the statement, with the same error. -/
theorem parseTokens_eq (ts : List Token) :
    parseTokens ts = (readStatement ts).map Statement.tree := by
  have hroot : Tree.root < (Tree.singleton rootNode).size := Nat.succ_pos 0
  unfold parseTokens readStatement
  split
  · rfl
  rw [addStatement_lays ts _ hroot]
  simp only [outlined, andThen]
  cases statement ts <;> rfl

/-- What is wrong with the tokens has nothing to do with the tree. -/
theorem toError_ne_tree (ts : List Token) (f : Failure) (e : Tree.UnknownNode) :
    f.toError ts ≠ .tree e := by
  obtain ⟨complaint, rest⟩ := f
  intro h
  cases complaint <;> cases h

/-- **No handle is unknown** while a query is read, be it accepted or refused. -/
theorem parseTokens_ne_tree (ts : List Token) (e : Tree.UnknownNode) :
    parseTokens ts ≠ .error (.tree e) := by
  intro h
  rw [parseTokens_eq, map_eq_error_iff, readStatement] at h
  split at h
  · cases h
  · split at h
    · cases h
    · exact toError_ne_tree ts _ e (Except.error.inj h)

end StoreQL.Query

namespace StoreQL

/-- The statement of a query. -/
def parseStatement (query : String) : Except QueryError Query.Statement := do
  let tokens ← (tokenizeStrict query).mapError .lexical
  (Query.readStatement tokens).mapError .syntactic

theorem parseQuery_eq (query : String) :
    parseQuery query = (parseStatement query).map Query.Statement.tree := by
  unfold parseQuery parseStatement
  cases tokenizeStrict query with
  | error e => rfl
  | ok tokens =>
    show (Query.parseTokens tokens).mapError _ =
      Except.map _ ((Query.readStatement tokens).mapError _)
    rw [Query.parseTokens_eq, mapError_map]

theorem parseQuery_of_statement {query : String} {s : Query.Statement}
    (h : parseStatement query = .ok s) : parseQuery query = .ok s.tree := by
  rw [parseQuery_eq, h]
  rfl

end StoreQL
