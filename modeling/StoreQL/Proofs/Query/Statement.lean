/-
# Statements

What the four statements say, as values, apart from any tree. `Statement.outline` lays a statement
out as nodes, the parts in the order of the query text, and `Statement.tree` is the tree of the whole
query. `statement` reads a statement and puts nothing into a tree; like the readers of its parts, it
is a chain of the pieces of which readers are made.

Main statements: `statement_eq` and the equations before it, one for each kind of statement.
-/
import StoreQL.Proofs.Container.Outline
import StoreQL.Proofs.Query.Reader
import StoreQL.Query.Build

namespace StoreQL.Query

/-! ## 1. Statements -/

/-- A statement. `filtered` says whether it has a condition; `limit` is the numeral of a limit. -/
inductive Statement where
  | select (projection : Projection) (source : String) (filtered : Bool) (order : Option Order)
      (limit : Option String)
  | find (entity : String) (filtered : Bool) (order : Option Order)
  | update (entity : String) (assignments : List Assignment) (filtered : Bool)
      (workers : Option Literal)
  | analyze (entity : String) (filtered : Bool) (group : Option FieldPath)
deriving DecidableEq, Repr

/-- A node without children. -/
def leaf (n : Node) : Outline Node := .node n []

/-- The node of a field, an entity or a source. -/
def fieldLeaf (name : String) : Outline Node := leaf (fieldNode name)

/-- The node of a condition, if there is one. -/
def filterOutline (filtered : Bool) : List (Outline Node) :=
  if filtered then [leaf (.named .filter)] else []

/-- The nodes of an order. -/
def Order.outline (o : Order) : Outline Node := .node o.node [fieldLeaf o.field.text]

/-- The node of a limit. -/
def limitOutline (numeral : String) : Outline Node := leaf (limitNode numeral)

/-- The nodes of a grouping. -/
def groupOutline (field : FieldPath) : Outline Node :=
  .node (.named .groupBy) [fieldLeaf field.text]

/-- The nodes of an assignment. -/
def Assignment.outline (a : Assignment) : Outline Node :=
  .node assignmentNode [fieldLeaf a.field.text, leaf (valueNode a.value)]

namespace Statement

/-- The nodes of a statement. -/
def outline : Statement → Outline Node
  | .select projection source filtered order limit =>
    .node (.named .select)
      ([fieldLeaf projection.text, fieldLeaf source] ++ filterOutline filtered ++
        order.toList.map Order.outline ++ limit.toList.map limitOutline)
  | .find entity filtered order =>
    .node (.named .find)
      ([fieldLeaf entity] ++ filterOutline filtered ++ order.toList.map Order.outline)
  | .update entity assignments filtered workers =>
    .node (updateNode workers)
      ([fieldLeaf entity] ++ assignments.map Assignment.outline ++ filterOutline filtered)
  | .analyze entity filtered group =>
    .node (.named .analyze)
      ([fieldLeaf entity] ++ filterOutline filtered ++ group.toList.map groupOutline)

/-- The tree of a query. -/
def tree (s : Statement) : SyntaxTree := Tree.ofOutline (.node rootNode [s.outline])

end Statement

/-! ## 2. Reading a statement -/

/-- A selection after its first word. -/
def selectStatement (ts : List Token) : Except Failure (Statement × List Token) := do
  let (p, ts) ← projection ts
  let ts ← keyword "FROM" .from ts
  let (source, ts) ← collectionName .sourceName ts
  let (filtered, ts) := filterClause ts
  let (order, ts) ← orderClause ts
  let (limit, ts) ← limitClause ts
  return (.select p source filtered order limit, ts)

/-- A search after its first word. -/
def findStatement (ts : List Token) : Except Failure (Statement × List Token) := do
  let (entity, ts) ← collectionName .entityName ts
  let (filtered, ts) := filterClause ts
  let (order, ts) ← orderClause ts
  return (.find entity filtered order, ts)

/-- An update after its first word. -/
def updateStatement (ts : List Token) : Except Failure (Statement × List Token) := do
  let (entity, ts) ← identifier .entityName ts
  let ts ← keyword "SET" .set ts
  let (as, ts) ← assignments ts
  let (filtered, ts) := filterClause ts
  let (workers, ts) := concurrentClause ts
  return (.update entity as filtered workers, ts)

/-- An analysis after its first word. -/
def analyzeStatement (ts : List Token) : Except Failure (Statement × List Token) := do
  let (entity, ts) ← identifier .entityName ts
  let (filtered, ts) := filterClause ts
  let (group, ts) ← groupClause ts
  return (.analyze entity filtered group, ts)

/-- A statement. -/
def statement (ts : List Token) : Except Failure (Statement × List Token) :=
  if startsWith "SELECT" ts then selectStatement ts.tail
  else if startsWith "FIND" ts then findStatement ts.tail
  else if startsWith "UPDATE" ts then updateStatement ts.tail
  else if startsWith "ANALYZE" ts then analyzeStatement ts.tail
  else .error ⟨.noStatement, ts⟩

/-- The statement that some tokens begin with. -/
def readStatement (ts : List Token) : Except SyntaxError Statement :=
  if isEmptyQuery ts then .error .emptyQuery
  else match statement ts with
    | .ok (s, _) => .ok s
    | .error f => .error (f.toError ts)

/-! ## 3. The readers as chains -/

open Reader

theorem selectStatement_eq :
    selectStatement =
      andThen projection fun p => andThen (token (wordOf "FROM") (.expected .from)) fun _ =>
        andThen (collectionName .sourceName) fun source => andThen filterReader fun filtered =>
        andThen orderClause fun order => andThen limitClause fun limit =>
        give (.select p source filtered order limit) := by
  funext ts
  refine bind_congr fun x => (keyword_bind _ _ _ _).trans ?_
  refine bind_congr fun y => bind_congr fun z => ?_
  simp only [andThen, ← filterClause_eq]
  rfl

theorem findStatement_eq :
    findStatement =
      andThen (collectionName .entityName) fun entity => andThen filterReader fun filtered =>
        andThen orderClause fun order => give (.find entity filtered order) := by
  funext ts
  refine bind_congr fun x => ?_
  simp only [andThen, ← filterClause_eq]
  rfl

theorem updateStatement_eq :
    updateStatement =
      andThen (identifier .entityName) fun entity =>
        andThen (token (wordOf "SET") (.expected .set)) fun _ => andThen assignments fun as =>
        andThen filterReader fun filtered => andThen concurrentReader fun workers =>
        give (.update entity as filtered workers) := by
  funext ts
  refine bind_congr fun x => (keyword_bind _ _ _ _).trans ?_
  refine bind_congr fun y => bind_congr fun z => ?_
  simp only [andThen, ← filterClause_eq]
  show _ = concurrentReader _ >>= _
  rw [← concurrentClause_eq]
  rfl

theorem analyzeStatement_eq :
    analyzeStatement =
      andThen (identifier .entityName) fun entity => andThen filterReader fun filtered =>
        andThen groupClause fun group => give (.analyze entity filtered group) := by
  funext ts
  refine bind_congr fun x => ?_
  simp only [andThen, ← filterClause_eq]
  rfl

theorem statement_eq :
    statement =
      ifNext (fun t => t.isKeyword "SELECT") (andThen pass fun _ => selectStatement)
        (ifNext (fun t => t.isKeyword "FIND") (andThen pass fun _ => findStatement)
          (ifNext (fun t => t.isKeyword "UPDATE") (andThen pass fun _ => updateStatement)
            (ifNext (fun t => t.isKeyword "ANALYZE") (andThen pass fun _ => analyzeStatement)
              (refuse .noStatement)))) := by
  funext ts
  unfold statement
  rw [← startsWith_eq, ← startsWith_eq, ← startsWith_eq, ← startsWith_eq]
  rfl

end StoreQL.Query
