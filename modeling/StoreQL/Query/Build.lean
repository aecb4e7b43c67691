/-
# From tokens to trees

A statement is read and laid out in one go: what has been read is put into the tree at once, under
the node of the statement or of a clause, whose handle was given when that node was put in. The tree
looks each handle up, and building stops where the tokens go wrong or where a handle is not known.

The node of an update bears the number of its workers, which is written last, so an update is read to
its end before any of its nodes is put in. What follows a complete statement is not looked at.
-/
import StoreQL.Query.Parse

namespace StoreQL.Query

/-! ## 1. Building -/

/-- What there is while a query is read: the tokens that are left, and the tree so far. -/
structure Draft where
  rest : List Token
  tree : SyntaxTree

/-- Why building stops. -/
inductive Halt where
  | failure (failure : Failure)
  | unknownNode (error : Tree.UnknownNode)
deriving DecidableEq, Repr

/-- What reads tokens and puts nodes into the tree. -/
abbrev Builder := StateT Draft (Except Halt)

namespace Builder

/-- Read something, and put nothing in. -/
def read (reader : List Token → Except Failure (α × List Token)) : Builder α := fun d =>
  match reader d.rest with
  | .ok (a, rest) => .ok (a, ⟨rest, d.tree⟩)
  | .error f => .error (.failure f)

/-- Read a keyword. -/
def word (word : String) (what : Expectation) : Builder Unit :=
  read fun ts => (keyword word what ts).map fun rest => ((), rest)

/-- Put in a node as the last child of another: its handle. -/
def add (parent : Nat) (node : Node) : Builder Nat := fun d =>
  match d.tree.insert parent node with
  | .ok (handle, tree) => .ok (handle, ⟨d.rest, tree⟩)
  | .error e => .error (.unknownNode e)

/-- Put in a node under which nothing will stand. -/
def addLeaf (parent : Nat) (node : Node) : Builder Unit := do
  let _ ← add parent node
  return

end Builder

open Builder

/-! ## 2. Clauses -/

/-- A field list: `*` or a field. -/
def addProjection (parent : Nat) : Builder Unit := do
  let p ← read projection
  addLeaf parent (fieldNode p.text)

/-- A collection that may be named by any word. -/
def addSource (parent : Nat) (what : Expectation) : Builder Unit := do
  let name ← read (collectionName what)
  addLeaf parent (fieldNode name)

/-- A condition, if one comes next. -/
def addFilter (parent : Nat) : Builder Unit := do
  let filtered ← read fun ts => .ok (filterClause ts)
  if filtered then
    addLeaf parent (.named .filter)

/-- An order, if one comes next. -/
def addOrder (parent : Nat) : Builder Unit := do
  let order ← read orderClause
  match order with
  | none => return
  | some o =>
    let handle ← add parent o.node
    addLeaf handle (fieldNode o.field.text)

/-- A limit, if one comes next. -/
def addLimit (parent : Nat) : Builder Unit := do
  let limit ← read limitClause
  match limit with
  | none => return
  | some numeral =>
    addLeaf parent (limitNode numeral)

/-- A grouping, if one comes next. -/
def addGroup (parent : Nat) : Builder Unit := do
  let group ← read groupClause
  match group with
  | none => return
  | some f =>
    let handle ← add parent (.named .groupBy)
    addLeaf handle (fieldNode f.text)

/-- An assignment that has been read. -/
def addAssignment (parent : Nat) (a : Assignment) : Builder Unit := do
  let handle ← add parent assignmentNode
  addLeaf handle (fieldNode a.field.text)
  addLeaf handle (valueNode a.value)

/-! ## 3. Statements -/

/-- A selection after its first word. -/
def addSelect (root : Nat) : Builder Unit := do
  let handle ← add root (.named .select)
  addProjection handle
  word "FROM" .from
  addSource handle .sourceName
  addFilter handle
  addOrder handle
  addLimit handle

/-- A search after its first word. -/
def addFind (root : Nat) : Builder Unit := do
  let handle ← add root (.named .find)
  addSource handle .entityName
  addFilter handle
  addOrder handle

/-- An update after its first word. -/
def addUpdate (root : Nat) : Builder Unit := do
  let entity ← read (identifier .entityName)
  word "SET" .set
  let as ← read assignments
  let filtered ← read fun ts => .ok (filterClause ts)
  let workers ← read fun ts => .ok (concurrentClause ts)
  let handle ← add root (updateNode workers)
  addLeaf handle (fieldNode entity)
  as.forM (addAssignment handle)
  if filtered then
    addLeaf handle (.named .filter)

/-- An analysis after its first word. -/
def addAnalyze (root : Nat) : Builder Unit := do
  let entity ← read (identifier .entityName)
  let handle ← add root (.named .analyze)
  addLeaf handle (fieldNode entity)
  addFilter handle
  addGroup handle

/-- A statement. -/
def addStatement (root : Nat) : Builder Unit := fun d =>
  let body : Draft := ⟨d.rest.tail, d.tree⟩
  if startsWith "SELECT" d.rest then addSelect root body
  else if startsWith "FIND" d.rest then addFind root body
  else if startsWith "UPDATE" d.rest then addUpdate root body
  else if startsWith "ANALYZE" d.rest then addAnalyze root body
  else .error (.failure ⟨.noStatement, d.rest⟩)

/-! ## 4. Queries -/

/-- Why building stopped, as an error about the tokens that it began with. -/
def Halt.toError (tokens : List Token) : Halt → SyntaxError
  | .failure f => f.toError tokens
  | .unknownNode e => .tree e

/-- Whether there is nothing before the end of the input. -/
def isEmptyQuery : List Token → Bool
  | t :: _ => t.kind == .endOfInput
  | [] => true

/-- The tree of the statement that some tokens begin with. -/
def parseTokens (ts : List Token) : Except SyntaxError SyntaxTree :=
  if isEmptyQuery ts then .error .emptyQuery
  else match addStatement Tree.root ⟨ts, Tree.singleton rootNode⟩ with
    | .ok ((), d) => .ok d.tree
    | .error halt => .error (halt.toError ts)

end StoreQL.Query
