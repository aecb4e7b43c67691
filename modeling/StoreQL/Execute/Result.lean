/-
# Results

What a query gives: its kind, the records, how many the collection has altogether, and a message.
The count is of the collection and not of the records, of which there are at most as many as the
limit allows.
-/
import StoreQL.Query.Node
import StoreQL.Store.Basic

namespace StoreQL

/-- The kinds of query. -/
inductive QueryKind where
  | select
  | find
  | update
  | analyze
deriving DecidableEq, Repr, Inhabited

namespace QueryKind

/-- Every kind. -/
def all : List QueryKind := [.select, .find, .update, .analyze]

/-- The name under which a kind is shown. -/
def name : QueryKind → String
  | .select => "SELECT"
  | .find => "FIND"
  | .update => "UPDATE"
  | .analyze => "ANALYZE"

end QueryKind

/-- The outcome of a query. -/
structure QueryResult where
  kind : QueryKind
  records : List Json
  count : Nat
  success : Bool
  message : String
deriving Repr

namespace QueryResult

/-- The outcome of a query that is only acknowledged. -/
def acknowledged (kind : QueryKind) (entity : String) : QueryResult :=
  ⟨kind, [], 0, true, s!"Executed {kind.name} {entity}"⟩

/-- The outcome as it is printed. -/
def toJson (r : QueryResult) : Json :=
  .obj [("type", .str r.kind.name), ("data", .arr r.records), ("count", .nat r.count),
    ("success", .bool r.success), ("message", .str r.message)]

end QueryResult

/-- Why a tree is not executed. -/
inductive ExecutionError where
  | noStatement
  | unknownStatement (kind : Query.Node.Kind)
  | noEntity (kind : QueryKind)
  | store (error : StoreError)
deriving DecidableEq, Repr

/-- The error in words. -/
def ExecutionError.message : ExecutionError → String
  | .noStatement => "empty AST"
  | .unknownStatement kind => s!"unknown statement type: {kind.name}"
  | .noEntity kind => s!"{kind.name} statement has no entity"
  | .store e => s!"data store error: {e.message}"

end StoreQL
