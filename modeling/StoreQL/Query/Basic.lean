/-
# Queries from end to end

A query is a text. It is parted into tokens, the tokens are read into a tree, and the tree is
executed on a store. Each stage has its own errors; here they are told apart by the stage.
-/
import StoreQL.Execute.Basic
import StoreQL.Query.Build
import StoreQL.Token.Scan

namespace StoreQL

/-- The error of a stage. -/
inductive QueryError where
  | lexical (error : LexicalError)
  | syntactic (error : Query.SyntaxError)
  | execution (error : ExecutionError)
deriving DecidableEq, Repr

/-- The error in words. -/
def QueryError.message : QueryError → String
  | .lexical e => s!"lexical analysis failed: {e.message}"
  | .syntactic e => s!"parsing failed: {e.message}"
  | .execution e => s!"execution failed: {e.message}"

/-- The tree of a query. -/
def parseQuery (query : String) : Except QueryError Query.SyntaxTree := do
  let tokens ← (tokenizeStrict query).mapError .lexical
  (Query.parseTokens tokens).mapError .syntactic

/-- Check that a text is a query. -/
def validateQuery (query : String) : Except QueryError Unit :=
  (parseQuery query).map (fun _ => ())

/-- Execute a query on a store, with at most `limit` records. -/
def executeQuery (store : DataStore) (limit : Nat) (query : String) :
    Except QueryError QueryResult := do
  let tree ← parseQuery query
  (executeTree store limit tree).mapError .execution

end StoreQL
