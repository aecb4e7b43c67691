/-
# Checking a query

A query is executed on a data set that is given as a text, or only looked at for its syntax. A data
set that does not load is complained about before the query is looked at.
-/
import StoreQL.Command.Error
import StoreQL.Store.Memory

namespace StoreQL.Command

/-- What is to be checked: a query, with the text of a data set or none. -/
structure CheckOptions where
  query : String
  input : Option String
  syntaxOnly : Bool
  fetchLimit : Nat
deriving Repr

/-- What comes of a check. -/
inductive CheckResult where
  | valid
  | executed (result : QueryResult)
deriving Repr

/-- Check a query. -/
def check (o : CheckOptions) : Except Error CheckResult :=
  if o.syntaxOnly then (validateQuery o.query).mapError .query |>.map (fun _ => .valid)
  else do
    let text ← match o.input with
      | some text => .ok text
      | none => .error .noInput
    let store ← (MemoryStore.ofText text).mapError .dataSet
    let result ← (executeQuery store.toDataStore o.fetchLimit o.query).mapError .query
    return .executed result

end StoreQL.Command
