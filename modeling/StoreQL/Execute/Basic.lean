/-
# Executing a query

Of a tree only the statement is read, that is, the first child of the root, and of the statement
only its children of kind field. A selection takes the first two of them, wherever they stand, for
the field and the source; the other statements want their entity as the very first child.
Conditions, orders, limits and groupings are not applied.

A name that is no collection's, or that of a collection which is not kept, gives no records. An
update or an analysis is acknowledged, and the store is not asked.
-/
import StoreQL.Execute.Projection
import StoreQL.Execute.Result

namespace StoreQL

open Query (SyntaxTree)

/-- The number of records that a query gives at most, unless told otherwise. -/
def defaultFetchLimit : Nat := 100

/-- The first records of a named collection and the number of them all. -/
def loadCollection (store : DataStore) (limit : Nat) (name : String) :
    Except StoreError (List Json × Nat) :=
  match (Entity.ofName? name).filter Entity.isBacked with
  | none => .ok ([], 0)
  | some entity => do
    let records ← store.fetch entity limit
    let count ← store.count entity
    return (records, count)

/-- The records of a selection. -/
def selectRecords (field : String) (records : List Json) : List Json :=
  if field = "*" then records else records.map (fun r => r.project field)

/-- The text of the first child of a statement, which is to be a field. -/
def leadingField (tree : SyntaxTree) (handle : Nat) (kind : QueryKind) :
    Except ExecutionError String :=
  match tree.children handle with
  | (_, n) :: _ => if n.kind = .field then .ok n.text else .error (.noEntity kind)
  | [] => .error (.noEntity kind)

/-- Execute the selection at `handle`. -/
def executeSelect (store : DataStore) (limit : Nat) (tree : SyntaxTree) (handle : Nat) :
    Except ExecutionError QueryResult :=
  match tree.childrenOfKind handle .field with
  | (_, field) :: (_, source) :: _ => do
    let (records, count) ← (loadCollection store limit source.text).mapError .store
    return ⟨.select, selectRecords field.text records, count, true,
      s!"Selected {count} records FROM {source.text}"⟩
  | _ => .error (.noEntity .select)

/-- Execute the search at `handle`. -/
def executeFind (store : DataStore) (limit : Nat) (tree : SyntaxTree) (handle : Nat) :
    Except ExecutionError QueryResult := do
  let entity ← leadingField tree handle .find
  let (records, count) ← (loadCollection store limit entity).mapError .store
  return ⟨.find, records, count, true, s!"Found {count} {entity}"⟩

/-- Acknowledge the statement at `handle`. -/
def acknowledge (kind : QueryKind) (tree : SyntaxTree) (handle : Nat) :
    Except ExecutionError QueryResult :=
  (leadingField tree handle kind).map (.acknowledged kind)

/-- Execute a query on a store, with at most `limit` records. -/
def executeTree (store : DataStore) (limit : Nat) (tree : SyntaxTree) :
    Except ExecutionError QueryResult :=
  match tree.statement? with
  | none => .error .noStatement
  | some (handle, statement) =>
    match statement.kind with
    | .select => executeSelect store limit tree handle
    | .find => executeFind store limit tree handle
    | .update => acknowledge .update tree handle
    | .analyze => acknowledge .analyze tree handle
    | kind => .error (.unknownStatement kind)

end StoreQL
