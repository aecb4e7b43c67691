/-
# Stores in memory

The four collections as lists of records, oldest first. Records are only ever added.

A store is loaded from a document: an object whose fields of the collections' names hold arrays.
Other fields are passed over, whatever they hold. The fields come in ascending order of their names,
so of several that hold no array the first by name is the one complained about.
-/
import StoreQL.Json.Read
import StoreQL.Store.Basic

namespace StoreQL

/-- The records of each collection. -/
structure MemoryStore where
  products : List Json
  orders : List Json
  stores : List Json
  customers : List Json
deriving Repr, Inhabited

namespace MemoryStore

/-- The store without records. -/
def empty : MemoryStore := ⟨[], [], [], []⟩

/-- The records of a collection. -/
def records (s : MemoryStore) : Entity → List Json
  | .products => s.products
  | .orders => s.orders
  | .stores => s.stores
  | .customers => s.customers

/-- Add records to the end of a collection. -/
def extend (s : MemoryStore) (entity : Entity) (added : List Json) : MemoryStore :=
  match entity with
  | .products => { s with products := s.products ++ added }
  | .orders => { s with orders := s.orders ++ added }
  | .stores => { s with stores := s.stores ++ added }
  | .customers => { s with customers := s.customers ++ added }

/-- Add one record to the end of a collection. -/
def insert (s : MemoryStore) (entity : Entity) (record : Json) : MemoryStore :=
  s.extend entity [record]

/-- The first records of a collection. -/
def fetch (s : MemoryStore) (entity : Entity) (limit : Nat) : List Json :=
  (s.records entity).take limit

/-- The number of records of a collection. -/
def count (s : MemoryStore) (entity : Entity) : Nat := (s.records entity).length

/-- The store by its answers, none of which is a refusal. -/
def toDataStore (s : MemoryStore) : DataStore where
  fetch entity limit := .ok (s.fetch entity limit)
  count entity := .ok (s.count entity)

/-! ## Loading a document -/

/-- Load one field of a document. -/
def loadField (s : MemoryStore) (name : String) (value : Json) : Except StoreError MemoryStore :=
  match Entity.ofName? name with
  | none => .ok s
  | some entity =>
    match value with
    | .arr added => .ok (s.extend entity added)
    | _ => .error (.notAnArray name)

/-- Load the fields of a document. -/
def loadFields (s : MemoryStore) : List (String × Json) → Except StoreError MemoryStore
  | [] => .ok s
  | (name, value) :: rest => (s.loadField name value).bind (fun s' => s'.loadFields rest)

/-- The store of a document. -/
def ofDocument : Json → Except StoreError MemoryStore
  | .obj fields => empty.loadFields fields
  | _ => .error .notAnObject

/-- The store of the text of a document. -/
def ofText (text : String) : Except StoreError MemoryStore :=
  match Json.parse text with
  | .ok document => ofDocument document
  | .error e => .error (.json e)

end MemoryStore
end StoreQL
