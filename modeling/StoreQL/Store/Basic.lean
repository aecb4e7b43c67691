/-
# Stores

A query names a collection, and a store is asked for two things about it: its first records, up to a
limit, and how many there are. Either answer may be refused. How a store keeps its records is its
own affair, so a store is here just the two questions.

The collections are known by their exact names. Customers may be named, but are never asked for.
-/
import StoreQL.Json.Fault
import StoreQL.Json.Basic

namespace StoreQL

/-- The collections that a query can name. -/
inductive Entity where
  | products
  | orders
  | stores
  | customers
deriving DecidableEq, Repr, Inhabited

namespace Entity

/-- Every collection, in the order in which they are listed to users. -/
def all : List Entity := [.products, .orders, .stores, .customers]

/-- The name of a collection. -/
def name : Entity → String
  | .products => "products"
  | .orders => "orders"
  | .stores => "stores"
  | .customers => "customers"

/-- The collection of a given name. -/
def ofName? (name : String) : Option Entity := all.find? (fun e => e.name == name)

/-- Whether a store is asked for the collection. -/
def isBacked : Entity → Bool
  | .customers => false
  | _ => true

end Entity

/-- Why a store refuses. -/
inductive StoreError where
  | json (error : Json.Error)
  | notAnObject
  | notAnArray (name : String)
  | unavailable (reason : String)
deriving DecidableEq, Repr

/-- The error in words. -/
def StoreError.message : StoreError → String
  | .json e => s!"invalid store document: {e.message}"
  | .notAnObject => "store document must be a JSON object"
  | .notAnArray name => s!"collection '{name}' must be a JSON array"
  | .unavailable reason => s!"store unavailable: {reason}"

/-- A store, by its answers. -/
structure DataStore where
  /-- The first records of a collection, up to a limit. -/
  fetch : Entity → Nat → Except StoreError (List Json)
  /-- The number of records of a collection. -/
  count : Entity → Except StoreError Nat

/-- The store that refuses everything. -/
def DataStore.unavailable (reason : String) : DataStore where
  fetch _ _ := .error (.unavailable reason)
  count _ := .error (.unavailable reason)

end StoreQL
