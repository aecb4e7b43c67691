/-
# Projections

A selection of a field takes from each record the value at a path. The record keeps its shape: the
value stands under the same names, and nothing else is left beside it. What is not there is null.

The names of a path are parted by points, and may be empty.
-/
import StoreQL.Json.Basic

namespace StoreQL

/-- The names of a path. -/
def pathNames (path : String) : List String :=
  (path.toList.splitOn '.').map String.ofList

namespace Json

/-- The value under some names, one inside the other. -/
def descend? : Json → List String → Option Json
  | x, [] => some x
  | x, name :: rest => (x.field? name).bind (fun y => y.descend? rest)

/-- A value under some names, one inside the other. -/
def nest : List String → Json → Json
  | [], x => x
  | name :: rest, x => .obj [(name, nest rest x)]

/-- The record reduced to the value at a path. -/
def project (record : Json) (path : String) : Json :=
  nest (pathNames path) ((record.descend? (pathNames path)).getD .null)

end Json
end StoreQL
