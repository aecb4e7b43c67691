/-
# JSON values

Records of the store, data sets and results are JSON values. A number is an integer or a binary
floating-point value, and the two stay apart: `1` is printed `1` and `1.0` is printed `1.0`. A value
that was read has the fields of its objects in ascending order of their names, each name once; a
value that is built to be printed has its fields in the order in which they are to appear.
-/
import StoreQL.Dictionary
import StoreQL.Json.Binary64

namespace StoreQL

/-- A number: an integer of at most 64 bits, or a binary floating-point value. -/
inductive Json.Number where
  | integer (i : Int)
  | real (x : Json.Binary64)
deriving DecidableEq, Repr, Inhabited

/-- A JSON value. -/
inductive Json where
  | null
  | bool (b : Bool)
  | num (n : Json.Number)
  | str (s : String)
  | arr (items : List Json)
  | obj (fields : List (String × Json))
deriving Repr, Inhabited

namespace Json

/-- The number of a natural number. -/
def nat (n : Nat) : Json := .num (.integer n)

/-- A text, or `null` in its absence. -/
def ofOption (f : α → Json) : Option α → Json
  | none => .null
  | some a => f a

/-- The value of the field `name`, if the value is an object that has it. -/
def field? (name : String) : Json → Option Json
  | .obj fields => Dictionary.find? name fields
  | _ => none

end Json
end StoreQL
