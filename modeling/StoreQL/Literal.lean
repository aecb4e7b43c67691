/-
# Literals

The values that a query can name: on the right of an assignment, and as the arguments of clauses. A
numeral that fits no decimal stays a text, as it was written.
-/
import StoreQL.Decimal.Read

namespace StoreQL

/-- A value named in a query. -/
inductive Literal where
  | null
  | boolean (b : Bool)
  | number (d : Decimal)
  | string (s : String)
deriving DecidableEq, Repr, Inhabited

namespace Literal

/-- A text without a point at its end. -/
def withoutPoint (text : String) : String :=
  let cs := text.toList
  String.ofList (if cs.getLast? = some '.' then cs.dropLast else cs)

/-- The literal of a numeral, if it fits a decimal. -/
def ofNumeral? (text : String) : Option Literal :=
  (Decimal.ofText? (withoutPoint text)).map .number

/-- The literal of a numeral, or its text if it fits no decimal. -/
def ofNumeral (text : String) : Literal := (ofNumeral? text).getD (.string text)

/-- The literal as a natural number below two to the 64, if it is one. -/
def toCount? : Literal → Option Nat
  | .number d => d.toCount?
  | _ => none

/-- Whether two literals are equal, numbers as numbers. -/
def equal : Literal → Literal → Bool
  | .null, .null => true
  | .boolean a, .boolean b => a == b
  | .number d, .number e => d.equal e
  | .string s, .string t => s == t
  | _, _ => false

/-- The literal as a query would name it, a text between double quotation marks. -/
def render : Literal → String
  | .null => "NULL"
  | .boolean true => "TRUE"
  | .boolean false => "FALSE"
  | .number d => d.render
  | .string s => s!"\"{s}\""

end Literal
end StoreQL
