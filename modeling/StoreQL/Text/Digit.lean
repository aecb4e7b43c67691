/-
# Digits

The ten ASCII digits, with which numbers are written. A numeral of another script is none of them.
-/
namespace StoreQL.Text

/-- Whether `c` is one of the ten digits. -/
def isDigit (c : Char) : Bool := '0' ≤ c && c ≤ '9'

/-- The value of a digit. -/
def digitValue (c : Char) : Nat := c.toNat - '0'.toNat

/-- The number that a row of digits writes, appended to the digits of `n`. -/
def appendDigits (n : Nat) (digits : List Char) : Nat :=
  digits.foldl (fun m c => m * 10 + digitValue c) n

/-- The number below `bound` that some characters write: digits, after a plus sign or none. -/
def readNatural? (bound : Nat) (cs : List Char) : Option Nat :=
  let digits := if cs.head? = some '+' then cs.tail else cs
  if digits.isEmpty || !digits.all isDigit then none
  else
    let n := appendDigits 0 digits
    if n < bound then some n else none

end StoreQL.Text
