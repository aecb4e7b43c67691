/-
# Reading decimals

A numeral has an optional sign, digits, and at most one point among them; underscores may stand
anywhere after the first digit. Digits are gathered into a coefficient until the next one does not
fit, that is, until it would take the coefficient past its bound or the scale is at its greatest.
Before the point that is a failure. After it the one digit rounds what was gathered, half upwards,
and the digits that follow are only checked to be digits.

An underscore between the last digit that fits and the next one is passed over if the coefficient is
long, and stands for the digit 0 if it is short.

A text that is not a numeral is tried in scientific notation: a numeral, the mark `e` or `E`, and an
exponent, which moves the point.
-/
import StoreQL.Decimal.Basic
import StoreQL.Text.Digit

namespace StoreQL.Decimal

open Text (isDigit digitValue)

/-- A coefficient and a scale, without a sign. -/
abbrev Magnitude := Nat × Nat

/-! ## 1. Numerals -/

/-- Round by the digit that follows. A coefficient that reaches its bound by that gives up its last
digit, which needs a scale. -/
def roundBy (digit coefficient scale : Nat) : Option Magnitude :=
  if digit < 5 then some (coefficient, scale)
  else if coefficient + 1 < coefficientBound then some (coefficient + 1, scale)
  else if scale = 0 then none
  else some ((coefficient + 5) / 10, scale - 1)

/-- Whether only digits and underscores are left. -/
def onlyDigits (cs : List Char) : Bool := cs.all (fun c => isDigit c || c == '_')

/-- The bound of short coefficients: 255 short of a tenth of a word of 64 bits. -/
def shortBound : Nat := twoTo 64 / 10 - 255

/-- Whether the coefficient was short before its last digit came to it. -/
def isShort (coefficient : Nat) : Bool := coefficient / 10 < shortBound

/-- Digits after the point. `started` says whether there was a digit before them. -/
def readFraction (coefficient scale : Nat) (started : Bool) : List Char → Option Magnitude
  | [] => if started then some (coefficient, scale) else none
  | c :: cs =>
    if isDigit c then
      let next := coefficient * 10 + digitValue c
      if scale < maxScale ∧ next < coefficientBound then readFraction next (scale + 1) true cs
      else if onlyDigits cs then roundBy (digitValue c) coefficient scale
      else none
    else if c = '_' ∧ started then
      if scale < maxScale ∨ !isShort coefficient then readFraction coefficient scale started cs
      else if onlyDigits cs then some (coefficient, scale)
      else none
    else none

/-- Digits before the point, and the rest. -/
def readWhole (coefficient : Nat) (started : Bool) : List Char → Option Magnitude
  | [] => if started then some (coefficient, 0) else none
  | c :: cs =>
    if isDigit c then
      let next := coefficient * 10 + digitValue c
      if next < coefficientBound then readWhole next true cs else none
    else if c = '.' then readFraction coefficient 0 started cs
    else if c = '_' ∧ started then readWhole coefficient started cs
    else none

/-- The decimal of a numeral with its sign. -/
def readNumeral : List Char → Option Decimal
  | '-' :: cs => (readWhole 0 false cs).map (fun (m, s) => signed true m s)
  | '+' :: cs => (readWhole 0 false cs).map (fun (m, s) => signed false m s)
  | cs => (readWhole 0 false cs).map (fun (m, s) => signed false m s)

/-! ## 2. Scientific notation -/

/-- The bound of exponents. -/
def exponentBound : Nat := twoTo 32

/-- The decimal at a lower scale, the digits dropped rounded half away from zero. The sign stays
also where nothing else does. -/
def rescale (d : Decimal) (scale : Nat) : Decimal :=
  let unit := tenTo (d.scale - scale)
  ⟨d.negative, (d.coefficient + unit / 2) / unit, scale⟩

/-- The point moved `n` places to the left. What goes beyond the greatest scale is rounded away. -/
def shiftLeft (d : Decimal) (n : Nat) : Option Decimal :=
  if maxScale < n then none
  else if d.scale + n ≤ maxScale then some ⟨d.negative, d.coefficient, d.scale + n⟩
  else some ⟨d.negative, (d.rescale (maxScale - n)).coefficient, maxScale⟩

/-- The point moved `n` places to the right, beyond the last digit only as far as the bound of the
coefficient allows. -/
def shiftRight (d : Decimal) (n : Nat) : Option Decimal :=
  if n ≤ d.scale then some ⟨d.negative, d.coefficient, d.scale - n⟩
  else if maxScale < n then none
  else
    let whole := d.coefficient * tenTo (n - d.scale)
    if whole < coefficientBound then some ⟨d.negative, whole, 0⟩ else none

/-- Whether `c` stands between a numeral and its exponent. -/
def isExponentMark (c : Char) : Bool := c == 'e' || c == 'E'

/-- The decimal of a numeral with an exponent. -/
def readScientific (cs : List Char) : Option Decimal :=
  match cs.dropWhile (fun c => !isExponentMark c) with
  | [] => none
  | _ :: exponent => do
    let d ← readNumeral (cs.takeWhile (fun c => !isExponentMark c))
    match exponent with
    | '-' :: digits => d.shiftLeft (← Text.readNatural? exponentBound digits)
    | digits => d.shiftRight (← Text.readNatural? exponentBound digits)

/-- The decimal that a text writes. -/
def ofText? (text : String) : Option Decimal :=
  (readNumeral text.toList).or (readScientific text.toList)

end StoreQL.Decimal
