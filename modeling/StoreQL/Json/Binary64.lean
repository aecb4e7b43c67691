/-
# Binary floating-point numbers

The finite values of the 64-bit binary format, as exact integers: a value is `significand` times
two to the `exponent`, where the significand has at most 53 bits and the exponent is at least
`-1074`. Every value has one such form with either a full significand or the least exponent, and
that is the form in which they are built here.

`Binary64.ofRatio?` rounds a quotient of two naturals to the nearest value, a quotient halfway
between two of them to the one with the even significand. Products and quotients of values are the
roundings of the exact ones, so all of the arithmetic is done on naturals.
-/
import StoreQL.Arithmetic

namespace StoreQL.Json

/-- A finite binary floating-point value. -/
structure Binary64 where
  negative : Bool
  significand : Nat
  exponent : Int
deriving DecidableEq, Repr, Inhabited

namespace Binary64

/-- The least exponent. -/
def minExponent : Int := -1074

/-- The greatest exponent. -/
def maxExponent : Int := 971

/-- Zero without a sign. -/
def zero : Binary64 := ⟨false, 0, minExponent⟩

/-- Whether the value is zero of either sign. -/
def isZero (x : Binary64) : Bool := x.significand == 0

/-- The value with its sign set. -/
def withSign (x : Binary64) (negative : Bool) : Binary64 := { x with negative }

/-- The integer nearest to `num / den`, the even one of two that are equally near. -/
def roundDiv (num den : Nat) : Nat :=
  let q := num / den
  let r := num % den
  if 2 * r < den then q
  else if den < 2 * r then q + 1
  else if q % 2 = 0 then q else q + 1

/-- The greatest `e` with `2 ^ e` at most `num / den`, which is positive. -/
def floorLog2 (num den : Nat) : Int :=
  let e : Int := (num.log2 : Int) - den.log2
  if den * twoTo e.toNat ≤ num * twoTo (-e).toNat then e else e - 1

/-- The value nearest to `num / den`, unless that is beyond the greatest value. -/
def ofRatio? (num den : Nat) : Option Binary64 :=
  if num = 0 then some zero
  else
    let exponent := max (floorLog2 num den - 52) minExponent
    let significand := roundDiv (num * twoTo (-exponent).toNat) (den * twoTo exponent.toNat)
    let x : Binary64 :=
      if significand = twoTo 53 then ⟨false, twoTo 52, exponent + 1⟩
      else ⟨false, significand, exponent⟩
    if maxExponent < x.exponent then none else some x

/-- The value nearest to a natural number. -/
def ofNat? (n : Nat) : Option Binary64 := ofRatio? n 1

/-- The size of a product, rounded. -/
def mul? (x y : Binary64) : Option Binary64 :=
  let e := x.exponent + y.exponent
  ofRatio? (x.significand * y.significand * twoTo e.toNat) (twoTo (-e).toNat)

/-- The size of a quotient by a value that is not zero, rounded. -/
def div? (x y : Binary64) : Option Binary64 :=
  let e := x.exponent - y.exponent
  ofRatio? (x.significand * twoTo e.toNat) (y.significand * twoTo (-e).toNat)

end Binary64
end StoreQL.Json
