/-
# Decimals

A decimal is a sign and a natural number over a power of ten. The exponent of that power, the scale,
is kept as it was written: `1.5` and `1.50` are equal as numbers, and each is printed as it was
given. A scale has two zeros, equal as numbers; the negative one is what rounding leaves of a small
negative number, and no numeral writes it.

A coefficient has at most 96 bits and a scale is at most 28; reading keeps to these bounds.
-/
import StoreQL.Arithmetic

namespace StoreQL

/-- `coefficient` over ten to the `scale`, below zero if `negative`. -/
structure Decimal where
  negative : Bool
  coefficient : Nat
  scale : Nat
deriving DecidableEq, Repr, Inhabited

namespace Decimal

/-- The size that no coefficient reaches. -/
def coefficientBound : Nat := twoTo 96

/-- The greatest scale. -/
def maxScale : Nat := 28

/-- The decimal of a sign and a magnitude. A zero takes no sign. -/
def signed (negative : Bool) (coefficient scale : Nat) : Decimal :=
  ⟨negative && coefficient != 0, coefficient, scale⟩

/-- The whole number `n`. -/
def ofNat (n : Nat) : Decimal := ⟨false, n, 0⟩

/-- The coefficient with its sign. -/
def numerator (d : Decimal) : Int := if d.negative then -(d.coefficient : Int) else d.coefficient

/-- Whether two decimals are equal as numbers: each numerator is taken to the other's scale. -/
def equal (d e : Decimal) : Bool :=
  d.numerator * tenTo e.scale == e.numerator * tenTo d.scale

/-- The decimal as a natural number below two to the 64, if it is one. What has the negative sign,
be it zero, is none. -/
def toCount? (d : Decimal) : Option Nat :=
  if d.negative ∨ d.coefficient % tenTo d.scale ≠ 0 then none
  else
    let n := d.coefficient / tenTo d.scale
    if n < twoTo 64 then some n else none

/-- The decimal in positional notation, with as many digits after the point as its scale says and at
least one before it. -/
def render (d : Decimal) : String :=
  let digits := Nat.toDigits 10 d.coefficient
  let padded := List.replicate (d.scale + 1 - digits.length) '0' ++ digits
  let whole := padded.take (padded.length - d.scale)
  let fraction := padded.drop (padded.length - d.scale)
  let sign := if d.negative then ['-'] else []
  let point := if d.scale = 0 then [] else ['.']
  String.ofList (sign ++ whole ++ point ++ fraction)

end Decimal
end StoreQL
