/-
# The shortest decimal of a binary value

A real number rounds to a given binary value if it lies between the two points halfway to the
value's neighbours, which count if the significand is even. Among the decimals of that interval the
one to write has the fewest digits, and is nearest to the value among those of so many digits; of
two equally near the even one is taken.

For each count of digits only the two decimals next to the value need to be tried, one on either
side. `Binary64.shortest` tries the counts from one up; seventeen always suffice, and should they
not the exact value is taken. `Binary64.render` lays the digits out.
-/
import StoreQL.Json.Binary64

namespace StoreQL.Json

/-- `digits` times ten to the `exponent`. -/
structure ScaledDigits where
  digits : Nat
  exponent : Int
deriving DecidableEq, Repr

namespace Binary64

/-! ## 1. The interval that a value stands for -/

/-- Compare `a * 10 ^ i` with `n * 2 ^ j`. -/
def compareScaled (a : Nat) (i : Int) (n : Nat) (j : Int) : Ordering :=
  compare (a * tenTo i.toNat * twoTo (-j).toNat) (n * twoTo j.toNat * tenTo (-i).toNat)

/-- Whether the neighbour below is nearer than the neighbour above, as it is at a power of two. -/
def narrowBelow (x : Binary64) : Bool :=
  x.significand == twoTo 52 && minExponent < x.exponent

/-- Whether `d` rounds to the size of `x`. -/
def readsBack (x : Binary64) (d : ScaledDigits) : Bool :=
  let lower := if x.narrowBelow then 4 * x.significand - 1 else 4 * x.significand - 2
  let upper := 4 * x.significand + 2
  let ends := x.significand % 2 == 0
  let toLower := compareScaled d.digits d.exponent lower (x.exponent - 2)
  let toUpper := compareScaled d.digits d.exponent upper (x.exponent - 2)
  (toLower == .gt || (ends && toLower == .eq)) && (toUpper == .lt || (ends && toUpper == .eq))

/-! ## 2. The shortest decimal -/

/-- The least `k` for which the size of `x`, which is not zero, is below ten to the `k`. -/
def decimalScale (x : Binary64) : Int :=
  let num := x.significand * twoTo x.exponent.toNat
  let den := twoTo (-x.exponent).toNat
  if den ≤ num then ((Nat.toDigits 10 (num / den)).length : Int)
  else
    match (List.range 330).find? (fun j => den ≤ num * tenTo j) with
    | some j => 1 - (j : Int)
    | none => -330

/-- The decimal of `count` digits that is nearest to `x` among those that round to it. -/
def nearestOf? (x : Binary64) (count : Nat) : Option ScaledDigits :=
  let grid := x.decimalScale - count
  let num := x.significand * twoTo x.exponent.toNat * tenTo (-grid).toNat
  let den := twoTo (-x.exponent).toNat * tenTo grid.toNat
  let below : ScaledDigits := ⟨num / den, grid⟩
  let above : ScaledDigits := ⟨num / den + 1, grid⟩
  match x.readsBack below, x.readsBack above with
  | false, false => none
  | true, false => some below
  | false, true => some above
  | true, true =>
    let r := num % den
    if 2 * r < den then some below
    else if den < 2 * r then some above
    else if below.digits % 2 = 0 then some below else some above

/-- The value itself as a decimal. -/
def exact (x : Binary64) : ScaledDigits :=
  ⟨x.significand * twoTo x.exponent.toNat * Nat.pow 5 (-x.exponent).toNat, min x.exponent 0⟩

/-- The shortest decimal that rounds to the size of `x`, which is not zero. -/
def shortest (x : Binary64) : ScaledDigits :=
  ((List.range 17).findSome? (fun n => x.nearestOf? (n + 1))).getD x.exact

/-! ## 3. Layout -/

/-- The digits without the zeros at their end, and the exponent of the first of them. -/
def significantDigits (d : ScaledDigits) : List Char × Int :=
  let written := Nat.toDigits 10 d.digits
  let trimmed := (written.reverse.dropWhile (· == '0')).reverse
  (trimmed, d.exponent + written.length - 1)

/-- Digits whose first has the given exponent, in positional notation with at least one digit on
either side of the point. -/
def positional (digits : List Char) (exponent : Int) : List Char :=
  if exponent < 0 then
    '0' :: '.' :: (List.replicate (-exponent - 1).toNat '0' ++ digits)
  else
    let whole := (exponent + 1).toNat
    if digits.length ≤ whole then
      digits ++ List.replicate (whole - digits.length) '0' ++ ['.', '0']
    else digits.take whole ++ '.' :: digits.drop whole

/-- Digits whose first has the given exponent, in scientific notation with a signed exponent. -/
def scientific (digits : List Char) (exponent : Int) : List Char :=
  let fraction := match digits.drop 1 with
    | [] => []
    | more => '.' :: more
  let sign := if exponent < 0 then '-' else '+'
  digits.take 1 ++ fraction ++ 'e' :: sign :: Nat.toDigits 10 exponent.natAbs

/-- A value in decimal: the shortest digits that read back, positional from `0.00001` up to
sixteen digits before the point, scientific outside. -/
def render (x : Binary64) : String :=
  let sign := if x.negative then ['-'] else []
  if x.isZero then String.ofList (sign ++ ['0', '.', '0'])
  else
    let (digits, exponent) := significantDigits x.shortest
    String.ofList (sign ++
      if -5 ≤ exponent ∧ exponent < 16 then positional digits exponent
      else scientific digits exponent)

end Binary64
end StoreQL.Json
