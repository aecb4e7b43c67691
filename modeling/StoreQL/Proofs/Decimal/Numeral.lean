/-
# Numerals

A numeral is a row of digits, and perhaps a point with a second row, which may be empty, behind it.
The digits of both rows are its coefficient, and those behind the point are its places: a numeral
writes its coefficient over ten to the number of its places.

A numeral that keeps to the bounds of decimals is read as it is, and written again without the zeros
in front of it and without a point that nothing follows. If what stands before the point is too
large, a numeral is not read at all.

Main statements: `ofText?_of_fits`, `ofText?_of_large`, `render_of_fits` and `toCount?_eq_some_iff`,
the four facts about decimals that literals rely on.
-/
import Mathlib.Algebra.Order.Field.Rat
import Mathlib.Data.List.TakeWhile
import Mathlib.Tactic.FieldSimp
import Mathlib.Tactic.Linarith
import Mathlib.Tactic.Positivity
import StoreQL.Literal
import StoreQL.Proofs.Text.Digits

namespace StoreQL

open Text

/-! ## 1. Decimals as numbers -/

namespace Decimal

/-- The number that a decimal is. -/
def value (d : Decimal) : ℚ := d.numerator / 10 ^ d.scale

theorem coefficientBound_eq : coefficientBound = 2 ^ 96 := rfl

theorem tenTo_cast (n : Nat) : ((tenTo n : Nat) : ℚ) = 10 ^ n := by
  rw [tenTo, Nat.pow_eq, Nat.cast_pow, Nat.cast_ofNat]

/-- Decimals that are equal as numbers are the same number. -/
theorem equal_iff {d e : Decimal} : d.equal e = true ↔ d.value = e.value := by
  have hd : (10 : ℚ) ^ d.scale ≠ 0 := by positivity
  have he : (10 : ℚ) ^ e.scale ≠ 0 := by positivity
  rw [value, value, div_eq_div_iff hd he, equal, beq_iff_eq, ← tenTo_cast, ← tenTo_cast]
  norm_cast

theorem value_unsigned (m s : Nat) : value ⟨false, m, s⟩ = m / 10 ^ s := rfl

theorem abs_value (d : Decimal) : |d.value| = d.coefficient / 10 ^ d.scale := by
  have hnumerator : |(d.numerator : ℚ)| = d.coefficient := by
    rw [numerator]
    split
    · rw [Int.cast_neg, abs_neg, Int.cast_natCast, Nat.abs_cast]
    · rw [Int.cast_natCast, Nat.abs_cast]
  rw [value, abs_div, hnumerator, abs_of_pos (by positivity : (0 : ℚ) < 10 ^ d.scale)]

/-- A coefficient whose row, padded to one digit more than the scale, is parted at the point. -/
theorem render_of_leftpad {negative : Bool} {coefficient : Nat} {whole places : List Char}
    (h : List.leftpad (places.length + 1) '0' (Nat.toDigits 10 coefficient) = whole ++ places) :
    render ⟨negative, coefficient, places.length⟩ =
      String.ofList ((if negative then ['-'] else []) ++ pointed whole places) := by
  rw [List.leftpad] at h
  simp only [render, pointed, h, List.length_append, Nat.add_sub_cancel, List.take_left,
    List.drop_left, List.length_eq_zero_iff]
  by_cases hplaces : places = []
  · simp [hplaces]
  · simp [hplaces]

/-! ## 2. Reading rows of digits -/

section Read

variable {c : Char} {ds rest : List Char} {m s : Nat}

/-- Digits before the point are gathered as long as they fit. -/
theorem readWhole_of_lt {started : Bool} (hds : ∀ c ∈ ds, isDigit c = true)
    (hfit : appendDigits m ds < coefficientBound) :
    readWhole m started (ds ++ rest) =
      readWhole (appendDigits m ds) (started || !ds.isEmpty) rest := by
  induction ds generalizing m started with
  | nil => simp
  | cons c ds ih =>
    rw [List.forall_mem_cons] at hds
    have hnext : m * 10 + digitValue c < coefficientBound :=
      Nat.lt_of_le_of_lt (le_appendDigits _ ds) hfit
    rw [List.cons_append, readWhole, if_pos hds.1, if_pos hnext, ih hds.2 hfit]
    simp [appendDigits_cons]

/-- Before the point a digit that does not fit is a failure. -/
theorem readWhole_of_le {started : Bool} (hds : ∀ c ∈ ds, isDigit c = true)
    (hm : m < coefficientBound) (hlarge : coefficientBound ≤ appendDigits m ds) :
    readWhole m started (ds ++ rest) = none := by
  induction ds generalizing m started with
  | nil => exact absurd hlarge (Nat.not_le_of_lt hm)
  | cons c ds ih =>
    rw [List.forall_mem_cons] at hds
    rw [List.cons_append, readWhole, if_pos hds.1]
    by_cases hnext : m * 10 + digitValue c < coefficientBound
    · rw [if_pos hnext]
      exact ih hds.2 hnext hlarge
    · exact if_neg hnext

/-- Digits behind the point are gathered as long as they fit. -/
theorem readFraction_of_lt (hds : ∀ c ∈ ds, isDigit c = true)
    (hplaces : s + ds.length ≤ maxScale) (hfit : appendDigits m ds < coefficientBound) :
    readFraction m s true (ds ++ rest) =
      readFraction (appendDigits m ds) (s + ds.length) true rest := by
  induction ds generalizing m s with
  | nil => rfl
  | cons c ds ih =>
    rw [List.forall_mem_cons] at hds
    rw [List.length_cons] at hplaces
    have hnext : s < maxScale ∧ m * 10 + digitValue c < coefficientBound :=
      ⟨by omega, Nat.lt_of_le_of_lt (le_appendDigits _ ds) hfit⟩
    rw [List.cons_append, readFraction, if_pos hds.1, if_pos hnext, ih hds.2 (by omega) hfit,
      appendDigits_cons, List.length_cons, Nat.add_assoc, Nat.add_comm 1]

/-- Behind the point a digit that does not fit rounds those before it. -/
theorem readFraction_of_le (hc : isDigit c = true) (hds : ∀ d ∈ ds, isDigit d = true)
    (hover : maxScale ≤ s ∨ coefficientBound ≤ m * 10 + digitValue c) :
    readFraction m s true (c :: ds) = roundBy (digitValue c) m s := by
  have hnext : ¬ (s < maxScale ∧ m * 10 + digitValue c < coefficientBound) := by omega
  have hrest : onlyDigits ds = true := List.all_eq_true.mpr fun d hd => by simp [hds d hd]
  rw [readFraction, if_pos hc, if_neg hnext, if_pos hrest]

/-- What begins with a digit has no sign. -/
theorem readNumeral_of_digit (hc : isDigit c = true) :
    readNumeral (c :: rest) = (readWhole 0 false (c :: rest)).map fun (m, s) => ⟨false, m, s⟩ := by
  have hminus : c ≠ '-' := ne_of_isDigit hc rfl
  have hplus : c ≠ '+' := ne_of_isDigit hc rfl
  unfold readNumeral
  split
  · rename_i h
    cases h
    exact absurd rfl hminus
  · rename_i h
    cases h
    exact absurd rfl hplus
  · rfl

/-- Where no mark stands there is no exponent. -/
theorem readScientific_eq_none {cs : List Char} (h : ∀ c ∈ cs, isExponentMark c = false) :
    readScientific cs = none := by
  have hnone : cs.dropWhile (fun c => !isExponentMark c) = [] := by
    rw [List.dropWhile_eq_nil_iff]
    exact fun c hc => by simp [h c hc]
  rw [readScientific, hnone]

end Read

end Decimal

/-! ## 3. Numerals -/

/-- A row of digits, and perhaps a point with a second row, which may be empty, behind it. -/
structure Numeral where
  whole : List Char
  fraction : Option (List Char)
  whole_ne_nil : whole ≠ []
  whole_digits : ∀ c ∈ whole, isDigit c = true
  fraction_digits : ∀ ds ∈ fraction, ∀ c ∈ ds, isDigit c = true
deriving DecidableEq

namespace Numeral

/-- The digits behind the point. -/
def places (l : Numeral) : List Char := l.fraction.getD []

/-- The point, if there is one, and the digits behind it. -/
def ending (l : Numeral) : List Char :=
  match l.fraction with
  | none => []
  | some ds => '.' :: ds

/-- The text of a numeral. -/
def text (l : Numeral) : String := String.ofList (l.whole ++ l.ending)

/-- The number that all digits write, the point left out of account. -/
def coefficient (l : Numeral) : Nat := appendDigits 0 (l.whole ++ l.places)

/-- The number that a numeral writes. -/
def value (l : Numeral) : ℚ := l.coefficient / 10 ^ l.places.length

/-- The numeral with neither a zero in front that says nothing nor a point that nothing follows. -/
def plain (l : Numeral) : String := String.ofList (pointed (dropLeadingZeros l.whole) l.places)

/-- The numeral keeps to the bounds of decimals. -/
def Fits (l : Numeral) : Prop := l.places.length ≤ 28 ∧ l.coefficient < 2 ^ 96

instance (l : Numeral) : Decidable l.Fits := inferInstanceAs (Decidable (_ ∧ _))

variable {l : Numeral}

/-- A numeral begins with a digit. -/
theorem exists_first (l : Numeral) : ∃ c cs, l.whole = c :: cs ∧ isDigit c = true := by
  obtain ⟨c, cs, hwhole⟩ := List.exists_cons_of_ne_nil l.whole_ne_nil
  exact ⟨c, cs, hwhole, l.whole_digits c (by simp [hwhole])⟩

theorem value_nonneg (l : Numeral) : 0 ≤ l.value := by
  rw [value]
  positivity

theorem whole_le_value (l : Numeral) : (appendDigits 0 l.whole : ℚ) ≤ l.value := by
  rw [value, le_div_iff₀ (by positivity), coefficient, appendDigits_append,
    appendDigits_eq (appendDigits 0 l.whole), Nat.cast_add, Nat.cast_mul, Decimal.tenTo_cast]
  exact le_add_of_nonneg_right (Nat.cast_nonneg _)

theorem places_digits (l : Numeral) : ∀ c ∈ l.places, isDigit c = true := by
  obtain ⟨whole, fraction, _, _, hfraction⟩ := l
  cases fraction with
  | none => exact nofun
  | some ds => exact hfraction ds rfl

/-- The numeral without a point that nothing follows. -/
def trimmed (l : Numeral) : String := String.ofList (pointed l.whole l.places)

theorem getLast?_ne_point {ds : List Char} (hds : ∀ c ∈ ds, isDigit c = true) :
    ds.getLast? ≠ some '.' := by
  intro h
  have hdigit := hds '.' (List.mem_of_getLast? h)
  cases hdigit

/-- A bare point is left out before a numeral is read. -/
theorem withoutPoint_text (l : Numeral) : Literal.withoutPoint l.text = l.trimmed := by
  obtain ⟨whole, fraction, hne, hwhole, hfraction⟩ := l
  simp only [Literal.withoutPoint, trimmed, text, String.toList_ofList, ending, pointed, places]
  cases fraction with
  | none =>
    rw [List.append_nil, if_neg (getLast?_ne_point hwhole)]
    simp
  | some ds =>
    cases ds with
    | nil => simp
    | cons d ds =>
      have hlast : (whole ++ '.' :: d :: ds).getLast? ≠ some '.' := by
        rw [List.getLast?_append_cons, List.getLast?_cons_cons]
        exact getLast?_ne_point (hfraction (d :: ds) rfl)
      rw [if_neg hlast]
      simp

/-- Neither a digit nor the point is the mark of an exponent. -/
theorem pointed_noMark (l : Numeral) :
    ∀ c ∈ pointed l.whole l.places, Decimal.isExponentMark c = false := by
  have hdigit {c : Char} (hc : isDigit c = true) : Decimal.isExponentMark c = false := by
    have he : c ≠ 'e' := ne_of_isDigit hc rfl
    have hE : c ≠ 'E' := ne_of_isDigit hc rfl
    simp [Decimal.isExponentMark, he, hE]
  intro c hc
  rcases mem_pointed hc with hc | rfl | hc
  · exact hdigit (l.whole_digits c hc)
  · rfl
  · exact hdigit (l.places_digits c hc)

/-- A numeral is read as the coefficient and the scale of its digits. -/
theorem ofText?_eq (l : Numeral) :
    Decimal.ofText? l.trimmed =
      (Decimal.readWhole 0 false (pointed l.whole l.places)).map fun (m, s) => ⟨false, m, s⟩ := by
  obtain ⟨c, cs, hwhole, hc⟩ := l.exists_first
  have hnone := Decimal.readScientific_eq_none l.pointed_noMark
  rw [Decimal.ofText?, trimmed, String.toList_ofList, hnone, Option.or_none, hwhole, pointed,
    List.cons_append, Decimal.readNumeral_of_digit hc]

/-- If what stands before the point fits, it is gathered, and the places are read after it. -/
theorem ofText?_of_whole_lt (hlt : appendDigits 0 l.whole < 2 ^ 96) :
    Decimal.ofText? l.trimmed =
      (Decimal.readFraction (appendDigits 0 l.whole) 0 true l.places).map
        fun (m, s) => ⟨false, m, s⟩ := by
  have hstarted : (false || !l.whole.isEmpty) = true := by simp [l.whole_ne_nil]
  rw [ofText?_eq, pointed, Decimal.readWhole_of_lt l.whole_digits hlt, hstarted]
  by_cases hplaces : l.places = []
  · rw [if_pos hplaces, hplaces]
    rfl
  · rw [if_neg hplaces]
    rfl

theorem appendDigits_whole_le (l : Numeral) : appendDigits 0 l.whole ≤ l.coefficient := by
  rw [coefficient, appendDigits_append]
  exact le_appendDigits _ _

/-! ## 4. What literals rely on

A literal is read, written and counted as its decimal is. What decimals are documented to do comes
to four facts: a numeral that fits is read exactly; one that is too large before the point is not
read; a decimal is written with its scale and without zeros in front; and it is a count if it is
whole and below two to the 64. -/

/-- **A numeral that fits is read exactly**: the coefficient and the places are kept. -/
theorem ofText?_of_fits (h : l.Fits) :
    Decimal.ofText? l.trimmed = some ⟨false, l.coefficient, l.places.length⟩ := by
  have hread : Decimal.readFraction (appendDigits 0 l.whole) 0 true (l.places ++ []) =
      Decimal.readFraction l.coefficient l.places.length true [] := by
    have hcoefficient := h.2
    rw [coefficient, appendDigits_append] at hcoefficient ⊢
    have hlength : 0 + l.places.length ≤ Decimal.maxScale := by
      rw [Nat.zero_add]
      exact h.1
    rw [Decimal.readFraction_of_lt l.places_digits hlength hcoefficient, Nat.zero_add]
  rw [List.append_nil] at hread
  rw [ofText?_of_whole_lt (Nat.lt_of_le_of_lt l.appendDigits_whole_le h.2), hread]
  rfl

/-- **What is too large before the point is not read.** -/
theorem ofText?_of_large (hlarge : 2 ^ 96 ≤ appendDigits 0 l.whole) :
    Decimal.ofText? l.trimmed = none := by
  rw [ofText?_eq, pointed, Decimal.readWhole_of_le l.whole_digits (by decide) hlarge]
  rfl

/-- **What was read is written with its scale**, without the zeros in front. -/
theorem render_of_fits (l : Numeral) :
    Decimal.render ⟨false, l.coefficient, l.places.length⟩ = l.plain :=
  Decimal.render_of_leftpad (leftpad_toDigits_append l.whole_ne_nil l.whole_digits l.places_digits)

end Numeral

/-- **A decimal is a count if it is whole**: its coefficient is that many times the power of ten
under it. -/
theorem Decimal.toCount?_eq_some_iff {d : Decimal} (hd : d.negative = false) {n : Nat} :
    d.toCount? = some n ↔ d.coefficient = n * 10 ^ d.scale ∧ n < 2 ^ 64 := by
  have hpos := tenTo_pos d.scale
  simp only [toCount?, hd, Bool.false_eq_true, false_or, ne_eq, ite_not,
    Option.ite_none_right_eq_some, Option.some.injEq]
  constructor
  · rintro ⟨hwhole, hlt, rfl⟩
    exact ⟨(Nat.div_mul_cancel (Nat.dvd_of_mod_eq_zero hwhole)).symm, hlt⟩
  · rintro ⟨hcoefficient, hlt⟩
    have hmultiple : d.coefficient = n * tenTo d.scale := hcoefficient
    rw [hmultiple, Nat.mul_mod_left, Nat.mul_div_left n hpos]
    exact ⟨rfl, hlt, rfl⟩

end StoreQL
