/-
# Rounding

A numeral that does not fit is cut before the first digit that does not fit, and that digit rounds
those before it, half upwards. Where the coefficient is the greatest of all and is raised by that,
it gives up its last place; where it has none to give up, the numeral is too large.

So a numeral becomes its number where a decimal is that number, its text where it is too large, and
otherwise a number that is off by half of its last place at most (`Becomes`).

Main statements: `roundBy_near`, how far off rounding is; `Cut.ofText?`, what a numeral that is cut
is read as; `Cut.part_eq_zero`, that nothing is lost where nothing has to be; and `literal_becomes`,
what becomes of a numeral.
-/
import StoreQL.Proofs.Decimal.Numeral

namespace StoreQL

open Text

/-! ## 1. Rounding by one digit -/

namespace Decimal

/-- What rounding does: the coefficient is kept, or raised by one, or it is the greatest of all and
gives up its last digit. -/
theorem roundBy_cases {digit m s m' s' : Nat} (hm : m < 2 ^ 96)
    (h : roundBy digit m s = some (m', s')) :
    (digit < 5 ∧ m' = m ∧ s' = s) ∨ (5 ≤ digit ∧ m + 1 < 2 ^ 96 ∧ m' = m + 1 ∧ s' = s) ∨
      (5 ≤ digit ∧ m + 1 = 2 ^ 96 ∧ 10 * m' = m + 5 ∧ s = s' + 1) := by
  unfold roundBy at h
  rw [coefficientBound_eq] at h
  split at h
  · rename_i hdigit
    cases h
    exact .inl ⟨hdigit, rfl, rfl⟩
  split at h
  · rename_i hdigit hlt
    cases h
    exact .inr (.inl ⟨Nat.le_of_not_lt hdigit, hlt, rfl, rfl⟩)
  split at h
  · cases h
  · rename_i hdigit hlt hs
    cases h
    exact .inr (.inr ⟨by omega, by omega, by omega, by omega⟩)

example : roundBy 5 (2 ^ 96 - 1) 3 = some (7922816251426433759354395034, 2) := by decide

/-- Rounding fails where the greatest coefficient has no place to give up. -/
theorem roundBy_eq_none_iff {digit m s : Nat} (hm : m < 2 ^ 96) :
    roundBy digit m s = none ↔ 5 ≤ digit ∧ m + 1 = 2 ^ 96 ∧ s = 0 := by
  unfold roundBy
  rw [coefficientBound_eq]
  split
  · simp only [reduceCtorEq, false_iff]
    omega
  split
  · simp only [reduceCtorEq, false_iff]
    omega
  split
  · simp only [true_iff]
    omega
  · simp only [reduceCtorEq, false_iff]
    omega

/-- **Rounding is off by half a place** at most, counted in the places of the result. -/
theorem roundBy_near {digit m s m' s' : Nat} {x : ℚ} (hm : m < 2 ^ 96) (hlow : digit / 10 ≤ x)
    (hhigh : x < (digit + 1) / 10) (hdigit : digit < 10)
    (h : roundBy digit m s = some (m', s')) :
    |(m' : ℚ) / 10 ^ s' - (m + x) / 10 ^ s| ≤ 1 / 2 / 10 ^ s' := by
  have hnonneg : (0 : ℚ) ≤ digit := Nat.cast_nonneg digit
  have hscale : (0 : ℚ) < 10 ^ s' := by positivity
  rcases roundBy_cases hm h with ⟨hlt, rfl, rfl⟩ | ⟨hge, -, rfl, rfl⟩ | ⟨-, -, hm', rfl⟩
  · have hfour : (digit : ℚ) ≤ 4 := by exact_mod_cast Nat.le_of_lt_succ hlt
    rw [← sub_div, abs_div, abs_of_pos hscale]
    gcongr
    rw [abs_le]
    constructor <;> linarith
  · have hfive : (5 : ℚ) ≤ digit := by exact_mod_cast hge
    have hnine : (digit : ℚ) ≤ 9 := by exact_mod_cast Nat.le_of_lt_succ hdigit
    rw [← sub_div, abs_div, abs_of_pos hscale, Nat.cast_add, Nat.cast_one]
    gcongr
    rw [abs_le]
    constructor <;> linarith
  · -- The digit given up makes the places ten times as wide, so the whole error is below a half.
    have hnine : (digit : ℚ) ≤ 9 := by exact_mod_cast Nat.le_of_lt_succ hdigit
    have htenfold : 10 * (m' : ℚ) = m + 5 := by exact_mod_cast hm'
    have hdiff : (m' : ℚ) / 10 ^ s' - (m + x) / 10 ^ (s' + 1) = (5 - x) / 10 / 10 ^ s' := by
      rw [pow_succ]
      field_simp
      linarith
    rw [hdiff, abs_div, abs_of_pos hscale]
    gcongr
    rw [abs_le]
    constructor <;> linarith

end Decimal

/-! ## 2. Numerals that are cut -/

namespace Numeral

/-- The places are cut before the digit `next`: the digits before it fit, and it does not. -/
structure Cut (l : Numeral) (kept : List Char) (next : Char) (dropped : List Char) : Prop where
  places_eq : l.places = kept ++ next :: dropped
  length_le : kept.length ≤ 28
  kept_lt : appendDigits 0 (l.whole ++ kept) < 2 ^ 96
  next_over : 28 ≤ kept.length ∨ 2 ^ 96 ≤ appendDigits 0 (l.whole ++ kept) * 10 + digitValue next

variable {l : Numeral} {kept dropped : List Char} {next : Char}

/-- Digits that do not fit all together have a first one that does not fit. -/
theorem exists_over {m s : Nat} {ds : List Char} (hm : m < 2 ^ 96) (hs : s ≤ 28)
    (h : ¬ (s + ds.length ≤ 28 ∧ appendDigits m ds < 2 ^ 96)) :
    ∃ kept next dropped, ds = kept ++ next :: dropped ∧ s + kept.length ≤ 28 ∧
      appendDigits m kept < 2 ^ 96 ∧
      (28 ≤ s + kept.length ∨ 2 ^ 96 ≤ appendDigits m kept * 10 + digitValue next) := by
  induction ds generalizing m s with
  | nil => exact absurd ⟨hs, hm⟩ h
  | cons c ds ih =>
    by_cases hnext : s < 28 ∧ m * 10 + digitValue c < 2 ^ 96
    · rw [List.length_cons, Nat.add_comm ds.length, ← Nat.add_assoc] at h
      obtain ⟨kept, next, dropped, rfl, hlength, hlt, hover⟩ := ih hnext.2 hnext.1 h
      refine ⟨c :: kept, next, dropped, rfl, ?_, hlt, ?_⟩
      · rw [List.length_cons]
        omega
      · rw [List.length_cons]
        exact hover.imp_left fun h => by omega
    · refine ⟨[], c, ds, rfl, hs, hm, ?_⟩
      rw [List.length_nil, appendDigits_nil]
      omega

/-- A numeral that does not fit is cut, unless what stands before the point is too large. -/
theorem exists_cut (hwhole : appendDigits 0 l.whole < 2 ^ 96) (h : ¬ l.Fits) :
    ∃ kept next dropped, l.Cut kept next dropped := by
  rw [Fits, coefficient, appendDigits_append] at h
  obtain ⟨kept, next, dropped, hplaces, hlength, hlt, hover⟩ :=
    exists_over (s := 0) hwhole (Nat.zero_le _) (by rwa [Nat.zero_add])
  rw [Nat.zero_add] at hlength hover
  rw [← appendDigits_append] at hlt hover
  exact ⟨kept, next, dropped, hplaces, hlength, hlt, hover⟩

theorem Cut.digits (h : l.Cut kept next dropped) : (∀ c ∈ kept, isDigit c = true) ∧
    isDigit next = true ∧ ∀ c ∈ dropped, isDigit c = true := by
  have hplaces := l.places_digits
  rw [h.places_eq, List.forall_mem_append, List.forall_mem_cons] at hplaces
  exact hplaces

theorem Cut.length_places (h : l.Cut kept next dropped) :
    l.places.length = kept.length + (dropped.length + 1) := by
  rw [h.places_eq, List.length_append, List.length_cons]

theorem Cut.coefficient_eq (h : l.Cut kept next dropped) :
    l.coefficient = appendDigits 0 (l.whole ++ kept) * 10 ^ (dropped.length + 1) +
      appendDigits 0 (next :: dropped) := by
  rw [coefficient, h.places_eq, ← List.append_assoc, appendDigits_append, appendDigits_eq]
  rfl

/-- **A numeral that is cut** is what the first digit that does not fit makes of those before it. -/
theorem Cut.ofText? (h : l.Cut kept next dropped) :
    Decimal.ofText? l.trimmed =
      (Decimal.roundBy (digitValue next) (appendDigits 0 (l.whole ++ kept)) kept.length).map
        fun (m, s) => ⟨false, m, s⟩ := by
  obtain ⟨hkept, hnext, hdropped⟩ := h.digits
  have hlt := h.kept_lt
  have hover := h.next_over
  rw [appendDigits_append] at hlt hover
  rw [ofText?_of_whole_lt (Nat.lt_of_le_of_lt (le_appendDigits _ kept) hlt), h.places_eq,
    Decimal.readFraction_of_lt hkept (by rw [Nat.zero_add]; exact h.length_le) hlt, Nat.zero_add,
    Decimal.readFraction_of_le hnext hdropped hover, appendDigits_append]

/-- The digits behind the cut, as a part of the last place before it. -/
def part (next : Char) (dropped : List Char) : ℚ :=
  appendDigits 0 (next :: dropped) / 10 ^ (dropped.length + 1)

theorem part_bounds (next : Char) (hdropped : ∀ c ∈ dropped, isDigit c = true) :
    (digitValue next : ℚ) / 10 ≤ part next dropped ∧
      part next dropped < (digitValue next + 1 : ℚ) / 10 := by
  have hunit : (0 : ℚ) < 10 ^ dropped.length := by positivity
  have hlt : ((appendDigits 0 dropped : Nat) : ℚ) < 10 ^ dropped.length := by
    rw [← Decimal.tenTo_cast]
    exact_mod_cast appendDigits_lt hdropped
  have hpart : part next dropped =
      (digitValue next + appendDigits 0 dropped / 10 ^ dropped.length) / 10 := by
    rw [part, appendDigits_cons, appendDigits_eq, Nat.zero_mul, Nat.zero_add, Nat.cast_add,
      Nat.cast_mul, Decimal.tenTo_cast, pow_succ]
    field_simp
  have hnonneg : (0 : ℚ) ≤ appendDigits 0 dropped / 10 ^ dropped.length := by positivity
  have hone : (appendDigits 0 dropped : ℚ) / 10 ^ dropped.length < 1 := (div_lt_one hunit).mpr hlt
  rw [hpart]
  constructor <;> linarith

/-- What a numeral that is cut writes. -/
theorem Cut.value_eq (h : l.Cut kept next dropped) :
    l.value = (appendDigits 0 (l.whole ++ kept) + part next dropped) / 10 ^ kept.length := by
  rw [value, h.coefficient_eq, h.length_places, part]
  push_cast
  field_simp
  ring

/-! ## 3. What becomes of a numeral -/

/-- Some decimal that keeps to the bounds is the number that the numeral writes. -/
def Representable (l : Numeral) : Prop :=
  ∃ d : Decimal, d.coefficient < 2 ^ 96 ∧ d.scale ≤ 28 ∧ d.value = l.value

/-- A numeral that fits is such a number. -/
theorem Fits.representable (h : l.Fits) : l.Representable :=
  ⟨⟨false, l.coefficient, l.places.length⟩, h.2, h.1, rfl⟩

/-- In whole numbers: the coefficients are the same when each is taken to the other's scale. -/
theorem representable_iff (l : Numeral) :
    l.Representable ↔ ∃ n s, n < 2 ^ 96 ∧ s ≤ 28 ∧
      l.coefficient * 10 ^ s = n * 10 ^ l.places.length := by
  have hscale (s : Nat) : (10 : ℚ) ^ s ≠ 0 := by positivity
  have heq {n s : Nat} : (n : ℚ) / 10 ^ s = l.value ↔
      l.coefficient * 10 ^ s = n * 10 ^ l.places.length := by
    rw [value, div_eq_div_iff (hscale s) (hscale _), eq_comm]
    norm_cast
  constructor
  · rintro ⟨d, hd, hs, hvalue⟩
    have habs := d.abs_value
    rw [hvalue, abs_of_nonneg l.value_nonneg] at habs
    exact ⟨d.coefficient, d.scale, hd, hs, heq.mp habs.symm⟩
  · rintro ⟨n, s, hn, hs, h⟩
    exact ⟨⟨false, n, s⟩, hn, hs, heq.mpr h⟩

/-- With the digit behind the cut a numeral is no more than it is. -/
theorem Cut.next_le (h : l.Cut kept next dropped) :
    (appendDigits 0 (l.whole ++ kept) * 10 + digitValue next) * 10 ^ dropped.length ≤
      l.coefficient := by
  have hnext : digitValue next * 10 ^ dropped.length ≤ appendDigits 0 (next :: dropped) := by
    rw [appendDigits_cons, appendDigits_eq, Nat.zero_mul, Nat.zero_add]
    exact Nat.le_add_right _ _
  rw [h.coefficient_eq, Nat.add_mul, Nat.mul_assoc, ← Nat.pow_succ']
  exact Nat.add_le_add_left hnext _

/-- A decimal with more places than were kept needs the digit that does not fit, so no decimal that
is the number of the numeral has more. -/
theorem Cut.scale_le (h : l.Cut kept next dropped) {n s : Nat} (hn : n < 2 ^ 96) (hs : s ≤ 28)
    (heq : l.coefficient * 10 ^ s = n * 10 ^ l.places.length) : s ≤ kept.length := by
  by_contra hlate
  have hover := h.next_over.resolve_left (by omega)
  have hmore : kept.length + 1 ≤ s := Nat.lt_of_not_le hlate
  have hle : (appendDigits 0 (l.whole ++ kept) * 10 + digitValue next) * 10 ^ l.places.length ≤
      n * 10 ^ l.places.length :=
    calc (appendDigits 0 (l.whole ++ kept) * 10 + digitValue next) * 10 ^ l.places.length
        = (appendDigits 0 (l.whole ++ kept) * 10 + digitValue next) * 10 ^ dropped.length *
            10 ^ (kept.length + 1) := by rw [h.length_places]; ring
      _ ≤ l.coefficient * 10 ^ (kept.length + 1) := Nat.mul_le_mul_right _ h.next_le
      _ ≤ l.coefficient * 10 ^ s := Nat.mul_le_mul_left _ (Nat.pow_le_pow_right (by decide) hmore)
      _ = n * 10 ^ l.places.length := heq
  have hn' := Nat.le_of_mul_le_mul_right hle (Nat.pow_pos (by decide))
  omega

/-- **Nothing is lost where nothing has to be**: if a decimal is the number of a numeral that is
cut, then the digits behind the cut are zeros. -/
theorem Cut.part_eq_zero (h : l.Cut kept next dropped) (hl : l.Representable) :
    appendDigits 0 (next :: dropped) = 0 := by
  obtain ⟨n, s, hn, hs, heq⟩ := l.representable_iff.mp hl
  obtain ⟨-, hnext, hdropped⟩ := h.digits
  have hscale : s ≤ kept.length := h.scale_le hn hs heq
  have hwhole : l.coefficient = n * 10 ^ (kept.length - s) * 10 ^ (dropped.length + 1) := by
    refine Nat.eq_of_mul_eq_mul_right (Nat.pow_pos (by decide : 0 < 10)) (heq.trans ?_)
    rw [h.length_places, Nat.mul_assoc, Nat.mul_assoc, ← Nat.pow_add, ← Nat.pow_add]
    congr 2
    omega
  have hdvd : 10 ^ (dropped.length + 1) ∣ appendDigits 0 (next :: dropped) := by
    rw [← Nat.dvd_add_right (Nat.dvd_mul_left _ (appendDigits 0 (l.whole ++ kept))),
      ← h.coefficient_eq, hwhole]
    exact Nat.dvd_mul_left _ _
  have hlt : appendDigits 0 (next :: dropped) < 10 ^ (dropped.length + 1) :=
    appendDigits_lt (List.forall_mem_cons.mpr ⟨hnext, hdropped⟩)
  exact Nat.eq_zero_of_dvd_of_lt hdvd hlt

/-- What becomes of a numeral: its number if a decimal is that number, its text if it is too large
for a decimal, and otherwise a number that is off by half of its last place at most, with as many
places as there is room for. -/
structure Becomes (l : Numeral) (v : Literal) : Prop where
  exact_of_representable : l.Representable → ∃ d, v = .number d ∧ d.value = l.value
  text_iff : v = .string l.text ↔ 2 ^ 96 - 1 / 2 ≤ l.value
  near : l.value < 2 ^ 96 - 1 / 2 → ∃ d, v = .number d ∧ d.coefficient < 2 ^ 96 ∧ d.scale ≤ 28 ∧
    |d.value - l.value| ≤ 1 / 2 / 10 ^ d.scale ∧
    (l.Representable ∨ d.scale = 28 ∨ 2 ^ 96 ≤ 10 * d.coefficient + 9)

/-- A decimal is at most the greatest coefficient. -/
theorem Representable.value_le (h : l.Representable) : l.value ≤ 2 ^ 96 - 1 := by
  obtain ⟨d, hd, -, hvalue⟩ := h
  have habs := d.abs_value
  rw [hvalue, abs_of_nonneg l.value_nonneg] at habs
  have hcoefficient : (d.coefficient : ℚ) + 1 ≤ 2 ^ 96 := by exact_mod_cast hd
  have hscale : (d.coefficient : ℚ) / 10 ^ d.scale ≤ d.coefficient :=
    div_le_self (Nat.cast_nonneg _) (one_le_pow₀ (by norm_num))
  linarith

/-- **When a numeral is not altered**: a decimal is its number, or it is too large for any. -/
theorem Becomes.unaltered_iff {v : Literal} (h : l.Becomes v) :
    ((∃ d, v = .number d ∧ d.value = l.value) ∨ (v = .string l.text ∧ ¬ l.Representable)) ↔
      l.Representable ∨ 2 ^ 96 - 1 / 2 ≤ l.value := by
  constructor
  · rintro (⟨d, rfl, hvalue⟩ | ⟨htext, -⟩)
    · rcases le_or_gt (2 ^ 96 - 1 / 2) l.value with hlarge | hsmall
      · exact .inr hlarge
      · obtain ⟨e, heq, hcoefficient, hscale, -⟩ := h.near hsmall
        cases heq
        exact .inl ⟨d, hcoefficient, hscale, hvalue⟩
    · exact .inr (h.text_iff.mp htext)
  · rintro (hl | hlarge)
    · exact .inl (h.exact_of_representable hl)
    · refine .inr ⟨h.text_iff.mpr hlarge, fun hl => ?_⟩
      have hle := hl.value_le
      linarith

/-- What is not read is left as a text. -/
theorem becomes_text (hread : Decimal.ofText? l.trimmed = none) (hlarge : 2 ^ 96 - 1 / 2 ≤ l.value) :
    l.Becomes (.ofNumeral l.text) := by
  have hv : Literal.ofNumeral l.text = .string l.text := by
    rw [Literal.ofNumeral, Literal.ofNumeral?, withoutPoint_text, hread]
    rfl
  rw [hv]
  refine ⟨fun h => ?_, iff_of_true rfl hlarge, fun h => absurd hlarge (not_le_of_gt h)⟩
  have hle := h.value_le
  linarith

/-- What is read is a number. -/
theorem becomes_number {d : Decimal} (hread : Decimal.ofText? l.trimmed = some d)
    (hsmall : l.value < 2 ^ 96 - 1 / 2) (hexact : l.Representable → d.value = l.value)
    (hbounds : d.coefficient < 2 ^ 96 ∧ d.scale ≤ 28)
    (hnear : |d.value - l.value| ≤ 1 / 2 / 10 ^ d.scale)
    (hfull : l.Representable ∨ d.scale = 28 ∨ 2 ^ 96 ≤ 10 * d.coefficient + 9) :
    l.Becomes (.ofNumeral l.text) := by
  have hv : Literal.ofNumeral l.text = .number d := by
    rw [Literal.ofNumeral, Literal.ofNumeral?, withoutPoint_text, hread]
    rfl
  rw [hv]
  exact ⟨fun h => ⟨d, rfl, hexact h⟩, iff_of_false nofun (not_le_of_gt hsmall),
    fun _ => ⟨d, rfl, hbounds.1, hbounds.2, hnear, hfull⟩⟩

/-- Rounding fails for the numerals that are too large, and for no other. -/
theorem Cut.large_iff (h : l.Cut kept next dropped) :
    2 ^ 96 - 1 / 2 ≤ l.value ↔
      Decimal.roundBy (digitValue next) (appendDigits 0 (l.whole ++ kept)) kept.length = none := by
  obtain ⟨-, hnext, hdropped⟩ := h.digits
  obtain ⟨hlow, hhigh⟩ := part_bounds next hdropped
  have hlt : (appendDigits 0 (l.whole ++ kept) : ℚ) + 1 ≤ 2 ^ 96 := by exact_mod_cast h.kept_lt
  have hnine : (digitValue next : ℚ) ≤ 9 := by
    exact_mod_cast Nat.le_of_lt_succ (digitValue_lt hnext)
  rw [Decimal.roundBy_eq_none_iff h.kept_lt, h.value_eq]
  constructor
  · intro hlarge
    have hzero : kept.length = 0 := by
      by_contra hne
      have hten : (10 : ℚ) ≤ 10 ^ kept.length := le_self_pow₀ (by norm_num) hne
      have hscale := mul_le_mul_of_nonneg_left hten (by norm_num : (0 : ℚ) ≤ 2 ^ 96 - 1 / 2)
      rw [le_div_iff₀ (by positivity)] at hlarge
      linarith
    rw [hzero, pow_zero, div_one] at hlarge
    refine ⟨?_, ?_, hzero⟩
    · by_contra hfive
      have hfour : (digitValue next : ℚ) ≤ 4 := by exact_mod_cast (by omega : digitValue next ≤ 4)
      linarith
    · by_contra hfull
      have htwo : (appendDigits 0 (l.whole ++ kept) : ℚ) + 2 ≤ 2 ^ 96 := by
        have hkept := h.kept_lt
        exact_mod_cast (by omega : appendDigits 0 (l.whole ++ kept) + 2 ≤ 2 ^ 96)
      linarith
  · rintro ⟨hfive, hfull, hzero⟩
    have hfive' : (5 : ℚ) ≤ digitValue next := by exact_mod_cast hfive
    have hfull' : (appendDigits 0 (l.whole ++ kept) : ℚ) + 1 = 2 ^ 96 := by exact_mod_cast hfull
    rw [hzero, pow_zero, div_one]
    linarith

/-- A numeral that is cut becomes what rounding makes of it. -/
theorem Cut.becomes (h : l.Cut kept next dropped) : l.Becomes (.ofNumeral l.text) := by
  obtain ⟨-, hnext, hdropped⟩ := h.digits
  obtain ⟨hlow, hhigh⟩ := part_bounds next hdropped
  have hread := h.ofText?
  cases hround :
      Decimal.roundBy (digitValue next) (appendDigits 0 (l.whole ++ kept)) kept.length with
  | none =>
    rw [hround] at hread
    exact becomes_text hread (h.large_iff.mpr hround)
  | some r =>
    obtain ⟨m, s⟩ := r
    rw [hround] at hread
    have hcases := Decimal.roundBy_cases h.kept_lt hround
    have hkept := h.kept_lt
    have hover := h.next_over
    have hlength := h.length_le
    have hdigit := digitValue_lt hnext
    refine becomes_number hread ?_ ?_ ?_ ?_ ?_
    · rw [← not_le, h.large_iff, hround]
      exact nofun
    · intro hl
      have hzero := h.part_eq_zero hl
      have hvalue : digitValue next = 0 := by
        have hle := le_appendDigits (0 * 10 + digitValue next) dropped
        rw [appendDigits_cons] at hzero
        omega
      obtain ⟨-, rfl, rfl⟩ := hcases.resolve_right (by omega)
      rw [h.value_eq, part, hzero, Nat.cast_zero, zero_div, add_zero]
      exact Decimal.value_unsigned _ _
    · change m < 2 ^ 96 ∧ s ≤ 28
      omega
    · rw [h.value_eq]
      exact Decimal.roundBy_near h.kept_lt hlow hhigh hdigit hround
    · change _ ∨ s = 28 ∨ 2 ^ 96 ≤ 10 * m + 9
      omega

/-- **What becomes of a numeral**, whatever its length. -/
theorem literal_becomes (l : Numeral) : l.Becomes (.ofNumeral l.text) := by
  rcases Nat.lt_or_ge (appendDigits 0 l.whole) (2 ^ 96) with hwhole | hlarge
  · by_cases hfits : l.Fits
    · have hle : l.value ≤ 2 ^ 96 - 1 := hfits.representable.value_le
      have hscale : (0 : ℚ) ≤ 1 / 2 / 10 ^ l.places.length := by positivity
      refine becomes_number (ofText?_of_fits hfits) (by linarith) (fun _ => rfl)
        ⟨hfits.2, hfits.1⟩ ?_ (.inl hfits.representable)
      change |l.value - l.value| ≤ 1 / 2 / 10 ^ l.places.length
      rwa [sub_self, abs_zero]
    · obtain ⟨_, _, _, hcut⟩ := exists_cut hwhole hfits
      exact hcut.becomes
  · have hlarge' : (2 ^ 96 : ℚ) ≤ appendDigits 0 l.whole := by exact_mod_cast hlarge
    have hle := l.whole_le_value
    exact becomes_text (ofText?_of_large hlarge) (by linarith)

end Numeral
end StoreQL
