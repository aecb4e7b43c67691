/-
# Literals as they are written

A decimal is written as its sign and two rows of digits with a point between them. The second row is
as long as the scale says, so the zeros at its end are not lost, and the two together write the
coefficient. A literal shows by its first character what it is, and only a text can have a newline
in it.

Main statements: `Decimal.render_injective` and `Literal.render_injective`, that a decimal and a
literal can be told from how they are written; and `Literal.count_newline_render`, how many newlines
a literal is written with.
-/
import StoreQL.Proofs.Decimal.Numeral

namespace StoreQL

open Text

/-! ## 1. Decimals -/

namespace Decimal

/-- The decimal is written with these rows of digits, the second one behind the point. -/
structure WrittenWith (d : Decimal) (whole places : List Char) : Prop where
  whole_digits : ∀ c ∈ whole, isDigit c = true
  places_digits : ∀ c ∈ places, isDigit c = true
  whole_ne_nil : whole ≠ []
  scale_eq : d.scale = places.length
  coefficient_eq : d.coefficient = appendDigits 0 (whole ++ places)
  render_eq : d.render.toList = (if d.negative then ['-'] else []) ++ pointed whole places

/-- Of the digits of the coefficient, padded with zeros, the last are the places. -/
theorem exists_writtenWith (d : Decimal) : ∃ whole places, d.WrittenWith whole places := by
  obtain ⟨negative, coefficient, scale⟩ := d
  obtain ⟨whole, places, hrow, hne, rfl⟩ :=
    exists_leftpad_eq_append scale (Nat.toDigits 10 coefficient)
  have hdigits : ∀ c ∈ whole ++ places, isDigit c = true := by
    intro c hc
    rw [← hrow] at hc
    exact isDigit_of_mem_leftpad hc
  rw [List.forall_mem_append] at hdigits
  refine ⟨whole, places, hdigits.1, hdigits.2, hne, rfl, ?_, ?_⟩
  · rw [← hrow, appendDigits_leftpad, appendDigits_toDigits]
  · rw [render_of_leftpad hrow, String.toList_ofList]

variable {d e : Decimal} {whole whole' places places' : List Char}

theorem WrittenWith.next_digit (h : d.WrittenWith whole places) :
    Next (fun c => isDigit c = true) (pointed whole places) := by
  obtain ⟨c, cs, rfl⟩ := List.exists_cons_of_ne_nil h.whole_ne_nil
  exact h.whole_digits c List.mem_cons_self

/-- A decimal begins with its sign or with a digit. -/
theorem next_render (d : Decimal) :
    Next (fun c => c = '-' ∨ isDigit c = true) d.render.toList := by
  obtain ⟨whole, places, h⟩ := d.exists_writtenWith
  rw [h.render_eq]
  split
  · exact .inl rfl
  · exact h.next_digit.mono fun c hc => .inr hc

/-- A decimal has no characters but a sign, a point and digits. -/
theorem mem_render {c : Char} (hc : c ∈ d.render.toList) :
    c = '-' ∨ c = '.' ∨ isDigit c = true := by
  obtain ⟨whole, places, h⟩ := d.exists_writtenWith
  rw [h.render_eq] at hc
  rcases List.mem_append.mp hc with hc | hc
  · split at hc
    · exact .inl (List.mem_singleton.mp hc)
    · cases hc
  · rcases mem_pointed hc with hc | hc | hc
    · exact .inr (.inr (h.whole_digits c hc))
    · exact .inr (.inl hc)
    · exact .inr (.inr (h.places_digits c hc))

/-- What begins with a digit does not begin with a sign. -/
theorem sign_unique {negative negative' : Bool} {cs cs' : List Char}
    (hcs : Next (fun c => isDigit c = true) cs) (hcs' : Next (fun c => isDigit c = true) cs')
    (h : (if negative then ['-'] else []) ++ cs = (if negative' then ['-'] else []) ++ cs') :
    negative = negative' ∧ cs = cs' := by
  have hsign (rest : List Char) : ¬ Next (fun c => isDigit c = true) ('-' :: rest) :=
    Bool.false_ne_true
  cases negative <;> cases negative'
  · exact ⟨rfl, h⟩
  · exact absurd ((show cs = '-' :: cs' from h) ▸ hcs) (hsign cs')
  · exact absurd ((show '-' :: cs = cs' from h) ▸ hcs') (hsign cs)
  · exact ⟨rfl, (List.cons.inj h).2⟩

/-- **A decimal can be told from how it is written**, with its sign and its scale. -/
theorem render_injective (h : d.render = e.render) : d = e := by
  obtain ⟨whole, places, hd⟩ := d.exists_writtenWith
  obtain ⟨whole', places', he⟩ := e.exists_writtenWith
  have hsigned : (if d.negative then ['-'] else []) ++ pointed whole places =
      (if e.negative then ['-'] else []) ++ pointed whole' places' := by
    rw [← hd.render_eq, ← he.render_eq, h]
  obtain ⟨hnegative, hpointed⟩ := sign_unique hd.next_digit he.next_digit hsigned
  obtain ⟨rfl, rfl⟩ := pointed_injective hd.whole_digits he.whole_digits hpointed
  have hcoefficient := hd.coefficient_eq.trans he.coefficient_eq.symm
  have hscale := hd.scale_eq.trans he.scale_eq.symm
  cases d
  cases e
  rw [mk.injEq]
  exact ⟨hnegative, hcoefficient, hscale⟩

end Decimal

/-! ## 2. Literals -/

namespace Literal

/-- The first characters of literals, those of numbers as one. -/
def opening (c : Char) : Char := if c = '-' ∨ isDigit c = true then '0' else c

/-- How a literal opens. -/
def opensWith : Literal → Char
  | .null => 'N'
  | .boolean true => 'T'
  | .boolean false => 'F'
  | .number _ => '0'
  | .string _ => '"'

theorem toList_render_string (s : String) :
    (string s).render.toList = '"' :: (s.toList ++ ['"']) := by
  simp [render, toString]

/-- **A literal shows by its first character what it is.** -/
theorem head_opening (v : Literal) : v.render.toList.head?.map opening = some v.opensWith := by
  match v with
  | .null | .boolean true | .boolean false => rfl
  | .string s =>
    rw [toList_render_string]
    rfl
  | .number d =>
    have hnext := d.next_render
    rw [render]
    cases hd : d.render.toList with
    | nil =>
      rw [hd] at hnext
      cases hnext
    | cons c cs =>
      rw [hd, next_cons] at hnext
      rw [List.head?_cons, Option.map_some, opening, if_pos hnext, opensWith]

/-- **A literal can be told from how it is written.** -/
theorem render_injective {v v' : Literal} (h : v.render = v'.render) : v = v' := by
  have hopens : v.opensWith = v'.opensWith := by
    rw [← Option.some.injEq, ← head_opening, ← head_opening, h]
  have hform : v = v' ∨ (∃ d d', v = .number d ∧ v' = .number d') ∨
      ∃ s s', v = .string s ∧ v' = .string s' := by
    rcases v with _ | (_ | _) | d | s <;> rcases v' with _ | (_ | _) | d' | s' <;>
      simp_all [opensWith]
  rcases hform with rfl | ⟨d, d', rfl, rfl⟩ | ⟨s, s', rfl, rfl⟩
  · rfl
  · exact congrArg number (Decimal.render_injective h)
  · have hchars := congrArg String.toList h
    rw [toList_render_string, toList_render_string, List.cons.injEq] at hchars
    rw [String.toList_inj.mp (List.append_cancel_right hchars.2)]

/-- The newlines of a literal, which only a text can have. -/
def newlines : Literal → Nat
  | .string s => s.toList.count '\n'
  | _ => 0

theorem count_newline_render (v : Literal) : v.render.toList.count '\n' = v.newlines := by
  match v with
  | .null | .boolean true | .boolean false => rfl
  | .string s =>
    rw [toList_render_string, List.count_cons, List.count_append]
    rfl
  | .number d =>
    refine List.count_eq_zero.mpr fun hmem => ?_
    rcases Decimal.mem_render hmem with h | h | h <;> cases h

/-- If a numeral has no newline, neither its number nor its text has one. -/
theorem newlines_ofNumeral (text : String) (h : '\n' ∉ text.toList) :
    (ofNumeral text).newlines = 0 := by
  rw [ofNumeral, ofNumeral?]
  cases Decimal.ofText? (withoutPoint text) with
  | none => exact List.count_eq_zero.mpr h
  | some d => rfl

end Literal
end StoreQL
