/-
# The numbers of a query

What becomes of a numeral from the text of a query to its tree. The tokens of numbers are numerals,
and the tree keeps of each that the query names the literal of its text. So a numeral that fits is
kept exactly, with its places, one that is too large is kept as its text, and one that is neither is
rounded.

Main statements: `numeral_exact`, the numerals that fit and those that are too large before the
point; and `parseQuery_numbers`, the numbers of any accepted query.
-/
import StoreQL.Proofs.Decimal.Rounding
import StoreQL.Proofs.Execute.Meaning
import StoreQL.Proofs.Query.Numbers
import StoreQL.Proofs.Token.Numerals

namespace StoreQL

open Query (NamesNumber numberAt?)

/-! ## 1. From the text to the tree -/

/-- The tree of an accepted query is that of the statement phrase it begins with. At each place
where the phrase names a number it keeps the literal of the number's text, and no other number but
the one worker that is meant where none is said. -/
theorem parseQuery_numberAt {query : String} {tree : Query.SyntaxTree}
    (h : parseQuery query = .ok tree) :
    ∃ o, tree.Represents (.node ⟨.query, "ROOT", []⟩ [o]) ∧
      (∀ place n, NamesNumber place n (tokenize query) →
        numberAt? place o = some (.ofNumeral n.text)) ∧
      ∀ place d, numberAt? place o = some (.number d) →
        (∃ n, NamesNumber place n (tokenize query)) ∨ (place = .workers ∧ d = .ofNat 1) := by
  obtain ⟨o, rest, hphrase, htree⟩ := parseQuery_phrase h
  exact ⟨o, htree, fun place n hn => hn.kept hphrase, fun place d hd => hphrase.named hd⟩

/-! ## 2. Numerals that fit and numerals that are too large -/

/-- **Numerals are exact.** The texts of number tokens are the numerals. A numeral that fits is the
number that it writes, with its places kept: it is written again as it was but for zeros in front
and a bare point, and it is a count if its coefficient is a multiple of the power of ten under it. A
numeral that is too large before the point is no number, and wherever an accepted query names it the
tree keeps its text. -/
theorem numeral_exact :
    (∀ text, (∃ query, ∃ t ∈ tokenize query, t.kind = .number ∧ t.text = text) ↔
      ∃ l : Numeral, l.text = text) ∧
    (∀ l : Numeral, l.places.length ≤ 28 → l.coefficient < 2 ^ 96 →
      ∃ d, Literal.ofNumeral? l.text = some (.number d) ∧
        d.value = l.coefficient / 10 ^ l.places.length ∧
        (Literal.number d).render = l.plain ∧
        ∀ n, (Literal.number d).toCount? = some n ↔
          l.coefficient = n * 10 ^ l.places.length ∧ n < 2 ^ 64) ∧
    ∀ l : Numeral, 2 ^ 96 ≤ Text.appendDigits 0 l.whole →
      Literal.ofNumeral? l.text = none ∧
      ∀ query tree, parseQuery query = .ok tree →
        ∃ o, tree.Represents (.node ⟨.query, "ROOT", []⟩ [o]) ∧
          ∀ place n, NamesNumber place n (tokenize query) → n.text = l.text →
            numberAt? place o = some (.string l.text) := by
  refine ⟨fun text => ⟨?_, ?_⟩, fun l hplaces hcoefficient => ?_, fun l hlarge => ?_⟩
  · rintro ⟨query, t, ht, hkind, rfl⟩
    exact numeral_of_number ht hkind
  · rintro ⟨l, rfl⟩
    refine ⟨l.text, ⟨.number, l.text, .start⟩, ?_, rfl, rfl⟩
    rw [tokenize_numeral]
    exact List.mem_cons_self
  · have hread := Numeral.ofText?_of_fits ⟨hplaces, hcoefficient⟩
    refine ⟨⟨false, l.coefficient, l.places.length⟩, ?_, rfl, l.render_of_fits, fun n => ?_⟩
    · rw [Literal.ofNumeral?, l.withoutPoint_text, hread]
      rfl
    · exact Decimal.toCount?_eq_some_iff rfl
  · have hnone : Literal.ofNumeral? l.text = none := by
      rw [Literal.ofNumeral?, l.withoutPoint_text, Numeral.ofText?_of_large hlarge]
      rfl
    refine ⟨hnone, fun query tree h => ?_⟩
    obtain ⟨o, htree, hkept, -⟩ := parseQuery_numberAt h
    refine ⟨o, htree, fun place n hn htext => ?_⟩
    rw [hkept place n hn, htext, Literal.ofNumeral, hnone]
    rfl

/-- The greatest count, with a zero in front and places that say nothing, and the least numeral that
is too large. -/
theorem numeral_exact_greatest :
    (∃ d, Literal.ofNumeral? "018446744073709551615.00" = some (.number d) ∧
      d.value = 18446744073709551615 ∧ (Literal.number d).render = "18446744073709551615.00" ∧
      (Literal.number d).toCount? = some 18446744073709551615) ∧
    Literal.ofNumeral? "79228162514264337593543950336." = none := by
  let count : Numeral := ⟨"018446744073709551615".toList, some ['0', '0'], by decide +kernel,
    List.all_eq_true.mp (by decide +kernel), by rintro _ ⟨⟩; exact List.all_eq_true.mp rfl⟩
  let large : Numeral := ⟨"79228162514264337593543950336".toList, some [], by decide +kernel,
    List.all_eq_true.mp (by decide +kernel), by rintro _ ⟨⟩; exact List.all_eq_true.mp rfl⟩
  have hcoefficient : count.coefficient = 1844674407370955161500 := by decide +kernel
  obtain ⟨-, hfits, hlarge⟩ := numeral_exact
  obtain ⟨d, hread, hvalue, hrender, hcount⟩ :=
    hfits count (by decide) (by rw [hcoefficient]; decide)
  have htext : count.text = "018446744073709551615.00" := by decide +kernel
  have htext' : large.text = "79228162514264337593543950336." := by decide +kernel
  have hplain : count.plain = "18446744073709551615.00" := by decide +kernel
  refine ⟨⟨d, htext ▸ hread, ?_, hrender.trans hplain, ?_⟩,
    htext' ▸ (hlarge large (by decide +kernel)).1⟩
  · rw [hvalue, hcoefficient]
    norm_num [count, Numeral.places]
  · rw [hcount, hcoefficient]
    exact ⟨by decide, by decide⟩

/-! ## 3. Any number -/

/-- **What becomes of the numbers of a query.** What an accepted query names as a number is kept, as
its number where a decimal is that number, as its text where it is too large, and rounded otherwise;
so it is altered exactly in the last case. No other number is kept but the one worker that is meant
where none is said. -/
theorem parseQuery_numbers (query : String) (tree : Query.SyntaxTree)
    (h : parseQuery query = .ok tree) :
    ∃ o, tree.Represents (.node ⟨.query, "ROOT", []⟩ [o]) ∧
      (∀ place n, NamesNumber place n (tokenize query) →
        ∃ (l : Numeral) (v : Literal), l.text = n.text ∧ numberAt? place o = some v ∧ l.Becomes v ∧
          (((∃ d, v = .number d ∧ d.value = l.value) ∨ (v = .string l.text ∧ ¬ l.Representable)) ↔
            l.Representable ∨ 2 ^ 96 - 1 / 2 ≤ l.value)) ∧
      ∀ place d, numberAt? place o = some (.number d) →
        (∃ n, NamesNumber place n (tokenize query)) ∨ (place = .workers ∧ d = .ofNat 1) := by
  obtain ⟨o, htree, hkept, hnamed⟩ := parseQuery_numberAt h
  refine ⟨o, htree, fun place n hn => ?_, hnamed⟩
  obtain ⟨l, hl⟩ := numeral_of_number hn.mem hn.kind
  have hbecomes := l.literal_becomes
  exact ⟨l, _, hl, hl ▸ hkept place n hn, hbecomes, hbecomes.unaltered_iff⟩

/-- Of 29 places the last rounds those before it. -/
theorem parseQuery_numbers_assigned :
    ∃ tree, parseQuery "UPDATE p SET a = 0.00000000000000000000000000005" = .ok tree ∧
      ∃ o, tree.Represents (.node ⟨.query, "ROOT", []⟩ [o]) ∧
        ∃ (l : Numeral) (v : Literal), l.text = "0.00000000000000000000000000005" ∧
          numberAt? (.assigned 0) o = some v ∧ l.Becomes v := by
  have hstatement : parseStatement "UPDATE p SET a = 0.00000000000000000000000000005" =
      .ok (.update "p" [⟨⟨"a", none⟩, .number ⟨false, 1, 28⟩⟩] false none) := by decide +kernel
  have htokens : tokenize "UPDATE p SET a = 0.00000000000000000000000000005" =
      [⟨.keyword, "UPDATE", ⟨1, 1⟩⟩, ⟨.identifier, "p", ⟨1, 8⟩⟩, ⟨.keyword, "SET", ⟨1, 10⟩⟩,
        ⟨.identifier, "a", ⟨1, 14⟩⟩, ⟨.operator, "=", ⟨1, 16⟩⟩,
        ⟨.number, "0.00000000000000000000000000005", ⟨1, 18⟩⟩, ⟨.endOfInput, "", ⟨1, 49⟩⟩] := by
    decide +kernel
  have hparse := parseQuery_of_statement hstatement
  obtain ⟨o, htree, hnumbers, -⟩ := parseQuery_numbers _ _ hparse
  have hnamed : NamesNumber (.assigned 0) ⟨.number, "0.00000000000000000000000000005", ⟨1, 18⟩⟩
      (tokenize "UPDATE p SET a = 0.00000000000000000000000000005") := by
    rw [htokens]
    exact .assigned rfl rfl rfl (.first (.plain rfl (by decide)) rfl rfl rfl)
  obtain ⟨l, v, hl, hv, hbecomes, -⟩ := hnumbers _ _ hnamed
  exact ⟨_, hparse, o, htree, l, v, hl, hv, hbecomes⟩

/-- A numeral with a 1 behind 28 places of zeros is not too large, and yet it is kept as zero. -/
theorem parseQuery_numbers_rounded :
    ¬ ∀ query tree o place n (l : Numeral), parseQuery query = .ok tree →
      tree.Represents (.node ⟨.query, "ROOT", []⟩ [o]) → NamesNumber place n (tokenize query) →
      l.text = n.text →
      (∃ d, numberAt? place o = some (.number d) ∧ d.value = l.value) ∨
        (numberAt? place o = some (.string l.text) ∧ ¬ l.Representable) := by
  intro hclaim
  let l : Numeral := ⟨['0'], some (List.replicate 28 '0' ++ ['1']), nofun, List.all_eq_true.mp rfl,
    by rintro _ ⟨⟩; exact List.all_eq_true.mp rfl⟩
  let s : Query.Statement := .select .whole "products" false none
    (some "0.00000000000000000000000000001")
  have hstatement : parseStatement
      "SELECT * FROM products LIMIT 0.00000000000000000000000000001" = .ok s := by decide +kernel
  have htokens : tokenize "SELECT * FROM products LIMIT 0.00000000000000000000000000001" =
      [⟨.keyword, "SELECT", ⟨1, 1⟩⟩, ⟨.asterisk, "*", ⟨1, 8⟩⟩, ⟨.keyword, "FROM", ⟨1, 10⟩⟩,
        ⟨.identifier, "products", ⟨1, 15⟩⟩, ⟨.keyword, "LIMIT", ⟨1, 24⟩⟩,
        ⟨.number, "0.00000000000000000000000000001", ⟨1, 30⟩⟩, ⟨.endOfInput, "", ⟨1, 61⟩⟩] := by
    decide +kernel
  have hnamed : NamesNumber .limit ⟨.number, "0.00000000000000000000000000001", ⟨1, 30⟩⟩
      (tokenize "SELECT * FROM products LIMIT 0.00000000000000000000000000001") := by
    rw [htokens]
    exact .limit rfl (.whole rfl) rfl (.inl rfl) (.absent (by decide)) (.absent (by decide)) rfl rfl
  have hkept : numberAt? .limit s.outline = some (.number ⟨false, 0, 28⟩) := by decide +kernel
  have hcoefficient : l.coefficient = 1 := by decide +kernel
  rcases hclaim _ _ _ _ _ l (parseQuery_of_statement hstatement) (Tree.represents_iff.mpr rfl)
    hnamed (by decide +kernel) with ⟨d, hd, hvalue⟩ | ⟨htext, -⟩
  · cases hkept.symm.trans hd
    have hpos : 0 < l.value := by
      rw [Numeral.value, hcoefficient]
      positivity
    rw [← hvalue, Decimal.value_unsigned, Nat.cast_zero, zero_div] at hpos
    exact absurd hpos (lt_irrefl 0)
  · cases hkept.symm.trans htext

end StoreQL
