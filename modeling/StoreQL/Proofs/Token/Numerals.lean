/-
# Number tokens

The number tokens of a text are numerals: the longest lexeme that begins with a digit is a row of
digits, and perhaps a point with more digits, or none, behind it. Each numeral is a number token
too, since it is a lexeme that takes up all of its own text.

Main statements: `numeral_of_number` and `tokenize_numeral`, the one and the other.
-/
import StoreQL.Proofs.Decimal.Numeral
import StoreQL.Proofs.Token.Layout
import StoreQL.Proofs.Token.Places

namespace StoreQL

open Text

theorem LongestLexeme.numeral {lexeme after : List Char} {text : String}
    (h : LongestLexeme lexeme after .number text) : ∃ l : Numeral, l.text = text := by
  generalize hkind : Token.Kind.number = kind at h
  cases h with
  | @whole c cs _ hc hcs =>
    exact ⟨⟨c :: cs, none, nofun, List.forall_mem_cons.mpr ⟨hc, hcs⟩, nofun⟩, by
      simp [Numeral.text, Numeral.ending]⟩
  | @decimal c cs ds _ hc hcs hds =>
    refine ⟨⟨c :: cs, some ds, nofun, List.forall_mem_cons.mpr ⟨hc, hcs⟩, ?_⟩, rfl⟩
    rintro _ ⟨⟩
    exact hds
  | punctuation hc =>
    subst hkind
    simp [standalone] at hc
  | _ => cases hkind

/-- **A number token is a numeral.** -/
theorem numeral_of_number {query : String} {t : Token} (ht : t ∈ tokenize query)
    (hkind : t.kind = .number) : ∃ l : Numeral, l.text = t.text := by
  have hterminal : t.isTerminal = false := by
    rw [Token.isTerminal, hkind]
    rfl
  obtain ⟨lexeme, after, hlexeme⟩ := lexeme_of_mem ht hterminal
  exact (hkind ▸ hlexeme).numeral

theorem Numeral.longest (l : Numeral) :
    LongestLexeme (l.whole ++ l.ending) [] .number l.text := by
  obtain ⟨whole, fraction, hne, hwhole, hfraction⟩ := l
  obtain ⟨c, cs, rfl⟩ := List.exists_cons_of_ne_nil hne
  rw [List.forall_mem_cons] at hwhole
  cases fraction with
  | none =>
    simp only [text, ending, List.append_nil]
    exact .whole hwhole.1 hwhole.2 (next_nil _) (next_nil _)
  | some ds => exact .decimal hwhole.1 hwhole.2 (hfraction ds rfl) (next_nil _)

theorem Numeral.text_not_blank (l : Numeral) : ∀ c ∈ l.text.toList, isBlank c = false :=
  l.longest.text_not_blank nofun

/-- **A numeral is a number token**, the only one of its text. -/
theorem tokenize_numeral (l : Numeral) :
    tokenize l.text = [⟨.number, l.text, .start⟩,
      ⟨.endOfInput, "", Position.start.after (l.whole ++ l.ending)⟩] := by
  have hblank : ¬ Next (fun c => isBlank c = true) (l.whole ++ l.ending) := by
    obtain ⟨c, cs, hwhole, hc⟩ := l.exists_first
    rw [hwhole, List.cons_append, next_cons]
    intro hc'
    obtain ⟨-, -, hdigit, -⟩ := blank_class hc'
    rw [hdigit] at hc
    cases hc
  have hss : Longest [⟨[], l.whole ++ l.ending, .number, l.text⟩, ⟨[], [], .endOfInput, ""⟩] :=
    .more nofun (by simpa [segmentsText, Segment.chars] using hblank) l.longest
      (.last nofun (next_nil _) .nothing)
  rw [tokenize_of_longest hss (by simp [Numeral.text, segmentsText, Segment.chars])]
  rfl

end StoreQL
