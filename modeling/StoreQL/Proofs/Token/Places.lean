/-
# The places of tokens

A token stands at the offset of the text where its lexeme begins: behind the segments that come
before its own, and behind its gap. The end of input stands at the end of the text, and a quotation
that is not closed at its opening mark. The place of the token is the place of that offset
(`placeAt`): the line counts the newlines before it, within quotations too, and the column counts
the characters after the last of them.

Main statements: `segmentTokens_getElem?`, where the token of a segment stands;
`Longest.tokens_ordered`, that the tokens stand one after the other; and `tokenize_places`, both for
the tokens of a text, with what stands in the text at the offset of each.
-/
import StoreQL.Proofs.Text.Position
import StoreQL.Proofs.Token.Segmentation

namespace StoreQL

open Text

/-! ## 1. The place of the token of a segment -/

/-- The token of a segment stands behind the segments before it and behind its gap. -/
theorem segmentTokens_getElem? (p : Position) (before : List Segment) (s : Segment)
    (after : List Segment) :
    (segmentTokens p (before ++ s :: after))[before.length]? =
      some ⟨s.kind, s.text, p.after (segmentsText before ++ s.gap)⟩ := by
  induction before generalizing p with
  | nil => rfl
  | cons b before ih =>
    rw [List.cons_append, segmentTokens, List.length_cons, List.getElem?_cons_succ, ih,
      ← Position.after_append]
    simp [segmentsText, Segment.chars]

theorem segmentTokens_length (p : Position) (ss : List Segment) :
    (segmentTokens p ss).length = ss.length := by
  induction ss generalizing p with
  | nil => rfl
  | cons s ss ih => simp [segmentTokens, ih]

theorem segmentsText_append (ss ss' : List Segment) :
    segmentsText (ss ++ ss') = segmentsText ss ++ segmentsText ss' := by
  simp [segmentsText]

/-! ## 2. The order of the tokens -/

/-- A longest lexeme has a character. -/
theorem LongestLexeme.ne_nil {l after : List Char} {kind : Token.Kind} {text : String}
    (h : LongestLexeme l after kind text) : l ≠ [] := by
  obtain ⟨c, cs, x, -, hread, rfl, -⟩ := h.reads
  have hchars := Lexeme.chars_ne_nil c cs
  rwa [hread] at hchars

/-- The tokens of segments come after the place where the segments begin, or the first of them
stands there. -/
theorem segmentTokens_follow {p q : Position} (hpq : p.Precedes q) (ss : List Segment) :
    ∀ t ∈ segmentTokens q ss, p.Precedes t.position := by
  induction ss generalizing q with
  | nil => exact nofun
  | cons s ss ih =>
    intro t ht
    rcases List.mem_cons.mp ht with rfl | ht
    · exact hpq.after s.gap
    · exact ih (hpq.after s.chars) t ht

/-- **The tokens stand one after the other**: each lexeme but the last has a character, so the next
token is further on. -/
theorem Longest.tokens_ordered {ss : List Segment} (h : Longest ss) (p : Position) :
    (segmentTokens p ss).Pairwise fun t u => t.position.Precedes u.position := by
  induction h generalizing p with
  | last => exact List.pairwise_singleton _ _
  | @more s ss _ _ hlexeme _ ih =>
    have hnext : (p.after s.gap).Precedes (p.after s.chars) := by
      rw [Segment.chars, Position.after_append]
      exact Position.precedes_after _ hlexeme.ne_nil
    exact List.pairwise_cons.mpr ⟨segmentTokens_follow hnext ss, ih (p.after s.chars)⟩

/-! ## 3. What stands at the place of a token -/

/-- Before more segments a segment has a lexeme. -/
theorem Longest.of_cons {s : Segment} {ss : List Segment} (h : Longest (s :: ss)) (hne : ss ≠ []) :
    (∀ c ∈ s.gap, isBlank c = true) ∧
      ¬ Next (fun c => isBlank c = true) (s.lexeme ++ segmentsText ss) ∧
      LongestLexeme s.lexeme (segmentsText ss) s.kind s.text ∧ Longest ss := by
  cases h with
  | last => exact absurd rfl hne
  | more hgap hblank hlexeme hlongest => exact ⟨hgap, hblank, hlexeme, hlongest⟩

/-- What a segment has behind its gap: a lexeme if there are more segments, and the remainder if
there are none. -/
theorem Longest.segment {before after : List Segment} {s : Segment}
    (h : Longest (before ++ s :: after)) :
    after ≠ [] ∧ LongestLexeme s.lexeme (segmentsText after) s.kind s.text ∨
      after = [] ∧ Remainder s.lexeme s.kind s.text := by
  induction before with
  | nil =>
    cases h with
    | last _ _ hrest => exact .inr ⟨rfl, hrest⟩
    | more _ _ hlexeme hlongest =>
      refine .inl ⟨?_, hlexeme⟩
      rintro rfl
      cases hlongest
  | cons b before ih =>
    obtain ⟨-, -, -, hlongest⟩ := h.of_cons (List.append_ne_nil_of_right_ne_nil _ nofun)
    exact ih hlongest

/-- What is left ends the input. -/
theorem Remainder.terminal {l : List Char} {kind : Token.Kind} {text : String}
    (h : Remainder l kind text) : kind.isTerminal = true := by
  cases h <;> rfl

theorem exists_segment_of_mem {p : Position} {ss : List Segment} {t : Token}
    (ht : t ∈ segmentTokens p ss) : ∃ s ∈ ss, t.kind = s.kind ∧ t.text = s.text := by
  induction ss generalizing p with
  | nil => cases ht
  | cons s ss ih =>
    rcases List.mem_cons.mp ht with rfl | ht
    · exact ⟨s, List.mem_cons_self, rfl, rfl⟩
    · obtain ⟨s', hs', hsaid⟩ := ih ht
      exact ⟨s', List.mem_cons_of_mem s hs', hsaid⟩

/-- A token that does not end the input stands for a longest lexeme. -/
theorem lexeme_of_mem {query : String} {t : Token} (ht : t ∈ tokenize query)
    (hterminal : t.isTerminal = false) :
    ∃ lexeme after, LongestLexeme lexeme after t.kind t.text := by
  obtain ⟨ss, hss, -, htokens⟩ := Scanner.tokens_segments (.ofChars query.toList) rfl
  change tokenize query = segmentTokens .start ss at htokens
  obtain ⟨s, hs, hkind, htext⟩ := exists_segment_of_mem (htokens ▸ ht)
  obtain ⟨before, after, rfl⟩ := List.append_of_mem hs
  rw [hkind, htext]
  rcases hss.segment with ⟨-, hlexeme⟩ | ⟨-, hrest⟩
  · exact ⟨_, _, hlexeme⟩
  · rw [Token.isTerminal, hkind, hrest.terminal] at hterminal
    cases hterminal

/-- A lexeme does not end the input. -/
theorem LongestLexeme.not_terminal {l after : List Char} {kind : Token.Kind} {text : String}
    (h : LongestLexeme l after kind text) : kind.isTerminal = false := by
  obtain ⟨-, -, -, -, -, -, -, -, hterminal⟩ := h.reads
  exact hterminal

/-- The end of input is where nothing is left. -/
theorem Longest.endOfInput_iff {before after : List Segment} {s : Segment}
    (h : Longest (before ++ s :: after)) :
    s.kind = .endOfInput ↔ s.lexeme ++ segmentsText after = [] := by
  rcases h.segment with ⟨-, hlexeme⟩ | ⟨rfl, hrest⟩
  · have hkind : s.kind ≠ .endOfInput := by
      intro hkind
      have hterminal := hlexeme.not_terminal
      rw [hkind] at hterminal
      cases hterminal
    simp [hkind, hlexeme.ne_nil]
  · obtain ⟨gap, lexeme, kind, text⟩ := s
    cases hrest <;> simp [segmentsText]

/-- An error stands for what is left. -/
theorem Longest.remainder_of_error {before after : List Segment} {s : Segment}
    (h : Longest (before ++ s :: after)) (hkind : s.kind = .error) :
    after = [] ∧ Remainder s.lexeme .error s.text := by
  rcases h.segment with ⟨-, hlexeme⟩ | ⟨hafter, hrest⟩
  · have hterminal := hlexeme.not_terminal
    rw [hkind] at hterminal
    cases hterminal
  · exact ⟨hafter, hkind ▸ hrest⟩

/-- What an error token with that text stands for begins with a quotation mark. -/
theorem Remainder.quote {l : List Char} (h : Remainder l .error "unterminated string") :
    Next (fun q => q = '\x22' ∨ q = '\x27') l := by
  generalize htext : "unterminated string" = text at h
  cases h with
  | unclosed hq _ => exact hq
  | @stray c =>
    -- The text of a stray character has one character only.
    have hlength := congrArg String.length htext
    rw [String.length_singleton] at hlength
    exact absurd hlength (by decide)

/-- **The places of the tokens of a text**: each token stands at the offset where its lexeme begins,
each stands further on than the one before it, and the place of an offset is that of no other. -/
theorem tokenize_places (text : String) :
    ∃ ss, Longest ss ∧ segmentsText ss = text.toList ∧ (tokenize text).length = ss.length ∧
      (∀ before s after, ss = before ++ s :: after →
        ∃ n, n = (segmentsText before ++ s.gap).length ∧
          (tokenize text)[before.length]? = some ⟨s.kind, s.text, placeAt text.toList n⟩ ∧
          s.lexeme <+: text.toList.drop n ∧
          (s.kind = .endOfInput ↔ n = text.length) ∧
          (s.kind = .error → s.text = "unterminated string" →
            Next (fun q => q = '\x22' ∨ q = '\x27') (text.toList.drop n))) ∧
      (tokenize text).Pairwise (fun t u => t.position.Precedes u.position) ∧
      ∀ m n, m ≤ text.length → n ≤ text.length →
        placeAt text.toList m = placeAt text.toList n → m = n := by
  obtain ⟨ss, hss, htext, htokens⟩ := Scanner.tokens_segments (.ofChars text.toList) rfl
  change segmentsText ss = text.toList at htext
  change tokenize text = segmentTokens .start ss at htokens
  rw [htokens]
  refine ⟨ss, hss, htext, segmentTokens_length .start ss, ?_, hss.tokens_ordered .start, ?_⟩
  · rintro before s after rfl
    have hsplit : text.toList =
        (segmentsText before ++ s.gap) ++ (s.lexeme ++ segmentsText after) := by
      rw [← htext, segmentsText_append, segmentsText_cons, List.append_assoc]
    refine ⟨_, rfl, ?_, ?_, ?_, ?_⟩
    · rw [segmentTokens_getElem?, hsplit, placeAt_length]
    · rw [hsplit, List.drop_left]
      exact List.prefix_append _ _
    · have hlength : text.length = (segmentsText before ++ s.gap).length +
          (s.lexeme ++ segmentsText after).length := by
        rw [← String.length_toList, hsplit, List.length_append]
      rw [hss.endOfInput_iff, hlength, Nat.left_eq_add, List.length_eq_zero_iff]
    · intro hkind hunclosed
      obtain ⟨rfl, hrest⟩ := hss.remainder_of_error hkind
      rw [hsplit, List.drop_left, segmentsText, List.flatMap_nil, List.append_nil]
      exact (hunclosed ▸ hrest).quote
  · intro m n hm hn
    rw [← String.length_toList] at hm hn
    exact placeAt_injective hm hn

end StoreQL
