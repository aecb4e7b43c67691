/-
# Texts one after the other

If a text has been read to its end, then blanks and another text may follow it: the tokens are those
of the first text without its end of input, and then those of the second, whose places are counted
on from where the blanks end (`Token.shift`).

The segments of the two texts are joined. The end of the first text is a segment that has nothing
but its gap, which becomes a part of the first gap of the second text; a lexeme before that is a
longest lexeme still, because what follows it begins as before, or with a blank where nothing
followed.

Main statements: `LongestLexeme.append_blank`, what may come behind a lexeme; `Longest.join`, that
the segments of the two texts make up those of the whole; and `tokenize_append`, the same for the
tokens.
-/
import StoreQL.Proofs.Text.Position
import StoreQL.Proofs.Token.Layout

namespace StoreQL

open Text

/-! ## 1. Tokens at places that are counted anew -/

/-- The token, where other text comes before its own: `lines` newlines, and `columns` characters
after the last of them. -/
def Token.shift (lines columns : Nat) (t : Token) : Token :=
  { t with position := t.position.shift lines columns }

theorem segmentTokens_shift {p : Position} (hp : 1 ≤ p.line) (lines columns : Nat)
    (ss : List Segment) :
    segmentTokens (p.shift lines columns) ss =
      (segmentTokens p ss).map (Token.shift lines columns) := by
  induction ss generalizing p with
  | nil => rfl
  | cons s ss ih =>
    have hnext : 1 ≤ (p.after s.chars).line := Nat.le_trans hp (Position.line_le_after p s.chars)
    simp only [segmentTokens, List.map_cons, Token.shift, Position.shift_after hp, ih hnext]

/-! ## 2. What may come behind a lexeme -/

/-- Whether a lexeme is the longest depends on the next character only. -/
theorem LongestLexeme.congr {l after after' : List Char} {kind : Token.Kind} {text : String}
    (h : LongestLexeme l after kind text) (hhead : after'.head? = after.head?) :
    LongestLexeme l after' kind text := by
  have hnext {p : Char → Prop} (hp : ¬ Next p after) : ¬ Next p after' :=
    fun hp' => hp ((next_congr hhead).mp hp')
  cases h with
  | keyword hc hrun hword htext hmem => exact .keyword hc hrun (hnext hword) htext hmem
  | identifier hc hrun hword hmem => exact .identifier hc hrun (hnext hword) hmem
  | whole hc hrun hdigit hdot => exact .whole hc hrun (hnext hdigit) (hnext hdot)
  | decimal hc hrun hrun' hdigit => exact .decimal hc hrun hrun' (hnext hdigit)
  | quotation hq hbody => exact .quotation hq hbody
  | punctuation hc => exact .punctuation hc
  | pair hpair => exact .pair hpair
  | single hc hpair => exact .single hc (hnext hpair)

/-- **A lexeme stays the longest** if what follows it goes on with a blank. -/
theorem LongestLexeme.append_blank {l after rest : List Char} {kind : Token.Kind} {text : String}
    (h : LongestLexeme l after kind text) (hrest : BlankFirst rest) :
    LongestLexeme l (after ++ rest) kind text := by
  cases after with
  | nil => exact h.blankFirst hrest
  | cons c after => exact h.congr rfl

/-! ## 3. Segments that are joined -/

/-- The segments with more blanks before the first of them. -/
def widenGap (gap : List Char) : List Segment → List Segment
  | [] => []
  | s :: ss => { s with gap := gap ++ s.gap } :: ss

/-- What is left is nothing, unless it is an error. -/
theorem Remainder.eq_nil {l : List Char} {kind : Token.Kind} {text : String}
    (h : Remainder l kind text) (hkind : kind ≠ .error) : l = [] := by
  cases h with
  | nothing => rfl
  | unclosed => exact absurd rfl hkind
  | stray => exact absurd rfl hkind

theorem Longest.ne_nil {ss : List Segment} (h : Longest ss) : ss ≠ [] := by
  cases h <;> exact List.cons_ne_nil _ _

/-- Blanks before a text belong to its first gap. -/
theorem Longest.widened {gap : List Char} {ss : List Segment} (h : Longest ss)
    (hgap : ∀ c ∈ gap, isBlank c) : Longest (widenGap gap ss) := by
  have hwide {gap' : List Char} (hgap' : ∀ c ∈ gap', isBlank c) : ∀ c ∈ gap ++ gap', isBlank c :=
    fun c hc => (List.mem_append.mp hc).elim (hgap c) (hgap' c)
  cases h with
  | last hgap' hblank hrest => exact .last (hwide hgap') hblank hrest
  | more hgap' hblank hlexeme hlongest => exact .more (hwide hgap') hblank hlexeme hlongest

theorem segmentsText_widenGap (gap : List Char) {ss : List Segment} (h : ss ≠ []) :
    segmentsText (widenGap gap ss) = gap ++ segmentsText ss := by
  cases ss with
  | nil => exact absurd rfl h
  | cons s ss => simp [widenGap]

theorem segmentTokens_widenGap (p : Position) (gap : List Char) (ss : List Segment) :
    segmentTokens p (widenGap gap ss) = segmentTokens (p.after gap) ss := by
  cases ss with
  | nil => rfl
  | cons s ss => simp [widenGap, segmentTokens, Segment.chars, Position.after_append]

/-- No segment but the last is an error. -/
theorem Longest.ne_error {ss : List Segment} (h : Longest ss)
    (hend : ∀ s, ss.getLast? = some s → s.kind ≠ .error) : ∀ s ∈ ss, s.kind ≠ .error := by
  induction h with
  | @last s _ _ _ =>
    intro s' hs'
    obtain rfl := List.mem_singleton.mp hs'
    exact hend s' rfl
  | @more s ss _ _ hlexeme hlongest ih =>
    intro s' hs'
    rcases List.mem_cons.mp hs' with rfl | hs'
    · obtain ⟨-, -, -, -, -, -, -, -, hterminal⟩ := hlexeme.reads
      intro herror
      rw [herror] at hterminal
      cases hterminal
    · refine ih (fun t ht => hend t ?_) s' hs'
      rwa [List.getLast?_cons, List.getLast?_eq_some_getLast hlongest.ne_nil, Option.getD_some,
        ← List.getLast?_eq_some_getLast hlongest.ne_nil]

/-- **The segments of two texts with blanks between them** are the segments of both, except that the
end of the first goes into the gap. -/
theorem Longest.join {ss ss' : List Segment} {gap : List Char} (h : Longest ss) (h' : Longest ss')
    (hok : ∀ s ∈ ss, s.kind ≠ .error) (hne : gap ≠ []) (hgap : ∀ c ∈ gap, isBlank c) :
    ∃ joined, Longest joined ∧ segmentsText joined = segmentsText ss ++ (gap ++ segmentsText ss') ∧
      ∀ p, segmentTokens p joined =
        (segmentTokens p ss).dropLast ++ segmentTokens (p.after (segmentsText ss ++ gap)) ss' := by
  induction h with
  | @last s hgap' _ hrest =>
    -- Nothing is left of the first text but a gap, and the blanks go on with it.
    have hnothing : s.lexeme = [] := hrest.eq_nil (hok s List.mem_cons_self)
    have hwide : ∀ c ∈ s.gap ++ gap, isBlank c :=
      fun c hc => (List.mem_append.mp hc).elim (hgap' c) (hgap c)
    refine ⟨widenGap (s.gap ++ gap) ss', h'.widened hwide, ?_, fun p => ?_⟩
    · rw [segmentsText_widenGap _ h'.ne_nil, segmentsText_singleton, hnothing, List.append_nil,
        List.append_assoc]
    · rw [segmentTokens_widenGap, segmentsText_singleton, hnothing, List.append_nil]
      rfl
  | @more s ss hgap' _ hlexeme hlongest ih =>
    obtain ⟨joined, hjoined, htext, htokens⟩ := ih fun t ht => hok t (List.mem_cons_of_mem _ ht)
    have hlexeme' : LongestLexeme s.lexeme (segmentsText joined) s.kind s.text := by
      rw [htext]
      exact hlexeme.append_blank (blankFirst_of_blank hne hgap)
    refine ⟨s :: joined, .more hgap' (hlexeme'.not_blank _) hlexeme' hjoined, ?_, fun p => ?_⟩
    · rw [segmentsText_cons, segmentsText_cons, htext]
      simp
    · have hss : segmentTokens (p.after s.chars) ss ≠ [] := by
        cases ss with
        | nil => exact absurd rfl hlongest.ne_nil
        | cons => exact List.cons_ne_nil _ _
      rw [segmentTokens, segmentTokens, htokens, List.dropLast_cons_of_ne_nil hss, List.cons_append,
        segmentsText_cons, ← Position.after_append]
      simp [Segment.chars]

/-! ## 4. The tokens of two texts -/

/-- The tokens of some segments are of the kinds of the segments. -/
theorem segmentTokens_kinds (p : Position) (ss : List Segment) :
    (segmentTokens p ss).map Token.kind = ss.map Segment.kind := by
  have hkind := congrArg (List.map Prod.fst) (segmentTokens_said p ss)
  rwa [List.map_map, List.map_map] at hkind

/-- If the last token is the end of input, no segment is an error. -/
theorem Longest.ne_error_of_tokens {p : Position} {ss : List Segment} (h : Longest ss)
    (hend : ∀ t, (segmentTokens p ss).getLast? = some t → t.kind = .endOfInput) :
    ∀ s ∈ ss, s.kind ≠ .error := by
  refine h.ne_error fun s hs herror => ?_
  have hkind := congrArg List.getLast? (segmentTokens_kinds p ss)
  rw [List.getLast?_map, List.getLast?_map, hs, Option.map_some] at hkind
  obtain ⟨t, ht, heq⟩ := Option.map_eq_some_iff.mp hkind
  rw [hend t ht, herror] at heq
  cases heq

/-- Segments without an error have no error token. -/
theorem filter_error_eq_nil {p : Position} {ss : List Segment} (hok : ∀ s ∈ ss, s.kind ≠ .error) :
    (segmentTokens p ss).filter (·.kind == .error) = [] := by
  rw [List.filter_eq_nil_iff]
  intro t ht herror
  have hkind : t.kind ∈ ss.map Segment.kind :=
    segmentTokens_kinds p ss ▸ List.mem_map_of_mem ht
  obtain ⟨s, hs, heq⟩ := List.mem_map.mp hkind
  exact hok s hs (heq.trans (beq_iff_eq.mp herror))

/-- **Two texts with blanks between them** have the tokens of the first without its end of input,
then those of the second at places that are counted on. So an error of the second is the error of
the whole. -/
theorem tokenize_append {a gap b : String} (hne : gap ≠ "") (hgap : ∀ c ∈ gap.toList, isBlank c)
    (hend : ∀ t, (tokenize a).getLast? = some t → t.kind = .endOfInput) :
    let before := (a ++ gap).toList
    let shift := Token.shift (before.count '\n') (lastLine before).length
    tokenize (a ++ gap ++ b) = (tokenize a).dropLast ++ (tokenize b).map shift ∧
      (tokenize (a ++ gap ++ b)).filter (·.kind == .error) =
        ((tokenize b).filter (·.kind == .error)).map shift := by
  intro before shift
  obtain ⟨ss, hss, htext, htokens⟩ := Scanner.tokens_segments (.ofChars a.toList) rfl
  obtain ⟨ss', hss', htext', htokens'⟩ := Scanner.tokens_segments (.ofChars b.toList) rfl
  change segmentsText ss = a.toList at htext
  change segmentsText ss' = b.toList at htext'
  change tokenize a = segmentTokens .start ss at htokens
  change tokenize b = segmentTokens .start ss' at htokens'
  rw [htokens] at hend
  have hok : ∀ s ∈ ss, s.kind ≠ .error := hss.ne_error_of_tokens hend
  have hgap' : gap.toList ≠ [] := fun h => hne (String.toList_eq_nil_iff.mp h)
  obtain ⟨joined, hjoined, hjoinedText, hjoinedTokens⟩ := hss.join hss' hok hgap' hgap
  have hwhole : tokenize (a ++ gap ++ b) =
      (segmentTokens .start ss).dropLast ++ (segmentTokens .start ss').map shift := by
    have hbefore : Position.start.after (segmentsText ss ++ gap.toList) =
        Position.start.shift (before.count '\n') (lastLine before).length := by
      rw [htext, ← String.toList_append]
      exact Position.after_start_eq_shift before
    rw [tokenize_of_longest hjoined (by simp [hjoinedText, htext, htext']), hjoinedTokens, hbefore,
      segmentTokens_shift (Nat.le_refl 1)]
  refine ⟨by rw [hwhole, htokens, htokens'], ?_⟩
  have hnone : ((segmentTokens .start ss).dropLast).filter (·.kind == .error) = [] := by
    have hall := List.filter_eq_nil_iff.mp (filter_error_eq_nil (p := .start) hok)
    exact List.filter_eq_nil_iff.mpr fun t ht => hall t ((List.dropLast_sublist _).subset ht)
  rw [hwhole, List.filter_append, hnone, List.nil_append, htokens', List.filter_map]
  rfl

/-- A line break within a quotation and one between the texts; the error is the second text's. -/
theorem tokenize_append_lines :
    tokenize "\x27x\ny\x27 <" = [⟨.string, "x\ny", ⟨1, 1⟩⟩, ⟨.operator, "<", ⟨2, 4⟩⟩,
        ⟨.endOfInput, "", ⟨2, 5⟩⟩] ∧
      tokenize "= \x27u\n" = [⟨.operator, "=", ⟨1, 1⟩⟩, ⟨.error, "unterminated string", ⟨1, 3⟩⟩] ∧
      tokenize ("\x27x\ny\x27 <" ++ "\n " ++ "= \x27u\n") = [⟨.string, "x\ny", ⟨1, 1⟩⟩,
        ⟨.operator, "<", ⟨2, 4⟩⟩, ⟨.operator, "=", ⟨3, 2⟩⟩,
        ⟨.error, "unterminated string", ⟨3, 4⟩⟩] := by
  have hfirst : tokenize "\x27x\ny\x27 <" = [⟨.string, "x\ny", ⟨1, 1⟩⟩, ⟨.operator, "<", ⟨2, 4⟩⟩,
      ⟨.endOfInput, "", ⟨2, 5⟩⟩] := by decide +kernel
  have hsecond : tokenize "= \x27u\n" =
      [⟨.operator, "=", ⟨1, 1⟩⟩, ⟨.error, "unterminated string", ⟨1, 3⟩⟩] := by decide +kernel
  have hend : ∀ t, (tokenize "\x27x\ny\x27 <").getLast? = some t → t.kind = .endOfInput := by
    intro t ht
    rw [hfirst] at ht
    cases ht
    rfl
  obtain ⟨hwhole, -⟩ := tokenize_append (b := "= \x27u\n") (by decide : "\n " ≠ "")
    (List.all_eq_true.mp rfl) hend
  rw [hfirst, hsecond] at hwhole
  exact ⟨hfirst, hsecond, hwhole⟩

end StoreQL
