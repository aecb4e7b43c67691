/-
# The stream of tokens

A scanner can be asked for tokens one by one and for ever. Each token that is not terminal takes
something from the text, so a terminal one comes after at most as many tokens as the text has
characters; and once it has been given, the scanner stays where it stopped and answers with ends of
input.

How the reading of a text stops is said by `StopsBefore`: the text parts into whole segments and a
last gap, behind which nothing is left, or a quotation that is not closed, or a character that
begins no lexeme. The three are told apart by the text of the last token alone, as the text for a
quotation that is not closed has more than one character.

Main statements: `take_eq`, what a scanner answers to any number of questions; `tokens_ending`, that
the last token is terminal and no other is; `run_reads`, what the scanner has taken by then; and
`tokenize_stream`, all of this for a text, with the errors that it is refused for.
-/
import StoreQL.Proofs.Token.Places

namespace StoreQL

open Text

namespace Scanner

/-! ## 1. A scanner that is asked again -/

/-- The scanner after it has given `n` tokens. -/
def run : Nat → Scanner → Scanner
  | 0, s => s
  | n + 1, s => run n s.next.2

/-- What a finished scanner answers. -/
def endToken (s : Scanner) : Token := ⟨.endOfInput, "", s.position⟩

theorem next_of_finished {s : Scanner} (hs : s.finished = true) : s.next = (s.endToken, s) :=
  if_pos hs

/-- A scanner is finished exactly if the token that it has just given is terminal. -/
theorem finished_next (s : Scanner) : s.next.2.finished = s.next.1.isTerminal := by
  cases hs : s.finished with
  | true => rw [next_of_finished hs, hs]; rfl
  | false =>
    cases hrest : s.rest.dropWhile isBlank with
    | nil => rw [next_of_nil hs hrest]; rfl
    | cons c cs => rw [next_of_cons hs hrest]; rfl

theorem take_of_finished {s : Scanner} (hs : s.finished = true) (k : Nat) :
    s.take k = List.replicate k s.endToken := by
  induction k with
  | zero => rfl
  | succ k ih => rw [take, next_of_finished hs, ih, List.replicate_succ]

/-- **What a scanner answers**: its tokens in order, and behind them ends of input at the place
where it stopped. -/
theorem take_eq (k : Nat) (s : Scanner) :
    s.take k = s.tokens.take k ++
      List.replicate (k - s.tokens.length) (s.run s.tokens.length).endToken := by
  induction k generalizing s with
  | zero => simp [take]
  | succ k ih =>
    rw [take, tokens_eq]
    cases hterminal : s.next.1.isTerminal with
    | true =>
      have hdone : s.next.2.finished = true := (finished_next s).trans hterminal
      simp [take_of_finished hdone, run]
    | false => simp [ih s.next.2, run]

/-! ## 2. How many tokens there are -/

/-- What holds of the tokens of a scanner whose next one is terminal, and of the next token and the
tokens after it otherwise, holds of the tokens of every scanner. -/
theorem tokens_induction {motive : Scanner → Prop}
    (last : ∀ s : Scanner, s.next.1.isTerminal = true → s.tokens = [s.next.1] → motive s)
    (more : ∀ s : Scanner, s.next.1.isTerminal = false → s.tokens = s.next.1 :: s.next.2.tokens →
      motive s.next.2 → motive s) : ∀ s, motive s
  | s => by
    have htokens := tokens_eq s
    cases hterminal : s.next.1.isTerminal with
    | true =>
      rw [hterminal, if_pos rfl] at htokens
      exact last s hterminal htokens
    | false =>
      rw [hterminal, if_neg Bool.false_ne_true] at htokens
      have hlt := next_rest_length_lt hterminal
      exact more s hterminal htokens (tokens_induction last more s.next.2)
termination_by s => s.rest.length

/-- The run of a word takes in the character that the word begins with, whichever letter it is: a
word may go on with all that it may begin with. -/
theorem read_word_run {c : Char} (hc : isWordStart c = true) (cs : List Char) :
    Lexeme.read c cs =
      (.word ((c :: cs).takeWhile isWordChar), (c :: cs).dropWhile isWordChar) := by
  have hgoes : isWordChar c = true := by
    simp only [isWordStart, isWordChar, Bool.or_eq_true] at hc ⊢
    tauto
  rw [Lexeme.read, if_pos hc, List.takeWhile_cons_of_pos hgoes, List.dropWhile_cons_of_pos hgoes]

/-- There are at most as many tokens as characters, and one for the end. -/
theorem tokens_length_le (s : Scanner) : s.tokens.length ≤ s.rest.length + 1 := by
  induction s using tokens_induction with
  | last s _ htokens => simp [htokens]
  | more s hterminal htokens ih =>
    have hlt := next_rest_length_lt hterminal
    rw [htokens, List.length_cons]
    omega

/-- **The last token is terminal and no other is.** -/
theorem tokens_ending (s : Scanner) :
    ∃ before t, s.tokens = before ++ [t] ∧ t.isTerminal = true ∧
      ∀ u ∈ before, u.isTerminal = false := by
  induction s using tokens_induction with
  | last s hterminal htokens => exact ⟨[], s.next.1, htokens, hterminal, nofun⟩
  | more s hterminal htokens ih =>
    obtain ⟨before, t, hbefore, ht, hall⟩ := ih
    refine ⟨s.next.1 :: before, t, ?_, ht, List.forall_mem_cons.mpr ⟨hterminal, hall⟩⟩
    rw [htokens, hbefore, List.cons_append]

/-! ## 3. What a scanner has taken -/

/-- A token takes the front of the text, and the scanner then stands behind it. -/
theorem next_reads (s : Scanner) :
    ∃ taken, s.rest = taken ++ s.next.2.rest ∧ s.next.2.position = s.position.after taken := by
  cases hs : s.finished with
  | true => exact ⟨[], by rw [next_of_finished hs]; rfl, by rw [next_of_finished hs]; rfl⟩
  | false =>
    have hparts := List.takeWhile_append_dropWhile (p := isBlank) (l := s.rest)
    cases hrest : s.rest.dropWhile isBlank with
    | nil =>
      rw [hrest] at hparts
      refine ⟨s.rest.takeWhile isBlank, ?_, ?_⟩
      · rw [next_of_nil hs hrest, hparts]
      · rw [next_of_nil hs hrest]
    | cons c cs =>
      rw [hrest, ← Lexeme.chars_append_rest c cs] at hparts
      refine ⟨s.rest.takeWhile isBlank ++ (Lexeme.read c cs).1.chars, ?_, ?_⟩
      · rw [next_of_cons hs hrest, List.append_assoc, hparts]
      · rw [next_of_cons hs hrest, Position.after_append]

/-- Some tokens take the front of the text, and the scanner then stands behind it. -/
theorem run_reads (n : Nat) (s : Scanner) :
    ∃ taken, s.rest = taken ++ (s.run n).rest ∧
      (s.run n).position = s.position.after taken := by
  induction n generalizing s with
  | zero => exact ⟨[], rfl, rfl⟩
  | succ n ih =>
    obtain ⟨taken, hrest, hposition⟩ := next_reads s
    obtain ⟨taken', hrest', hposition'⟩ := ih s.next.2
    refine ⟨taken ++ taken', ?_, ?_⟩
    · rw [hrest, hrest', List.append_assoc]
      rfl
    · rw [run, hposition', hposition, Position.after_append]

/-! ## 4. Where a scanner stops -/

/-- What is not read of what is left when reading stops: behind a stray character reading does not
go on, and a quotation that is not closed goes to the end. -/
def unread : List Char → List Char
  | [] => []
  | c :: cs => if isQuote c then [] else cs

theorem unread_remainder {c : Char} {cs : List Char} {kind : Token.Kind} {text : String}
    (h : Remainder (c :: cs) kind text) : (Lexeme.read c cs).2 = unread (c :: cs) := by
  cases h with
  | unclosed hq hbody =>
    rw [read_quotation hq, readQuotation_unclosed hbody, unread, if_pos (isQuote_iff.mpr hq)]
  | stray hword hdigit hquote hquote' hpunctuation hoperator =>
    have hmark : ¬ isQuote c = true := fun h => not_or.mpr ⟨hquote, hquote'⟩ (isQuote_iff.mp h)
    rw [read_stray hword hdigit ⟨hquote, hquote'⟩ hpunctuation hoperator, unread, if_neg hmark]

theorem run_next {s : Scanner} (h : s.next.1.isTerminal = true) :
    s.run s.tokens.length = s.next.2 := by
  rw [tokens_eq, if_pos h]
  rfl

/-- **Where a scanner stops**: behind the last of the segments, but for what is not read of it. -/
theorem run_segments {ss : List Segment} {z : Segment} (h : Longest (ss ++ [z])) {s : Scanner}
    (hs : s.finished = false) (hrest : s.rest = segmentsText (ss ++ [z])) :
    (s.run s.tokens.length).rest = unread z.lexeme := by
  induction ss generalizing s with
  | nil =>
    cases h with
    | last hgap hblank hremainder =>
      rw [List.nil_append, segmentsText_singleton] at hrest
      have hdrop : s.rest.dropWhile isBlank = z.lexeme := by rw [hrest, dropWhile_run hgap hblank]
      cases hl : z.lexeme with
      | nil =>
        rw [hl] at hdrop
        have hnext := next_of_nil hs hdrop
        rw [run_next (by rw [hnext]; rfl), hnext]
        rfl
      | cons c cs =>
        rw [hl] at hdrop hremainder
        have hnext := next_of_cons hs hdrop
        obtain ⟨hkind, -, hterminal⟩ := hremainder.reads
        have hlast : s.next.1.isTerminal = true := by
          rw [hnext, ← hterminal, ← hkind]
          rfl
        rw [run_next hlast, hnext]
        exact unread_remainder hremainder
    | more _ _ _ hlongest => cases hlongest
  | cons b ss ih =>
    rw [List.cons_append] at h hrest
    rw [segmentsText_cons] at hrest
    obtain ⟨hgap, hblank, hlexeme, hlongest⟩ :=
      h.of_cons (List.append_ne_nil_of_right_ne_nil ss (List.cons_ne_nil z []))
    have hdrop : s.rest.dropWhile isBlank = b.lexeme ++ segmentsText (ss ++ [z]) := by
      rw [hrest, dropWhile_run hgap hblank]
    obtain ⟨c, cs, x, heq, hread, -, hkind, -, hterminal⟩ := hlexeme.reads
    rw [heq] at hdrop
    have hnext := next_of_cons hs hdrop
    rw [hread] at hnext
    have hmore : s.next.1.isTerminal = false := by
      rw [hnext, ← hterminal, ← hkind]
      rfl
    have hafter : s.next.2.rest = segmentsText (ss ++ [z]) := by rw [hnext]
    have hrun := ih hlongest ((finished_next s).trans hmore) hafter
    rw [tokens_eq, hmore, if_neg Bool.false_ne_true]
    exact hrun

end Scanner

/-! ## 5. How reading stops -/

/-- The text is read as whole segments and a gap, which are `read`, and reading stops before
`left`. -/
def StopsBefore (text : String) (read left : List Char) : Prop :=
  ∃ ss s, Longest (ss ++ [s]) ∧ text.toList = read ++ left ∧ read = segmentsText ss ++ s.gap ∧
    left = s.lexeme

theorem exists_stopsBefore (text : String) : ∃ read left, StopsBefore text read left := by
  obtain ⟨ss, hss, htext, -⟩ := tokenize_segments text
  rcases List.eq_nil_or_concat ss with rfl | ⟨ss, s, rfl⟩
  · cases hss
  · rw [List.concat_eq_append] at hss htext
    refine ⟨_, _, ss, s, hss, ?_, rfl, rfl⟩
    rw [← htext, segmentsText_append, segmentsText_singleton, List.append_assoc]

/-- Where reading stops, the last token stands, and it is the one for what is left. -/
theorem StopsBefore.last {text : String} {read left : List Char} (h : StopsBefore text read left) :
    ∃ kind said, Remainder left kind said ∧
      (tokenize text).getLast? = some ⟨kind, said, placeAt text.toList read.length⟩ := by
  obtain ⟨ss, s, hss, htext, rfl, rfl⟩ := h
  have hsegments : segmentsText (ss ++ [s]) = text.toList := by
    rw [htext, segmentsText_append, segmentsText_singleton, List.append_assoc]
  have hrest : Remainder s.lexeme s.kind s.text := by
    rcases hss.segment with ⟨hne, -⟩ | ⟨-, hrest⟩
    · exact absurd rfl hne
    · exact hrest
  refine ⟨s.kind, s.text, hrest, ?_⟩
  rw [tokenize_of_longest hss hsegments, List.getLast?_eq_getElem?, segmentTokens_length,
    List.length_append, List.length_singleton, Nat.add_sub_cancel, segmentTokens_getElem?, htext,
    placeAt_length]

/-- A terminal token is the end of input if it is no error. -/
theorem endOfInput_iff_of_terminal {t : Token} (h : t.isTerminal = true) :
    t.kind = .endOfInput ↔ t.kind ≠ .error := by
  rw [Token.isTerminal] at h
  cases hkind : t.kind <;> simp_all [Token.Kind.isTerminal]

/-- A text is refused exactly if its last token is an error, and then for that error. -/
theorem tokenizeStrict_eq {text : String} {t : Token} (h : (tokenize text).getLast? = some t) :
    tokenizeStrict text = if t.kind = .error then .error (.ofToken t) else .ok (tokenize text) := by
  simp only [tokenizeStrict, h]

section Stops

variable {text : String} {read left : List Char}

theorem StopsBefore.at_end (h : StopsBefore text read []) :
    tokenizeStrict text = .ok (tokenize text) := by
  obtain ⟨kind, said, hrest, hlast⟩ := h.last
  rw [tokenizeStrict_eq hlast]
  cases hrest
  rfl

theorem StopsBefore.at_quotation {q : Char} {body : List Char}
    (h : StopsBefore text read (q :: body)) (hq : q = '\x22' ∨ q = '\x27') :
    q ∉ body ∧ tokenizeStrict text =
      .error (.unterminatedString (placeAt text.toList read.length)) := by
  obtain ⟨kind, said, hrest, hlast⟩ := h.last
  rw [tokenizeStrict_eq hlast]
  cases hrest with
  | unclosed _ hbody => exact ⟨hbody, rfl⟩
  | stray _ _ hquote hquote' => exact absurd hq (not_or.mpr ⟨hquote, hquote'⟩)

/-- The text of a stray character is not taken for that of a quotation that is not closed, which has
more than one character. -/
theorem LexicalError.ofToken_stray (c : Char) (p : Position) :
    LexicalError.ofToken ⟨.error, String.singleton c, p⟩ =
      .unexpectedCharacter (String.singleton c) p := by
  have hne : String.singleton c ≠ Lexeme.unclosedText := by
    intro h
    have hlength := congrArg String.length h
    rw [String.length_singleton] at hlength
    exact absurd hlength (by decide)
  exact if_neg (by simpa using hne)

theorem StopsBefore.at_stray {c : Char} {cs : List Char} (h : StopsBefore text read (c :: cs))
    (hc : c ≠ '\x22' ∧ c ≠ '\x27') :
    tokenizeStrict text =
      .error (.unexpectedCharacter (String.singleton c) (placeAt text.toList read.length)) := by
  obtain ⟨kind, said, hrest, hlast⟩ := h.last
  rw [tokenizeStrict_eq hlast]
  cases hrest with
  | unclosed hq _ => exact absurd hq (not_or.mpr hc)
  | stray => simp only [if_pos, LexicalError.ofToken_stray]

/-- Reading stops in one of three ways. -/
theorem StopsBefore.cases (h : StopsBefore text read left) :
    left = [] ∨ ∃ c cs, left = c :: cs ∧
      ((c = '\x22' ∨ c = '\x27') ∨ (c ≠ '\x22' ∧ c ≠ '\x27')) := by
  cases left with
  | nil => exact .inl rfl
  | cons c cs => exact .inr ⟨c, cs, rfl, (Classical.em _).imp_right not_or.mp⟩

end Stops

theorem tokenizeStrict_unterminated_iff {text : String} {p : Position} :
    tokenizeStrict text = .error (.unterminatedString p) ↔
      ∃ read q body, StopsBefore text read (q :: body) ∧ (q = '\x22' ∨ q = '\x27') ∧ q ∉ body ∧
        p = placeAt text.toList read.length := by
  constructor
  · intro herror
    obtain ⟨read, left, h⟩ := exists_stopsBefore text
    rcases h.cases with rfl | ⟨c, cs, rfl, hquote | hstray⟩
    · cases h.at_end.symm.trans herror
    · obtain ⟨hbody, hanswer⟩ := h.at_quotation hquote
      cases hanswer.symm.trans herror
      exact ⟨read, c, cs, h, hquote, hbody, rfl⟩
    · cases (h.at_stray hstray).symm.trans herror
  · rintro ⟨read, q, body, h, hquote, -, rfl⟩
    exact (h.at_quotation hquote).2

theorem tokenizeStrict_unexpected_iff {text found : String} {p : Position} :
    tokenizeStrict text = .error (.unexpectedCharacter found p) ↔
      ∃ read c cs, StopsBefore text read (c :: cs) ∧ c ≠ '\x22' ∧ c ≠ '\x27' ∧
        found = String.singleton c ∧ p = placeAt text.toList read.length := by
  constructor
  · intro herror
    obtain ⟨read, left, h⟩ := exists_stopsBefore text
    rcases h.cases with rfl | ⟨c, cs, rfl, hquote | hstray⟩
    · cases h.at_end.symm.trans herror
    · cases (h.at_quotation hquote).2.symm.trans herror
    · cases (h.at_stray hstray).symm.trans herror
      exact ⟨read, c, cs, h, hstray.1, hstray.2, rfl, rfl⟩
  · rintro ⟨read, c, cs, h, hquote, hquote', rfl, rfl⟩
    exact h.at_stray ⟨hquote, hquote'⟩

/-- A scanner that has read a text to where reading stops has left what is not read. -/
theorem StopsBefore.place {text : String} {read left : List Char}
    (h : StopsBefore text read left) :
    ((Scanner.ofChars text.toList).run (tokenize text).length).position =
      placeAt text.toList (text.length - (Scanner.unread left).length) := by
  obtain ⟨ss, z, hss, htext, rfl, rfl⟩ := h
  have hsegments : text.toList = segmentsText (ss ++ [z]) := by
    rw [htext, segmentsText_append, segmentsText_singleton, List.append_assoc]
  have hrest := Scanner.run_segments hss (s := .ofChars text.toList) rfl hsegments
  change ((Scanner.ofChars text.toList).run (tokenize text).length).rest = _ at hrest
  obtain ⟨taken, htaken, hposition⟩ :=
    Scanner.run_reads (tokenize text).length (.ofChars text.toList)
  rw [hrest] at htaken
  change text.toList = taken ++ Scanner.unread z.lexeme at htaken
  rw [hposition, ← String.length_toList, htaken, List.length_append, Nat.add_sub_cancel,
    placeAt_length]
  rfl

/-- **The stream of tokens of a text**: it ends with the first terminal token, after no more tokens
than characters; a scanner that is asked for more answers with ends of input at the place where it
stopped; and the text is refused exactly for its last token, which tells a quotation that is not
closed from a character that begins no lexeme. -/
theorem tokenize_stream (text : String) :
    (tokenize text).length ≤ text.length + 1 ∧
      (∃ before t, tokenize text = before ++ [t] ∧ t.isTerminal = true ∧
        (∀ u ∈ before, u.isTerminal = false) ∧
        (∀ ts, tokenizeStrict text = .ok ts ↔ ts = tokenize text ∧ t.kind = .endOfInput) ∧
        ∀ e, tokenizeStrict text = .error e ↔ t.kind = .error ∧ e = .ofToken t) ∧
      (∃ read left, StopsBefore text read left ∧ ∀ k,
        (Scanner.ofChars text.toList).take k = (tokenize text).take k ++
          List.replicate (k - (tokenize text).length) ⟨.endOfInput, "",
            placeAt text.toList (text.length - (Scanner.unread left).length)⟩) ∧
      (∀ p, tokenizeStrict text = .error (.unterminatedString p) ↔
        ∃ read q body, StopsBefore text read (q :: body) ∧ (q = '\x22' ∨ q = '\x27') ∧ q ∉ body ∧
          p = placeAt text.toList read.length) ∧
      ∀ found p, tokenizeStrict text = .error (.unexpectedCharacter found p) ↔
        ∃ read c cs, StopsBefore text read (c :: cs) ∧ c ≠ '\x22' ∧ c ≠ '\x27' ∧
          found = String.singleton c ∧ p = placeAt text.toList read.length := by
  refine ⟨?_, ?_, ?_, fun _ => tokenizeStrict_unterminated_iff,
    fun _ _ => tokenizeStrict_unexpected_iff⟩
  · rw [← String.length_toList]
    exact Scanner.tokens_length_le _
  · obtain ⟨before, t, htokens, hterminal, hall⟩ := Scanner.tokens_ending (.ofChars text.toList)
    change tokenize text = before ++ [t] at htokens
    have hlast : (tokenize text).getLast? = some t := by
      rw [htokens, List.getLast?_concat]
    have hkind : t.kind = .endOfInput ↔ t.kind ≠ .error := endOfInput_iff_of_terminal hterminal
    refine ⟨before, t, htokens, hterminal, hall, fun ts => ?_, fun e => ?_⟩
    · rw [tokenizeStrict_eq hlast, hkind]
      by_cases herror : t.kind = .error <;> simp [herror, @eq_comm _ ts]
    · rw [tokenizeStrict_eq hlast]
      by_cases herror : t.kind = .error <;> simp [herror, @eq_comm _ e]
  · obtain ⟨read, left, h⟩ := exists_stopsBefore text
    refine ⟨read, left, h, fun k => ?_⟩
    rw [← h.place]
    exact Scanner.take_eq k (.ofChars text.toList)

end StoreQL
