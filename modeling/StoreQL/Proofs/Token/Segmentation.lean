/-
# The segments of a text

A text is parted into segments: each is a gap, which is a longest run of blanks, and a lexeme, which
is the longest one that begins there. What a longest lexeme is depends on its first character; it is
said here without the scanner, by `LongestLexeme`, together with the kind and the text of the token.
The last segment has what is left in the place of a lexeme: nothing, or what no lexeme begins,
namely a quotation mark that is not followed by another or a character that fits nowhere
(`Remainder`).

Main statements: `isRead_read`, that what is read off the front of a text is a longest lexeme or
stands for a remainder, and `LongestLexeme.reads` and `Remainder.reads` for the other direction;
`Longest.unique`, that a text is parted in one way at most; and `tokenize_segments`, that the tokens
of a text are those of its segments.
-/
import StoreQL.Proofs.Run
import StoreQL.Token.Scan

namespace StoreQL

open Text

/-! ## 1. Longest lexemes -/

/-- The characters that stand alone. -/
def standalone : List (Char × Token.Kind) :=
  [('(', .leftParen), (')', .rightParen), (',', .comma), ('.', .dot), ('*', .asterisk)]

/-- The first characters of operators. -/
def operatorStarts : List Char := ['=', '!', '<', '>', '+', '-']

/-- The text `lexeme` is the longest lexeme at the front of itself with `after` behind it, and
becomes a token of this kind and text. -/
inductive LongestLexeme : (lexeme after : List Char) → Token.Kind → String → Prop where
  | keyword {c : Char} {cs after : List Char} {word : String} : isWordStart c →
      (∀ d ∈ cs, isWordChar d) → ¬ Next (fun d => isWordChar d) after →
      word = String.ofList (upperText (c :: cs)) → word ∈ keywords →
      LongestLexeme (c :: cs) after .keyword word
  | identifier {c : Char} {cs after : List Char} : isWordStart c → (∀ d ∈ cs, isWordChar d) →
      ¬ Next (fun d => isWordChar d) after → String.ofList (upperText (c :: cs)) ∉ keywords →
      LongestLexeme (c :: cs) after .identifier (String.ofList (c :: cs))
  | whole {c : Char} {cs after : List Char} : isDigit c → (∀ d ∈ cs, isDigit d) →
      ¬ Next (fun d => isDigit d) after → ¬ Next (fun d => d = '.') after →
      LongestLexeme (c :: cs) after .number (String.ofList (c :: cs))
  | decimal {c : Char} {cs ds after : List Char} : isDigit c → (∀ d ∈ cs, isDigit d) →
      (∀ d ∈ ds, isDigit d) → ¬ Next (fun d => isDigit d) after →
      LongestLexeme (c :: cs ++ '.' :: ds) after .number (String.ofList (c :: cs ++ '.' :: ds))
  | quotation {q : Char} {body after : List Char} : q = '\x22' ∨ q = '\x27' → q ∉ body →
      LongestLexeme (q :: body ++ [q]) after .string (String.ofList body)
  | punctuation {c : Char} {kind : Token.Kind} {after : List Char} : (c, kind) ∈ standalone →
      LongestLexeme [c] after kind (String.singleton c)
  | pair {c d : Char} {after : List Char} : [c, d] ∈ operatorPairs →
      LongestLexeme [c, d] after .operator (String.ofList [c, d])
  | single {c : Char} {after : List Char} : c ∈ operatorStarts →
      ¬ Next (fun d => [c, d] ∈ operatorPairs) after →
      LongestLexeme [c] after .operator (String.ofList [c])

/-- What is left where no more lexemes can be read, and the kind and text of the last token. -/
inductive Remainder : List Char → Token.Kind → String → Prop where
  | nothing : Remainder [] .endOfInput ""
  | unclosed {q : Char} {body : List Char} : q = '\x22' ∨ q = '\x27' → q ∉ body →
      Remainder (q :: body) .error "unterminated string"
  | stray {c : Char} {cs : List Char} : ¬ isWordStart c → ¬ isDigit c → c ≠ '\x22' → c ≠ '\x27' →
      (∀ kind, (c, kind) ∉ standalone) → c ∉ operatorStarts →
      Remainder (c :: cs) .error (String.singleton c)

/-! ## 2. The classes of characters are apart -/

theorem isLetter_of_lt {c : Char} (h : c.toNat < 0x41) : isLetter c = false := by
  show (if c.toNat < 0x41 then false else _) = false
  exact if_pos h

theorem isWordStart_of_digit {c : Char} (h : isDigit c = true) : isWordStart c = false := by
  simp only [isDigit, Bool.and_eq_true, decide_eq_true_eq] at h
  have hlt : c.toNat < 0x41 := Nat.lt_of_le_of_lt (Char.le_def.mp h.2) (by decide)
  have hne : c ≠ '_' := by
    rintro rfl
    exact absurd hlt (by decide)
  simp [isWordStart, isLetter_of_lt hlt, hne]

theorem isQuote_iff {c : Char} : isQuote c = true ↔ c = '\x22' ∨ c = '\x27' := by
  simp [isQuote]

theorem punctuation?_eq_some_iff {c : Char} {kind : Token.Kind} :
    punctuation? c = some kind ↔ (c, kind) ∈ standalone := by
  unfold punctuation? standalone
  split <;> simp_all [eq_comm]

theorem isOperatorStart_iff {c : Char} : isOperatorStart c = true ↔ c ∈ operatorStarts :=
  List.contains_iff_mem

theorem quote_class {q : Char} (h : q = '\x22' ∨ q = '\x27') :
    isWordStart q = false ∧ isDigit q = false := by
  rcases h with rfl | rfl <;> decide

theorem standalone_class {c : Char} {kind : Token.Kind} (h : (c, kind) ∈ standalone) :
    isWordStart c = false ∧ isDigit c = false ∧ isQuote c = false ∧ kind.isTerminal = false := by
  simp only [standalone, List.mem_cons, Prod.mk.injEq, List.not_mem_nil, or_false] at h
  rcases h with ⟨rfl, rfl⟩ | ⟨rfl, rfl⟩ | ⟨rfl, rfl⟩ | ⟨rfl, rfl⟩ | ⟨rfl, rfl⟩ <;> decide

theorem operator_class {c : Char} (h : c ∈ operatorStarts) :
    isWordStart c = false ∧ isDigit c = false ∧ isQuote c = false ∧ punctuation? c = none := by
  simp only [operatorStarts, List.mem_cons, List.not_mem_nil, or_false] at h
  rcases h with rfl | rfl | rfl | rfl | rfl | rfl <;> decide

theorem pair_start {c d : Char} (h : [c, d] ∈ operatorPairs) : c ∈ operatorStarts := by
  simp only [operatorPairs, List.mem_cons, List.cons.injEq, List.not_mem_nil, or_false] at h
  rcases h with ⟨rfl, -⟩ | ⟨rfl, -⟩ | ⟨rfl, -⟩ | ⟨rfl, -⟩ <;> decide

/-! ## 3. What is read -/

section Read

variable {c d q : Char} {cs ds body after : List Char} {kind : Token.Kind}

theorem read_word (hc : isWordStart c = true) (hrun : ∀ d ∈ cs, isWordChar d = true)
    (hnext : ¬ Next (fun d => isWordChar d = true) after) :
    Lexeme.read c (cs ++ after) = (.word (c :: cs), after) := by
  rw [Lexeme.read, if_pos hc, takeWhile_run hrun hnext, dropWhile_run hrun hnext]

theorem read_number (hc : isDigit c = true) :
    Lexeme.read c cs = Lexeme.readNumber c cs := by
  rw [Lexeme.read, isWordStart_of_digit hc, if_neg Bool.false_ne_true, if_pos hc]

theorem readNumber_whole (hrun : ∀ d ∈ cs, isDigit d = true)
    (hnext : ¬ Next (fun d => isDigit d = true) after) (hdot : ¬ Next (fun d => d = '.') after) :
    Lexeme.readNumber c (cs ++ after) = (.number (c :: cs), after) := by
  simp only [Lexeme.readNumber, takeWhile_run hrun hnext, dropWhile_run hrun hnext]
  split
  · exact absurd rfl hdot
  · rfl

theorem readNumber_decimal (hrun : ∀ d ∈ cs, isDigit d = true) (hrun' : ∀ d ∈ ds, isDigit d = true)
    (hnext : ¬ Next (fun d => isDigit d = true) after) :
    Lexeme.readNumber c (cs ++ '.' :: (ds ++ after)) = (.number (c :: cs ++ '.' :: ds), after) := by
  have hdot : ¬ Next (fun d => isDigit d = true) ('.' :: (ds ++ after)) := by
    rw [next_cons]
    decide
  simp only [Lexeme.readNumber, takeWhile_run hrun hdot, dropWhile_run hrun hdot,
    takeWhile_run hrun' hnext, dropWhile_run hrun' hnext]

theorem read_quotation (hq : q = '\x22' ∨ q = '\x27') :
    Lexeme.read q cs = Lexeme.readQuotation q cs := by
  obtain ⟨hword, hdigit⟩ := quote_class hq
  simp [Lexeme.read, hword, hdigit, isQuote_iff.mpr hq]

/-- What holds no mark is a run of characters other than the mark. -/
theorem all_ne_of_notMem (hbody : q ∉ body) : ∀ d ∈ body, (d != q) = true := by
  intro d hd
  rw [bne_iff_ne]
  rintro rfl
  exact hbody hd

theorem readQuotation_closed (hbody : q ∉ body) :
    Lexeme.readQuotation q (body ++ q :: after) = (.quotation q body, after) := by
  have hrun := all_ne_of_notMem hbody
  have hnext : ¬ Next (fun d => (d != q) = true) (q :: after) := by simp
  simp only [Lexeme.readQuotation, takeWhile_run hrun hnext, dropWhile_run hrun hnext]

theorem readQuotation_unclosed (hbody : q ∉ body) :
    Lexeme.readQuotation q body = (.unclosed q body, []) := by
  have hrun := all_ne_of_notMem hbody
  have htake := takeWhile_run hrun (next_nil _)
  have hdrop := dropWhile_run hrun (next_nil _)
  rw [List.append_nil] at htake hdrop
  simp only [Lexeme.readQuotation, htake, hdrop]

theorem read_punctuation (hc : (c, kind) ∈ standalone) :
    Lexeme.read c cs = (.punctuation kind c, cs) := by
  obtain ⟨hword, hdigit, hquote, -⟩ := standalone_class hc
  simp [Lexeme.read, hword, hdigit, hquote, punctuation?_eq_some_iff.mpr hc]

theorem read_operator (hc : c ∈ operatorStarts) :
    Lexeme.read c cs = Lexeme.readOperator c cs := by
  obtain ⟨hword, hdigit, hquote, hpunctuation⟩ := operator_class hc
  simp [Lexeme.read, hword, hdigit, hquote, hpunctuation, isOperatorStart_iff.mpr hc]

theorem read_stray (hword : ¬ isWordStart c = true) (hdigit : ¬ isDigit c = true)
    (hquote : c ≠ '\x22' ∧ c ≠ '\x27') (hpunctuation : ∀ kind, (c, kind) ∉ standalone)
    (hoperator : c ∉ operatorStarts) : Lexeme.read c cs = (.stray c, cs) := by
  have hnone : punctuation? c = none := by
    cases h : punctuation? c with
    | none => rfl
    | some kind => exact absurd (punctuation?_eq_some_iff.mp h) (hpunctuation kind)
  have hmark : ¬ isQuote c = true := by
    rw [isQuote_iff]
    exact not_or.mpr hquote
  have hsign : ¬ isOperatorStart c = true := fun h => hoperator (isOperatorStart_iff.mp h)
  rw [Lexeme.read, if_neg hword, if_neg hdigit, if_neg hmark, hnone]
  simp only [if_neg hsign]

theorem keyword?_of_mem (h : String.ofList (upperText cs) ∈ keywords) :
    Lexeme.keyword? cs = some (String.ofList (upperText cs)) :=
  if_pos (List.contains_iff_mem.mpr h)

theorem keyword?_of_notMem (h : String.ofList (upperText cs) ∉ keywords) :
    Lexeme.keyword? cs = none :=
  if_neg fun hmem => h (List.contains_iff_mem.mp hmem)

end Read

variable {l after : List Char} {kind : Token.Kind} {text : String}

/-- A longest lexeme is what is read. -/
theorem LongestLexeme.reads (h : LongestLexeme l after kind text) :
    ∃ c cs x, l ++ after = c :: cs ∧ Lexeme.read c cs = (x, after) ∧ x.chars = l ∧
      x.kind = kind ∧ x.text = text ∧ kind.isTerminal = false := by
  cases h with
  | @keyword c cs _ _ hc hrun hnext hword hmem =>
    subst hword
    refine ⟨c, cs ++ after, .word (c :: cs), rfl, read_word hc hrun hnext, rfl, ?_, ?_, rfl⟩
    · simp [Lexeme.kind, keyword?_of_mem hmem]
    · simp [Lexeme.text, keyword?_of_mem hmem]
  | @identifier c cs _ hc hrun hnext hmem =>
    refine ⟨c, cs ++ after, .word (c :: cs), rfl, read_word hc hrun hnext, rfl, ?_, ?_, rfl⟩
    · simp [Lexeme.kind, keyword?_of_notMem hmem]
    · simp [Lexeme.text, keyword?_of_notMem hmem]
  | @whole c cs _ hc hrun hnext hdot =>
    refine ⟨c, cs ++ after, .number (c :: cs), rfl, ?_, rfl, rfl, rfl, rfl⟩
    rw [read_number hc, readNumber_whole hrun hnext hdot]
  | @decimal c cs ds _ hc hrun hrun' hnext =>
    refine ⟨c, cs ++ '.' :: (ds ++ after), .number (c :: cs ++ '.' :: ds), by simp, ?_, rfl, rfl,
      rfl, rfl⟩
    rw [read_number hc, readNumber_decimal hrun hrun' hnext]
  | @quotation q body _ hq hbody =>
    refine ⟨q, body ++ q :: after, .quotation q body, by simp, ?_, rfl, rfl, rfl, rfl⟩
    rw [read_quotation hq, readQuotation_closed hbody]
  | @punctuation c _ _ hc =>
    obtain ⟨-, -, -, hterminal⟩ := standalone_class hc
    exact ⟨c, after, .punctuation kind c, rfl, read_punctuation hc, rfl, rfl, rfl, hterminal⟩
  | @pair c d _ hpair =>
    refine ⟨c, d :: after, .operator [c, d], rfl, ?_, rfl, rfl, rfl, rfl⟩
    rw [read_operator (pair_start hpair), Lexeme.readOperator,
      if_pos (List.contains_iff_mem.mpr hpair)]
  | @single c _ hc hnext =>
    refine ⟨c, after, .operator [c], rfl, ?_, rfl, rfl, rfl, rfl⟩
    rw [read_operator hc]
    cases after with
    | nil => rfl
    | cons d after => exact if_neg fun hpair => hnext (List.contains_iff_mem.mp hpair)

/-- A remainder that is not empty is what is read as an error. -/
theorem Remainder.reads {c : Char} {cs : List Char} (h : Remainder (c :: cs) kind text) :
    (Lexeme.read c cs).1.kind = kind ∧ (Lexeme.read c cs).1.text = text ∧
      kind.isTerminal = true := by
  cases h with
  | unclosed hq hbody =>
    rw [read_quotation hq, readQuotation_unclosed hbody]
    exact ⟨rfl, rfl, rfl⟩
  | stray hword hdigit hquote hquote' hpunctuation hoperator =>
    rw [read_stray hword hdigit ⟨hquote, hquote'⟩ hpunctuation hoperator]
    exact ⟨rfl, rfl, rfl⟩

/-! ## 4. What is read is as long as it can be -/

/-- What a lexeme that is read off the front of a text is: the longest one, or an error that stands
for all that is left. -/
def IsRead (cs : List Char) (x : Lexeme) (after : List Char) : Prop :=
  (x.kind.isTerminal = false ∧ LongestLexeme x.chars after x.kind x.text) ∨
    (x.kind.isTerminal = true ∧ Remainder cs x.kind x.text)

variable {c : Char} {cs : List Char}

theorem all_takeWhile (p : Char → Bool) (cs : List Char) : ∀ d ∈ cs.takeWhile p, p d = true :=
  List.all_eq_true.mp List.all_takeWhile

theorem isRead_word (hc : isWordStart c = true) :
    IsRead (c :: cs) (.word (c :: cs.takeWhile isWordChar)) (cs.dropWhile isWordChar) := by
  have hrun := all_takeWhile isWordChar cs
  have hnext := not_next_dropWhile isWordChar cs
  by_cases hmem : String.ofList (upperText (c :: cs.takeWhile isWordChar)) ∈ keywords
  · refine .inl ?_
    simp only [Lexeme.kind, Lexeme.text, keyword?_of_mem hmem]
    exact ⟨rfl, .keyword hc hrun hnext rfl hmem⟩
  · refine .inl ?_
    simp only [Lexeme.kind, Lexeme.text, keyword?_of_notMem hmem]
    exact ⟨rfl, .identifier hc hrun hnext hmem⟩

theorem isRead_number (hc : isDigit c = true) :
    IsRead (c :: cs) (Lexeme.readNumber c cs).1 (Lexeme.readNumber c cs).2 := by
  have hrun := all_takeWhile isDigit cs
  have hnext := not_next_dropWhile isDigit cs
  unfold Lexeme.readNumber
  split
  · rename_i rest _
    have hrun' := all_takeWhile isDigit rest
    exact .inl ⟨rfl, .decimal hc hrun hrun' (not_next_dropWhile isDigit rest)⟩
  · rename_i hdot
    refine .inl ⟨rfl, .whole hc hrun hnext ?_⟩
    cases hrest : cs.dropWhile isDigit with
    | nil => exact next_nil _
    | cons d rest =>
      rw [next_cons]
      rintro rfl
      exact hdot rest hrest

theorem isRead_quotation (hq : c = '\x22' ∨ c = '\x27') :
    IsRead (c :: cs) (Lexeme.readQuotation c cs).1 (Lexeme.readQuotation c cs).2 := by
  have hparts := List.takeWhile_append_dropWhile (p := (· != c)) (l := cs)
  have hbody : c ∉ cs.takeWhile (· != c) := by
    intro hmem
    simpa using all_takeWhile (· != c) cs c hmem
  unfold Lexeme.readQuotation
  split
  · rename_i hrest
    rw [hrest, List.append_nil] at hparts
    rw [hparts] at hbody ⊢
    exact .inr ⟨rfl, .unclosed hq hbody⟩
  · exact .inl ⟨rfl, .quotation hq hbody⟩

theorem isRead_operator (hc : c ∈ operatorStarts) :
    IsRead (c :: cs) (Lexeme.readOperator c cs).1 (Lexeme.readOperator c cs).2 := by
  unfold Lexeme.readOperator
  split
  · exact .inl ⟨rfl, .single hc (next_nil _)⟩
  · split
    · rename_i hpair
      exact .inl ⟨rfl, .pair (List.contains_iff_mem.mp hpair)⟩
    · rename_i hpair
      exact .inl ⟨rfl, .single hc fun h => hpair (List.contains_iff_mem.mpr h)⟩

/-- **The longest lexeme is read**, whatever the text begins with. -/
theorem isRead_read (c : Char) (cs : List Char) :
    IsRead (c :: cs) (Lexeme.read c cs).1 (Lexeme.read c cs).2 := by
  unfold Lexeme.read
  by_cases hword : isWordStart c = true
  · rw [if_pos hword]
    exact isRead_word hword
  rw [if_neg hword]
  by_cases hdigit : isDigit c = true
  · rw [if_pos hdigit]
    exact isRead_number hdigit
  rw [if_neg hdigit]
  by_cases hquote : isQuote c = true
  · rw [if_pos hquote]
    exact isRead_quotation (isQuote_iff.mp hquote)
  rw [if_neg hquote]
  cases hpunctuation : punctuation? c with
  | some kind =>
    have hmem := punctuation?_eq_some_iff.mp hpunctuation
    obtain ⟨-, -, -, hterminal⟩ := standalone_class hmem
    exact .inl ⟨hterminal, .punctuation hmem⟩
  | none =>
    by_cases hoperator : isOperatorStart c = true
    · simp only [if_pos hoperator]
      exact isRead_operator (isOperatorStart_iff.mp hoperator)
    · simp only [if_neg hoperator]
      have hmark := not_or.mp (mt isQuote_iff.mpr hquote)
      refine .inr ⟨rfl, .stray hword hdigit hmark.1 hmark.2 (fun kind h => ?_) fun h => ?_⟩
      · rw [punctuation?_eq_some_iff.mpr h] at hpunctuation
        cases hpunctuation
      · exact hoperator (isOperatorStart_iff.mpr h)

/-! ## 5. Segments -/

/-- A gap, a lexeme or a remainder, and the kind and the text of its token. -/
structure Segment where
  gap : List Char
  lexeme : List Char
  kind : Token.Kind
  text : String
deriving DecidableEq, Repr

/-- The characters of a segment. -/
def Segment.chars (s : Segment) : List Char := s.gap ++ s.lexeme

/-- The text that some segments make up. -/
def segmentsText (ss : List Segment) : List Char := ss.flatMap Segment.chars

/-- The tokens of some segments, the first of which begins at `p`. -/
def segmentTokens (p : Position) : List Segment → List Token
  | [] => []
  | s :: ss => ⟨s.kind, s.text, p.after s.gap⟩ :: segmentTokens (p.after s.chars) ss

/-- Some segments part their text as it has to be parted: each gap is a longest run of blanks, each
lexeme is a longest lexeme, and the last segment has what is left. -/
inductive Longest : List Segment → Prop where
  | last {s : Segment} : (∀ c ∈ s.gap, isBlank c) → ¬ Next (fun c => isBlank c) s.lexeme →
      Remainder s.lexeme s.kind s.text → Longest [s]
  | more {s : Segment} {ss : List Segment} : (∀ c ∈ s.gap, isBlank c) →
      ¬ Next (fun c => isBlank c) (s.lexeme ++ segmentsText ss) →
      LongestLexeme s.lexeme (segmentsText ss) s.kind s.text → Longest ss → Longest (s :: ss)

@[simp] theorem segmentsText_cons (s : Segment) (ss : List Segment) :
    segmentsText (s :: ss) = s.gap ++ (s.lexeme ++ segmentsText ss) := by
  simp [segmentsText, Segment.chars]

theorem segmentsText_singleton (s : Segment) : segmentsText [s] = s.gap ++ s.lexeme := by
  simp [segmentsText, Segment.chars]

/-- No remainder begins with a longest lexeme. -/
theorem LongestLexeme.not_remainder {kind' : Token.Kind} {text' : String}
    (h : LongestLexeme l after kind text) (h' : Remainder (l ++ after) kind' text') : False := by
  obtain ⟨c, cs, x, heq, hread, -, hkind, -, hterminal⟩ := h.reads
  rw [heq] at h'
  obtain ⟨hkind', -, hterminal'⟩ := h'.reads
  rw [hread] at hkind'
  rw [← hkind', hkind, hterminal] at hterminal'
  cases hterminal'

theorem LongestLexeme.unique {l' after' : List Char} {kind' : Token.Kind} {text' : String}
    (h : LongestLexeme l after kind text) (h' : LongestLexeme l' after' kind' text')
    (heq : l ++ after = l' ++ after') : l = l' ∧ after = after' ∧ kind = kind' ∧ text = text' := by
  obtain ⟨c, cs, x, hl, hread, rfl, rfl, rfl, -⟩ := h.reads
  obtain ⟨c', cs', x', hl', hread', rfl, rfl, rfl, -⟩ := h'.reads
  cases hl.symm.trans (heq.trans hl')
  cases hread.symm.trans hread'
  exact ⟨rfl, rfl, rfl, rfl⟩

theorem Remainder.unique {kind' : Token.Kind} {text' : String} (h : Remainder l kind text)
    (h' : Remainder l kind' text') : kind = kind' ∧ text = text' := by
  cases l with
  | nil =>
    cases h
    cases h'
    exact ⟨rfl, rfl⟩
  | cons c cs =>
    obtain ⟨hkind, htext, -⟩ := h.reads
    obtain ⟨hkind', htext', -⟩ := h'.reads
    exact ⟨hkind.symm.trans hkind', htext.symm.trans htext'⟩

/-- **A text is parted in one way only.** -/
theorem Longest.unique {ss ss' : List Segment} (h : Longest ss) (h' : Longest ss')
    (heq : segmentsText ss = segmentsText ss') : ss = ss' := by
  induction h generalizing ss' with
  | @last s hgap hblank hrest =>
    rw [segmentsText_singleton] at heq
    cases h' with
    | @last s' hgap' hblank' hrest' =>
      rw [segmentsText_singleton] at heq
      obtain ⟨hg, hl⟩ := run_unique hgap hblank hgap' hblank' heq
      rw [hl] at hrest
      obtain ⟨hk, ht⟩ := hrest.unique hrest'
      cases s
      cases s'
      simp_all
    | more hgap' hblank' hlexeme' _ =>
      rw [segmentsText_cons] at heq
      obtain ⟨-, hl⟩ := run_unique hgap hblank hgap' hblank' heq
      rw [hl] at hrest
      exact (hlexeme'.not_remainder hrest).elim
  | @more s ss hgap hblank hlexeme _ ih =>
    rw [segmentsText_cons] at heq
    cases h' with
    | last hgap' hblank' hrest' =>
      rw [segmentsText_singleton] at heq
      obtain ⟨-, hl⟩ := run_unique hgap hblank hgap' hblank' heq
      rw [← hl] at hrest'
      exact (hlexeme.not_remainder hrest').elim
    | @more s' ss' hgap' hblank' hlexeme' hlongest' =>
      rw [segmentsText_cons] at heq
      obtain ⟨hg, hl⟩ := run_unique hgap hblank hgap' hblank' heq
      obtain ⟨hl, hafter, hk, ht⟩ := hlexeme.unique hlexeme' hl
      obtain rfl := ih hlongest' hafter
      cases s
      cases s'
      simp_all

/-! ## 6. The tokens of a text -/

namespace Scanner

/-- Nothing but blanks is left. -/
theorem next_of_nil {s : Scanner} (hs : s.finished = false)
    (hrest : s.rest.dropWhile isBlank = []) :
    s.next = (⟨.endOfInput, "", s.position.after (s.rest.takeWhile isBlank)⟩,
      ⟨[], s.position.after (s.rest.takeWhile isBlank), true⟩) := by
  simp only [next, hs, hrest, Bool.false_eq_true, if_false]

/-- A lexeme comes after the blanks. -/
theorem next_of_cons {s : Scanner} {c : Char} {cs : List Char} (hs : s.finished = false)
    (hrest : s.rest.dropWhile isBlank = c :: cs) :
    s.next =
      let p := s.position.after (s.rest.takeWhile isBlank)
      let x := (Lexeme.read c cs).1
      (⟨x.kind, x.text, p⟩, ⟨(Lexeme.read c cs).2, p.after x.chars, x.kind.isTerminal⟩) := by
  simp only [next, hs, hrest, Bool.false_eq_true, if_false]

/-- What a scanner that is not finished lists are the tokens of the segments of what is left. -/
theorem tokens_segments : ∀ s : Scanner, s.finished = false →
    ∃ ss, Longest ss ∧ segmentsText ss = s.rest ∧ s.tokens = segmentTokens s.position ss
  | s, hs => by
    have hgap := all_takeWhile isBlank s.rest
    have hblank := not_next_dropWhile isBlank s.rest
    have hparts := List.takeWhile_append_dropWhile (p := isBlank) (l := s.rest)
    rw [tokens_eq]
    cases hrest : s.rest.dropWhile isBlank with
    | nil =>
      rw [hrest] at hparts hblank
      refine ⟨[⟨s.rest.takeWhile isBlank, [], .endOfInput, ""⟩], .last hgap hblank .nothing, ?_, ?_⟩
      · rwa [segmentsText_singleton]
      · rw [next_of_nil hs hrest]
        rfl
    | cons c cs =>
      rw [hrest] at hparts hblank
      have hnext := next_of_cons hs hrest
      rcases isRead_read c cs with ⟨hterminal, hlexeme⟩ | ⟨hterminal, hremainder⟩
      · have hlt : s.next.2.rest.length < s.rest.length := by
          refine next_rest_length_lt ?_
          rw [hnext]
          exact hterminal
        have hgoes : s.next.2.finished = false := by
          rw [hnext]
          exact hterminal
        obtain ⟨ss, hss, htext, htokens⟩ := tokens_segments s.next.2 hgoes
        rw [hnext] at htext htokens
        simp only [hterminal] at htokens
        have hchars := Lexeme.chars_append_rest c cs
        refine ⟨⟨s.rest.takeWhile isBlank, (Lexeme.read c cs).1.chars, (Lexeme.read c cs).1.kind,
          (Lexeme.read c cs).1.text⟩ :: ss, .more hgap ?_ ?_ hss, ?_, ?_⟩
        · rwa [htext, hchars]
        · rwa [htext]
        · rw [segmentsText_cons, htext, hchars, hparts]
        · rw [hnext]
          simp only [Token.isTerminal, hterminal, Bool.false_eq_true, if_false, htokens,
            segmentTokens, Segment.chars, Position.after_append]
      · refine ⟨[⟨s.rest.takeWhile isBlank, c :: cs, (Lexeme.read c cs).1.kind,
          (Lexeme.read c cs).1.text⟩], .last hgap hblank hremainder, ?_, ?_⟩
        · rwa [segmentsText_singleton]
        · rw [hnext]
          simp only [Token.isTerminal, hterminal, if_true, segmentTokens]
termination_by s => s.rest.length

end Scanner

theorem tokenize_ne_nil (text : String) : tokenize text ≠ [] := by
  rw [tokenize, Scanner.tokens_eq]
  split <;> simp

/-- A text is refused exactly if the last of its tokens is an error. -/
theorem tokenizeStrict_eq_ok_iff {text : String} {tokens : List Token} :
    tokenizeStrict text = .ok tokens ↔
      tokens = tokenize text ∧
        ∀ t, (tokenize text).getLast? = some t → t.kind ≠ .error := by
  cases hlast : (tokenize text).getLast? with
  | none => exact absurd (List.getLast?_eq_none_iff.mp hlast) (tokenize_ne_nil text)
  | some t =>
    simp only [tokenizeStrict, hlast]
    by_cases herror : t.kind = .error
    · simp [herror]
    · simp [herror, @eq_comm _ tokens]

/-- The tokens of a text are those of the segments that it is parted into. -/
theorem tokenize_of_longest {ss : List Segment} {text : String} (hss : Longest ss)
    (htext : segmentsText ss = text.toList) : tokenize text = segmentTokens .start ss := by
  obtain ⟨ss', hss', htext', htokens⟩ := Scanner.tokens_segments (.ofChars text.toList) rfl
  obtain rfl := hss'.unique hss (htext'.trans htext.symm)
  exact htokens

/-- **The tokens of a text** are those of its segments, and it has its segments in one way. -/
theorem tokenize_segments (text : String) :
    ∃ ss, Longest ss ∧ segmentsText ss = text.toList ∧ tokenize text = segmentTokens .start ss ∧
      ∀ ss', Longest ss' → segmentsText ss' = text.toList → ss' = ss := by
  obtain ⟨ss, hss, htext, htokens⟩ := Scanner.tokens_segments (.ofChars text.toList) rfl
  exact ⟨ss, hss, htext, htokens, fun ss' hss' htext' => hss'.unique hss (htext'.trans htext.symm)⟩

end StoreQL
