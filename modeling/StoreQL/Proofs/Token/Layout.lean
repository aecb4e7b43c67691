/-
# Layouts of a text

The lexemes of a text may be set out anew: with other blanks between them, with a keyword in another
case, with a quotation between the other marks. `SetOut` says that a text is the lexemes of some
segments set out so. A blank goes on with no lexeme and begins none, so that where there is a blank
after each lexeme the lexemes stay apart, and each is read as it was.

Main statements: `blank_class`, what a blank is not; `LongestLexeme.setOut`, that a lexeme which is
spelled anew before a blank is a longest lexeme of the same kind and text; `SetOut.longest`, that the
text parts into segments that say the same; and `tokenize_setOut`, that its tokens differ in nothing
but their places.
-/
import StoreQL.Proofs.Token.Segmentation

namespace StoreQL

open Text

/-! ## 1. Blanks -/

/-- The code points of the blanks. -/
def blankCodes : List Nat := blankRanges.flatMap fun r => List.range' r.1 (r.2 + 1 - r.1)

/-- What holds of each of the blanks holds of a blank. -/
theorem forall_blank {p : Char → Bool} (hall : ∀ n ∈ blankCodes, p (Char.ofNat n) = true) {c : Char}
    (hc : isBlank c = true) : p c = true := by
  obtain ⟨r, hr, hlo, hhi⟩ := Ranges.exists_of_covers hc
  have hmem : c.toNat ∈ blankCodes := by
    refine List.mem_flatMap.mpr ⟨r, hr, List.mem_range'_1.mpr ⟨hlo, ?_⟩⟩
    omega
  simpa using hall _ hmem

/-- **A blank begins no lexeme and goes on with none.** -/
theorem blank_class {c : Char} (hc : isBlank c = true) :
    isWordStart c = false ∧ isWordChar c = false ∧ isDigit c = false ∧ isQuote c = false ∧
      punctuation? c = none ∧ isOperatorStart c = false := by
  have h := forall_blank (p := fun c => !isWordStart c && !isWordChar c && !isDigit c &&
    !isQuote c && (punctuation? c).isNone && !isOperatorStart c) (by decide +kernel) hc
  simpa [and_assoc] using h

/-- The text is empty or begins with a blank. -/
def BlankFirst (cs : List Char) : Prop := ¬ Next (fun c => isBlank c = false) cs

/-- Before a blank nothing comes that a blank is not. -/
theorem BlankFirst.not_next {p : Char → Prop} (hp : ∀ c, isBlank c = true → ¬ p c) :
    ∀ {cs : List Char}, BlankFirst cs → ¬ Next p cs
  | [], _ => next_nil p
  | c :: _, h => hp c (Bool.not_eq_false _ ▸ h)

theorem blankFirst_of_blank {gap rest : List Char} (hne : gap ≠ [])
    (hgap : ∀ c ∈ gap, isBlank c = true) : BlankFirst (gap ++ rest) := by
  cases gap with
  | nil => exact absurd rfl hne
  | cons c gap =>
    have hc := hgap c List.mem_cons_self
    simp [BlankFirst, hc]

/-! ## 2. Lexemes that are spelled anew -/

/-- Another spelling of the lexeme of a segment: the same, for a keyword any word of the same upper
case, and for a quotation the other marks if it holds none of them. -/
inductive Respells (s : Segment) : List Char → Prop where
  | same : Respells s s.lexeme
  | keyword {c : Char} {cs : List Char} : s.kind = .keyword → isWordStart c →
      (∀ d ∈ cs, isWordChar d) → upperText (c :: cs) = upperText s.lexeme → Respells s (c :: cs)
  | quotation {q : Char} {body : List Char} : s.kind = .string → s.text = String.ofList body →
      q = '\x22' ∨ q = '\x27' → q ∉ body → Respells s (q :: body ++ [q])

section Lexeme

variable {l after after' : List Char} {kind : Token.Kind} {text : String}

theorem read_blank {c : Char} (hc : isBlank c = true) (cs : List Char) :
    Lexeme.read c cs = (.stray c, cs) := by
  obtain ⟨hstart, -, hdigit, hquote, hpunctuation, hoperator⟩ := blank_class hc
  simp [Lexeme.read, hstart, hdigit, hquote, hpunctuation, hoperator]

/-- A lexeme does not begin with a blank, which would be read as a stray character. -/
theorem LongestLexeme.not_blank (h : LongestLexeme l after kind text) (rest : List Char) :
    ¬ Next (fun c => isBlank c) (l ++ rest) := by
  obtain ⟨c, cs, x, heq, hread, hchars, hkind, -, hterminal⟩ := h.reads
  have hne := Lexeme.chars_ne_nil c cs
  rw [hread, hchars] at hne
  cases l with
  | nil => exact absurd rfl hne
  | cons d l =>
    intro hblank
    simp only [List.cons_append, List.cons.injEq] at heq
    obtain ⟨rfl, rfl⟩ := heq
    rw [read_blank hblank] at hread
    obtain rfl := congrArg Prod.fst hread
    rw [← hkind] at hterminal
    cases hterminal

theorem not_blank_of_all {cs : List Char} (h : cs.all (fun c => !isBlank c) = true) :
    ∀ c ∈ cs, isBlank c = false := by
  simpa using h

/-- No lexeme but a quotation has a blank in its text. -/
theorem LongestLexeme.text_not_blank (h : LongestLexeme l after kind text)
    (hstring : kind ≠ .string) : ∀ c ∈ text.toList, isBlank c = false := by
  have hstart {c : Char} (hc : isWordStart c = true) : isBlank c = false :=
    Bool.eq_false_iff.mpr fun hb => Bool.eq_false_iff.mp (blank_class hb).1 hc
  have hword {c : Char} (hc : isWordChar c = true) : isBlank c = false :=
    Bool.eq_false_iff.mpr fun hb => Bool.eq_false_iff.mp (blank_class hb).2.1 hc
  have hdigit {c : Char} (hc : isDigit c = true) : isBlank c = false :=
    Bool.eq_false_iff.mpr fun hb => Bool.eq_false_iff.mp (blank_class hb).2.2.1 hc
  cases h with
  | keyword _ _ _ _ hmem =>
    have hkeywords : ∀ word ∈ keywords, word.toList.all (fun c => !isBlank c) = true := by
      decide +kernel
    exact not_blank_of_all (hkeywords text hmem)
  | identifier hc hrun _ _ =>
    rw [String.toList_ofList, List.forall_mem_cons]
    exact ⟨hstart hc, fun d hd => hword (hrun d hd)⟩
  | whole hc hrun _ _ =>
    rw [String.toList_ofList, List.forall_mem_cons]
    exact ⟨hdigit hc, fun d hd => hdigit (hrun d hd)⟩
  | decimal hc hrun hplaces _ =>
    rw [String.toList_ofList, List.forall_mem_append, List.forall_mem_cons, List.forall_mem_cons]
    exact ⟨⟨hdigit hc, fun d hd => hdigit (hrun d hd)⟩, rfl, fun d hd => hdigit (hplaces d hd)⟩
  | quotation => exact absurd rfl hstring
  | punctuation hmem =>
    have hstandalone : ∀ x ∈ standalone, isBlank x.1 = false := by decide +kernel
    simpa using hstandalone _ hmem
  | pair hmem =>
    have hpairs : ∀ pair ∈ operatorPairs, pair.all (fun c => !isBlank c) = true := by
      decide +kernel
    rw [String.toList_ofList]
    exact not_blank_of_all (hpairs _ hmem)
  | single hmem _ =>
    have hstarts : operatorStarts.all (fun c => !isBlank c) = true := by decide +kernel
    simpa using not_blank_of_all hstarts _ hmem

/-- A longest lexeme before one rest of a text is one before any other that begins with a blank. -/
theorem LongestLexeme.blankFirst (h : LongestLexeme l after kind text) (hblank : BlankFirst after') :
    LongestLexeme l after' kind text := by
  have hword : ¬ Next (fun d => isWordChar d = true) after' :=
    hblank.not_next fun c hc => by simp [(blank_class hc).2.1]
  have hdigit : ¬ Next (fun d => isDigit d = true) after' :=
    hblank.not_next fun c hc => by simp [(blank_class hc).2.2.1]
  cases h with
  | keyword hc hrun _ htext hmem => exact .keyword hc hrun hword htext hmem
  | identifier hc hrun _ hmem => exact .identifier hc hrun hword hmem
  | whole hc hrun _ _ =>
    refine .whole hc hrun hdigit (hblank.not_next fun c hc => ?_)
    rintro rfl
    exact absurd hc (by decide)
  | decimal hc hrun hrun' _ => exact .decimal hc hrun hrun' hdigit
  | quotation hq hbody => exact .quotation hq hbody
  | punctuation hc => exact .punctuation hc
  | pair hpair => exact .pair hpair
  | single hc _ =>
    refine .single hc (hblank.not_next fun d hd hpair => ?_)
    simp only [operatorPairs, List.mem_cons, List.cons.injEq, List.not_mem_nil, or_false] at hpair
    -- Every operator of two characters ends with the same one, which is no blank.
    obtain rfl : d = '=' := by
      rcases hpair with ⟨-, h, -⟩ | ⟨-, h, -⟩ | ⟨-, h, -⟩ | ⟨-, h, -⟩ <;> exact h
    exact absurd hd (by decide)

/-- **A lexeme that is spelled anew before a blank** is a longest lexeme of the same kind and
text. -/
theorem LongestLexeme.setOut {s : Segment} (h : LongestLexeme s.lexeme after s.kind s.text)
    (hl : Respells s l) (hblank : BlankFirst after') : LongestLexeme l after' s.kind s.text := by
  have hword : ¬ Next (fun d => isWordChar d = true) after' :=
    hblank.not_next fun c hc => by simp [(blank_class hc).2.1]
  obtain ⟨gap, lexeme, kind, text⟩ := s
  cases hl with
  | same => exact h.blankFirst hblank
  | keyword hkind hc hrun hupper =>
    cases hkind
    cases h with
    | keyword _ _ _ htext hmem => exact .keyword hc hrun hword (hupper ▸ htext) hmem
    | punctuation hc => simp [standalone] at hc
  | quotation hkind htext hq hbody =>
    cases hkind
    cases htext
    exact .quotation hq hbody

end Lexeme

/-! ## 3. Texts that are set out anew -/

/-- The text sets the lexemes of the segments out anew: before each but the first there is a blank,
and there may be more blanks anywhere between them. -/
inductive SetOut : (first : Bool) → List Segment → List Char → Prop where
  | finish {first : Bool} {s : Segment} {gap : List Char} : (∀ c ∈ gap, isBlank c) →
      SetOut first [s] gap
  | lexeme {first : Bool} {s : Segment} {ss : List Segment} {gap l rest : List Char} :
      (first = false → gap ≠ []) → (∀ c ∈ gap, isBlank c) → Respells s l → SetOut false ss rest →
      SetOut first (s :: ss) (gap ++ (l ++ rest))

/-- What a segment says, apart from how its lexeme is set out. -/
def Segment.said (s : Segment) : Token.Kind × String := (s.kind, s.text)

/-- What a token says, apart from its place. -/
def Token.said (t : Token) : Token.Kind × String := (t.kind, t.text)

/-- What is left at the end of a text is nothing, unless it is an error. -/
theorem Remainder.nothing_of_ne_error {l : List Char} {kind : Token.Kind} {text : String}
    (h : Remainder l kind text) (hkind : kind ≠ .error) : Remainder [] kind text := by
  cases h with
  | nothing => exact .nothing
  | unclosed => exact absurd rfl hkind
  | stray => exact absurd rfl hkind

theorem SetOut.blankFirst {ss : List Segment} {cs : List Char} (h : SetOut false ss cs) :
    BlankFirst cs := by
  cases h with
  | finish hgap =>
    cases cs with
    | nil => exact next_nil _
    | cons c cs => simp [BlankFirst, hgap c List.mem_cons_self]
  | lexeme hne hgap _ _ => exact blankFirst_of_blank (hne rfl) hgap

/-- **A text that is set out anew parts into segments that say the same**, unless the old one ends
with an error. -/
theorem SetOut.longest {first : Bool} {ss : List Segment} {cs : List Char} (h : SetOut first ss cs)
    (hss : Longest ss) (hok : ∀ s ∈ ss, s.kind ≠ .error) :
    ∃ ss', Longest ss' ∧ segmentsText ss' = cs ∧ ss'.map Segment.said = ss.map Segment.said := by
  induction h with
  | @finish _ s gap hgap =>
    cases hss with
    | last _ _ hrest =>
      have hkind := hok s List.mem_cons_self
      refine ⟨[⟨gap, [], s.kind, s.text⟩], .last hgap (next_nil _) ?_, ?_, rfl⟩
      · exact hrest.nothing_of_ne_error hkind
      · rw [segmentsText_singleton, List.append_nil]
    | more _ _ _ hlongest => cases hlongest
  | @lexeme _ s ss gap l rest _ hgap hl hrest ih =>
    cases hss with
    | last => cases hrest
    | more _ _ hlexeme hlongest =>
      obtain ⟨ss', hss', htext, hsaid⟩ := ih hlongest fun s hs => hok s (List.mem_cons_of_mem _ hs)
      have hlexeme' := hlexeme.setOut hl hrest.blankFirst
      refine ⟨⟨gap, l, s.kind, s.text⟩ :: ss', .more hgap ?_ ?_ hss', ?_, ?_⟩
      · exact hlexeme'.not_blank _
      · rw [htext]
        exact hlexeme'
      · rw [segmentsText_cons, htext]
      · simp [Segment.said, hsaid]

/-! ## 4. Their tokens -/

theorem segmentTokens_said (p : Position) (ss : List Segment) :
    (segmentTokens p ss).map Token.said = ss.map Segment.said := by
  induction ss generalizing p with
  | nil => rfl
  | cons s ss ih => simp [segmentTokens, Token.said, Segment.said, ih]

/-- The tokens of a text say what its segments say. -/
theorem tokenize_said {ss : List Segment} {text : String} (hss : Longest ss)
    (htext : segmentsText ss = text.toList) :
    (tokenize text).map Token.said = ss.map Segment.said := by
  rw [tokenize_of_longest hss htext, segmentTokens_said]

/-- **The tokens of a text that is set out anew** differ in nothing but their places. -/
theorem tokenize_setOut {ss : List Segment} {text text' : String} (hss : Longest ss)
    (htext : segmentsText ss = text.toList) (hok : ∀ t ∈ tokenize text, t.kind ≠ .error)
    (h : SetOut true ss text'.toList) :
    (tokenize text').map Token.said = (tokenize text).map Token.said := by
  have hsaid := tokenize_said hss htext
  have hok' : ∀ s ∈ ss, s.kind ≠ .error := by
    intro s hs
    obtain ⟨t, ht, heq⟩ := List.mem_map.mp (hsaid ▸ List.mem_map_of_mem hs)
    exact fun herror => hok t ht ((congrArg Prod.fst heq).trans herror)
  obtain ⟨ss', hss', htext', hsaid'⟩ := h.longest hss hok'
  rw [tokenize_said hss' htext', hsaid', hsaid]

end StoreQL
