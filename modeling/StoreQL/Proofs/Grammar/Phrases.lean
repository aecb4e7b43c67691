/-
# Phrases of the published grammar

The rules of the published grammar are followed symbol by symbol. What a symbol is brought to is a
phrase of the reader's own grammar, before whatever comes next in a sentence: the end, or a word
that begins a clause (`Boundary`). `Names` says which tokens a word of the table stands for, and
`clauseKinds` which nodes the rules of a derivation stand for.

Main statements: `inner_said`, that in a condition there is nothing at which it would end early;
`filter_said`, `order_said`, `limit_said`, `group_said` and `concurrent_said`, one for each clause;
and `assignments_said`, that a list of assignments is read to its end.
-/
import StoreQL.Grammar.Table
import StoreQL.Proofs.Grammar.Derivation
import StoreQL.Proofs.Query.Phrase

namespace StoreQL.Query

open Grammar (Derives Rule derives_nil_iff derives_terminal_iff)

/-! ## 1. What the words name -/

/-- The kind of token that a word names: keywords are written in capitals, and what is neither a
sign nor the name of a kind is the name of a collection. -/
def namedKind (word : String) : Token.Kind :=
  if keywords.contains word then .keyword
  else match word with
    | "string" => .string
    | "number" => .number
    | "," => .comma
    | "." => .dot
    | "(" => .leftParen
    | ")" => .rightParen
    | "*" => .asterisk
    | "=" | "!=" | "<" | ">" | "<=" | ">=" => .operator
    | _ => .identifier

/-- The words that name every token of their kind. -/
def classNames : List String := ["identifier", "string", "number"]

/-- The word names the token. -/
def Names (word : String) (t : Token) : Prop :=
  t.kind = namedKind word ∧ (word ∈ classNames ∨ t.text = word)

instance Names.decidable (word : String) (t : Token) : Decidable (Names word t) :=
  inferInstanceAs (Decidable (_ ∧ _))

theorem Names.hasKind {word : String} {t : Token} {kind : Token.Kind} (h : Names word t)
    (hword : namedKind word = kind) : t.kind = kind :=
  h.1.trans hword

theorem Names.isKeyword {word : String} {t : Token} (h : Names word t)
    (hword : namedKind word = .keyword) : t.isKeyword word = true := by
  obtain ⟨hkind, hclass | htext⟩ := h
  · simp only [classNames, List.mem_cons, List.not_mem_nil, or_false] at hclass
    rcases hclass with rfl | rfl | rfl <;> exact absurd hword (by decide)
  · simp [Token.isKeyword, hkind, hword, htext]

/-- A word that is named is none of those that end a condition, unless it is one of them. -/
theorem Names.passedOver {word : String} {t : Token} (h : Names word t)
    (hword : word ∉ clauseWords) : PassedOver t := by
  have hkind : namedKind word ≠ .endOfInput ∧ namedKind word ≠ .error := by
    unfold namedKind
    split
    · decide
    · split <;> decide
  refine ⟨h.1 ▸ hkind.1, h.1 ▸ hkind.2, fun word' hword' ht => hword ?_⟩
  have hkeyword : namedKind word = .keyword := h.1 ▸ Reader.kind_of_isKeyword ht
  rwa [Reader.isKeyword_unique (h.isKeyword hkeyword) ht]

/-! ## 2. The symbols inside clauses -/

/-- The symbols are brought to the tokens by the rules of the published grammar. -/
abbrev Says (ss : List String) (used : List Rule) (ts : List Token) : Prop :=
  Derives queryGrammar Names ss used ts

/-- The symbols that are not inside a clause or an assignment, and the words that begin clauses
after a condition. -/
def outerSymbols : List String :=
  ["query", "select-stmt", "find-stmt", "update-stmt", "analyze-stmt", "field-list",
    "where-clause", "order-clause", "limit-clause", "group-clause", "concurrent-clause",
    "assignment-list", "assignment", "ORDER", "LIMIT", "GROUP", "CONCURRENT"]

/-- The kind of node that a symbol stands for, if it is that of a clause or of an assignment. -/
def clauseKind? : String → Option Node.Kind
  | "where-clause" => some .filter
  | "order-clause" => some .orderBy
  | "limit-clause" => some .limit
  | "group-clause" => some .groupBy
  | "assignment" => some .assignment
  | _ => none

/-- The kinds of node that the clauses and assignments of a derivation stand for. -/
def clauseKinds (used : List Rule) : List Node.Kind := used.filterMap fun r => clauseKind? r.head

theorem inner_closed : ∀ r ∈ queryGrammar.rules, r.head ∉ outerSymbols →
    ∀ s ∈ r.body, s ∉ outerSymbols := by
  decide +kernel

section Inner

variable {s : String} {ss : List String} {used used' : List Rule} {ts rest : List Token}

theorem clauseKinds_append :
    clauseKinds (used ++ used') = clauseKinds used ++ clauseKinds used' :=
  List.filterMap_append

theorem clauseKinds_cons_some {r : Rule} {kind : Node.Kind} (hr : clauseKind? r.head = some kind) :
    clauseKinds (r :: used) = kind :: clauseKinds used :=
  List.filterMap_cons_some hr

theorem clauseKinds_cons_none {r : Rule} (hr : clauseKind? r.head = none) :
    clauseKinds (r :: used) = clauseKinds used :=
  List.filterMap_cons_none hr

theorem clauseKind?_inner (hs : s ∉ outerSymbols) : clauseKind? s = none := by
  unfold clauseKind?
  split <;> first | rfl | exact absurd (by decide) hs

/-- Inside a clause there are no more clauses, and nothing that ends a condition. -/
theorem inner_said (hss : ∀ s ∈ ss, s ∉ outerSymbols) (h : Says ss used ts) :
    clauseKinds used = [] ∧ ∀ t ∈ ts, PassedOver t := by
  obtain ⟨hused, hts⟩ := h.within inner_closed hss
  refine ⟨List.filterMap_eq_nil_iff.mpr fun r hr => clauseKind?_inner (hused r hr), fun t ht => ?_⟩
  obtain ⟨word, hword, hnames⟩ := hts t ht
  have hclause : ∀ word ∈ clauseWords, word ∈ outerSymbols := by decide
  exact hnames.passedOver fun hmem => hword (hclause word hmem)

/-- A symbol is replaced by one of the bodies of its rules. -/
theorem said_by_rule (bodies : List (List String)) (hsymbol : queryGrammar.isNonTerminal s = true)
    (hbodies : (queryGrammar.rulesFor s).map Rule.body = bodies) (h : Says [s] used ts) :
    ∃ body ∈ bodies, ∃ used', used = ⟨s, body⟩ :: used' ∧ Says body used' ts := by
  obtain ⟨r, hr, used', rfl, hbody⟩ := h.by_rule hsymbol
  obtain rfl : r.head = s := beq_iff_eq.mp (List.mem_filter.mp hr).2
  exact ⟨r.body, hbodies ▸ List.mem_map_of_mem hr, used', rfl, hbody⟩

/-- A symbol whose bodies all open alike: what comes after the opening is some of the symbols that
may follow it, each of which needs those before it. -/
theorem opening_said (opening tails : List String) (hsymbol : queryGrammar.isNonTerminal s = true)
    (hforms : ∀ r ∈ queryGrammar.rulesFor s,
      r.body.take opening.length = opening ∧ r.body.drop opening.length <+: tails)
    (h : Says [s] used ts) :
    ∃ r tail used', used = r :: used' ∧ r.head = s ∧ tail <+: tails ∧
      Says (opening ++ tail) used' ts := by
  obtain ⟨r, hr, used', rfl, hbody⟩ := h.by_rule hsymbol
  obtain ⟨hopening, htail⟩ := hforms r hr
  rw [← List.take_append_drop opening.length r.body, hopening] at hbody
  exact ⟨r, _, used', rfl, beq_iff_eq.mp (List.mem_filter.mp hr).2, htail, hbody⟩

/-! ## 3. Fields and values -/

theorem field_said (h : Says ["field"] used ts) :
    (∀ t ∈ ts, t.kind = .identifier ∨ t.kind = .dot) ∧
      ∃ name, ∀ rest, ¬ Next (fun d => d.kind = .dot) rest → FieldPhrase name (ts ++ rest) rest := by
  obtain ⟨body, hmem, used', rfl, hbody⟩ :=
    said_by_rule [["identifier"], ["identifier", ".", "identifier"]] rfl rfl h
  simp only [List.mem_cons, List.not_mem_nil, or_false] at hmem
  rcases hmem with rfl | rfl
  · simp (disch := decide) only [derives_terminal_iff, derives_nil_iff] at hbody
    obtain ⟨b, _, rfl, hb, -, rfl⟩ := hbody
    have hkind : b.kind = .identifier := hb.hasKind rfl
    exact ⟨by simp [hkind], b.text, fun rest hrest => .plain hkind hrest⟩
  · simp (disch := decide) only [derives_terminal_iff, derives_nil_iff] at hbody
    obtain ⟨b, _, rfl, hb, d, _, rfl, hd, m, _, rfl, hm, -, rfl⟩ := hbody
    have hbase : b.kind = .identifier := hb.hasKind rfl
    have hdot : d.kind = .dot := hd.hasKind rfl
    have hmember : m.kind = .identifier := hm.hasKind rfl
    exact ⟨by simp [hbase, hdot, hmember], b.text ++ "." ++ m.text,
      fun rest _ => .member hbase hdot hmember⟩

theorem boolean_said (h : Says ["boolean"] used ts) :
    ∃ t b, ts = [t] ∧ ValueToken t (.boolean b) := by
  obtain ⟨body, hmem, used', rfl, hbody⟩ := said_by_rule [["TRUE"], ["FALSE"]] rfl rfl h
  simp only [List.mem_cons, List.not_mem_nil, or_false] at hmem
  rcases hmem with rfl | rfl
  all_goals
    simp (disch := decide) only [derives_terminal_iff, derives_nil_iff] at hbody
    obtain ⟨t, _, rfl, ht, -, rfl⟩ := hbody
  · exact ⟨t, _, rfl, .true (ht.isKeyword rfl)⟩
  · exact ⟨t, _, rfl, .false (ht.isKeyword rfl)⟩

theorem value_said (h : Says ["value"] used ts) : ∃ t v, ts = [t] ∧ ValueToken t v := by
  obtain ⟨body, hmem, used', rfl, hbody⟩ :=
    said_by_rule [["string"], ["number"], ["boolean"], ["NULL"]] rfl rfl h
  simp only [List.mem_cons, List.not_mem_nil, or_false] at hmem
  rcases hmem with rfl | rfl | rfl | rfl
  case inr.inr.inl =>
    obtain ⟨t, b, rfl, ht⟩ := boolean_said hbody
    exact ⟨t, _, rfl, ht⟩
  all_goals
    simp (disch := decide) only [derives_terminal_iff, derives_nil_iff] at hbody
    obtain ⟨t, _, rfl, ht, -, rfl⟩ := hbody
  · exact ⟨t, _, rfl, .string (ht.hasKind rfl)⟩
  · exact ⟨t, _, rfl, .number (ht.hasKind rfl)⟩
  · exact ⟨t, _, rfl, .null (ht.isKeyword rfl)⟩

theorem entity_said (h : Says ["entity"] used ts) : ∃ e, ts = [e] ∧ e.kind = .identifier := by
  obtain ⟨body, hmem, used', rfl, hbody⟩ :=
    said_by_rule [["products"], ["orders"], ["stores"], ["customers"]] rfl rfl h
  simp only [List.mem_cons, List.not_mem_nil, or_false] at hmem
  rcases hmem with rfl | rfl | rfl | rfl
  all_goals
    simp (disch := decide) only [derives_terminal_iff, derives_nil_iff] at hbody
    obtain ⟨e, _, rfl, he, -, rfl⟩ := hbody
    exact ⟨e, rfl, he.hasKind rfl⟩

/-! ## 4. Clauses -/

/-- The token ends what comes before it: it is the end, or a word that begins a clause after a
condition. -/
def Boundary (t : Token) : Prop :=
  t.kind = .endOfInput ∨ ∃ word ∈ clauseWords, t.isKeyword word = true

theorem Boundary.not_passedOver {t : Token} (h : Boundary t) : ¬ PassedOver t := by
  rintro ⟨hend, -, hwords⟩
  rcases h with h | ⟨word, hword, ht⟩
  · exact hend h
  · exact hwords word hword ht

theorem Boundary.ne_kind {t : Token} {kind : Token.Kind} (hend : kind ≠ .endOfInput)
    (hkeyword : kind ≠ .keyword) (h : Boundary t) : t.kind ≠ kind := by
  rcases h with h | ⟨word, -, ht⟩
  · exact h ▸ hend.symm
  · exact Reader.kind_of_isKeyword ht ▸ hkeyword.symm

theorem Boundary.not_isKeyword {t : Token} {word : String} (hword : word ∉ clauseWords)
    (h : Boundary t) : ¬ t.isKeyword word = true := by
  intro ht
  rcases h with h | ⟨word', hword', ht'⟩
  · rw [Reader.kind_of_isKeyword ht] at h
    cases h
  · exact hword (Reader.isKeyword_unique ht ht' ▸ hword')

/-- The kinds of some nodes. -/
def kindsOf (os : List (Outline Node)) : List Node.Kind := os.map fun o => o.value.kind

/-- The tokens, before `rest`, are a phrase with the nodes that the clauses used stand for. -/
def Stands (phrase : List (Outline Node) → List Token → List Token → Prop) (used : List Rule)
    (ts rest : List Token) : Prop :=
  ∃ os, phrase os (ts ++ rest) rest ∧ kindsOf os = clauseKinds used

theorem filter_said (h : Says ["where-clause"] used ts) (hrest : Next Boundary rest) :
    Stands FilterPhrase used ts rest := by
  obtain ⟨body, hmem, used', rfl, hbody⟩ := said_by_rule [["WHERE", "condition"]] rfl rfl h
  obtain rfl := List.mem_singleton.mp hmem
  obtain ⟨w, condition, rfl, hw, hcondition⟩ := (derives_terminal_iff rfl).mp hbody
  obtain ⟨hkinds, hpassed⟩ := inner_said (by decide) hcondition
  refine ⟨_, .present (hw.isKeyword rfl) hpassed (hrest.not_next fun _ => (·.not_passedOver)), ?_⟩
  rw [clauseKinds_cons_some rfl, hkinds]
  rfl

/-- A direction, or what stands in its place. -/
theorem direction_said {tail : List String} (htail : tail <+: ["direction"])
    (h : Says tail used ts) (hrest : Next Boundary rest) :
    clauseKinds used = [] ∧ ¬ Next (fun d => d.kind = .dot) (ts ++ rest) ∧
      ∃ name, DirectionPhrase name (ts ++ rest) rest := by
  cases tail with
  | nil =>
    obtain ⟨rfl, rfl⟩ := derives_nil_iff.mp h
    refine ⟨rfl, hrest.not_next fun _ => Boundary.ne_kind (by decide) (by decide), "ASC",
      .unsaid (hrest.not_next fun t ht => ?_)⟩
    rintro (hasc | hdesc)
    · exact ht.not_isKeyword (by decide) hasc
    · exact ht.not_isKeyword (by decide) hdesc
  | cons s tail =>
    obtain ⟨rfl, hshort⟩ := List.cons_prefix_cons.mp htail
    obtain rfl := List.prefix_nil.mp hshort
    obtain ⟨hkinds, -⟩ := inner_said (by decide) h
    obtain ⟨body, hmem, used', rfl, hbody⟩ := said_by_rule [["ASC"], ["DESC"]] rfl rfl h
    have hsaid : ∃ d, ts = [d] ∧ (d.isKeyword "ASC" = true ∨ d.isKeyword "DESC" = true) := by
      simp only [List.mem_cons, List.not_mem_nil, or_false] at hmem
      rcases hmem with rfl | rfl
      all_goals
        simp (disch := decide) only [derives_terminal_iff, derives_nil_iff] at hbody
        obtain ⟨d, _, rfl, hd, -, rfl⟩ := hbody
      · exact ⟨d, rfl, .inl (hd.isKeyword rfl)⟩
      · exact ⟨d, rfl, .inr (hd.isKeyword rfl)⟩
    obtain ⟨d, rfl, hd⟩ := hsaid
    refine ⟨hkinds, ?_, _, .said hd⟩
    rw [List.singleton_append, next_cons, hd.elim Reader.kind_of_isKeyword Reader.kind_of_isKeyword]
    decide

theorem order_said (h : Says ["order-clause"] used ts) (hrest : Next Boundary rest) :
    Stands OrderPhrase used ts rest := by
  obtain ⟨r, tail, used, rfl, hr, htail, hbody⟩ :=
    opening_said ["ORDER", "BY", "field"] ["direction"] rfl (by decide) h
  obtain ⟨o, _, rfl, ho, hby⟩ := (derives_terminal_iff rfl).mp hbody
  obtain ⟨b, _, rfl, hb, hby⟩ := (derives_terminal_iff rfl).mp hby
  obtain ⟨used₁, used₂, ts₁, ts₂, rfl, rfl, hfield, hdirection⟩ := Derives.split hby
  obtain ⟨hkinds, -⟩ := inner_said (by decide) hfield
  obtain ⟨-, name, hname⟩ := field_said hfield
  obtain ⟨hdkinds, hdot, direction, hphrase⟩ := direction_said htail hdirection hrest
  have hsaid := hname _ hdot
  rw [← List.append_assoc] at hsaid
  refine ⟨_, .present (ho.isKeyword rfl) (hb.isKeyword rfl) hsaid hphrase, ?_⟩
  rw [clauseKinds_cons_some (by rw [hr]; rfl), clauseKinds_append, hkinds, hdkinds]
  rfl

theorem limit_said (h : Says ["limit-clause"] used ts) : Stands LimitPhrase used ts rest := by
  obtain ⟨body, hmem, used', rfl, hbody⟩ := said_by_rule [["LIMIT", "number"]] rfl rfl h
  obtain rfl := List.mem_singleton.mp hmem
  simp (disch := decide) only [derives_terminal_iff, derives_nil_iff] at hbody
  obtain ⟨l, _, rfl, hl, n, _, rfl, hn, rfl, rfl⟩ := hbody
  exact ⟨_, .present (hl.isKeyword rfl) (hn.hasKind rfl), rfl⟩

theorem group_said (h : Says ["group-clause"] used ts) (hrest : Next Boundary rest) :
    Stands GroupPhrase used ts rest := by
  obtain ⟨body, hmem, used', rfl, hbody⟩ := said_by_rule [["GROUP", "BY", "field"]] rfl rfl h
  obtain rfl := List.mem_singleton.mp hmem
  simp (disch := decide) only [derives_terminal_iff] at hbody
  obtain ⟨g, _, rfl, hg, b, ts, rfl, hb, hfield⟩ := hbody
  obtain ⟨hkinds, -⟩ := inner_said (by decide) hfield
  obtain ⟨-, name, hname⟩ := field_said hfield
  have hdot : ¬ Next (fun d => d.kind = .dot) rest :=
    hrest.not_next fun _ => Boundary.ne_kind (by decide) (by decide)
  refine ⟨_, .present (hg.isKeyword rfl) (hb.isKeyword rfl) (hname rest hdot), ?_⟩
  rw [clauseKinds_cons_some rfl, hkinds]
  rfl

theorem concurrent_said (h : Says ["concurrent-clause"] used ts) (hrest : Next Boundary rest) :
    clauseKinds used = [] ∧ (∃ r ∈ used, r.head = "concurrent-clause") ∧
      ∃ count, ConcurrentPhrase [("concurrent", count)] (ts ++ rest) rest := by
  obtain ⟨body, hmem, used', rfl, hbody⟩ :=
    said_by_rule [["CONCURRENT"], ["CONCURRENT", "number"]] rfl rfl h
  simp only [List.mem_cons, List.not_mem_nil, or_false] at hmem
  rcases hmem with rfl | rfl
  · simp (disch := decide) only [derives_terminal_iff, derives_nil_iff] at hbody
    obtain ⟨c, _, rfl, hc, rfl, rfl⟩ := hbody
    have hnumber : ¬ Next (fun n => n.kind = .number) rest :=
      hrest.not_next fun _ => Boundary.ne_kind (by decide) (by decide)
    exact ⟨rfl, ⟨_, List.mem_cons_self, rfl⟩, _, .uncounted (hc.isKeyword rfl) hnumber⟩
  · simp (disch := decide) only [derives_terminal_iff, derives_nil_iff] at hbody
    obtain ⟨c, _, rfl, hc, n, _, rfl, hn, rfl, rfl⟩ := hbody
    exact ⟨rfl, ⟨_, List.mem_cons_self, rfl⟩, _, .counted (hc.isKeyword rfl) (hn.hasKind rfl)⟩

/-! ## 5. Assignments -/

theorem assignment_said (h : Says ["assignment"] used ts) (rest : List Token) :
    ∃ o, AssignmentPhrase o (ts ++ rest) rest ∧ clauseKinds used = [o.value.kind] := by
  obtain ⟨body, hmem, used', rfl, hbody⟩ := said_by_rule [["field", "=", "value"]] rfl rfl h
  obtain rfl := List.mem_singleton.mp hmem
  obtain ⟨hkinds, -⟩ := inner_said (by decide) hbody
  obtain ⟨used₁, used₂, ts₁, ts₂, rfl, rfl, hfield, hvalue⟩ := hbody.split
  obtain ⟨e, ts₂, rfl, he, hvalue⟩ := (derives_terminal_iff rfl).mp hvalue
  obtain ⟨-, name, hname⟩ := field_said hfield
  obtain ⟨t, v, rfl, hv⟩ := value_said hvalue
  have hsign : e.kind = .operator := he.hasKind rfl
  have hdot : ¬ Next (fun d => d.kind = .dot) (e :: t :: rest) := by
    rw [next_cons, hsign]
    decide
  have hphrase : AssignmentPhrase _ (ts₁ ++ e :: t :: rest) rest :=
    .sets (hname _ hdot) hsign (he.2.resolve_left (by decide)) hv
  refine ⟨_, by simpa using hphrase, ?_⟩
  rw [clauseKinds_cons_some rfl, hkinds]
  rfl

/-- **A list of assignments** is read to its end: after an assignment there is a comma and a shorter
list, or the end of the list. -/
theorem assignments_said : ∀ {used : List Rule} {ts : List Token},
    Says ["assignment-list"] used ts → ∀ {rest : List Token},
    ¬ Next (fun c => c.kind = .comma) rest → Stands AssignmentsPhrase used ts rest
  | used, ts, h, rest, hcomma => by
    obtain ⟨body, hmem, used', hused, hbody⟩ := said_by_rule
      [["assignment"], ["assignment", ",", "assignment-list"]] rfl rfl h
    simp only [List.mem_cons, List.not_mem_nil, or_false] at hmem
    rcases hmem with rfl | rfl
    · obtain ⟨o, hphrase, hkinds⟩ := assignment_said hbody rest
      refine ⟨[o], .last hphrase hcomma, ?_⟩
      rw [hused, clauseKinds_cons_none rfl, hkinds]
      rfl
    · obtain ⟨used₁, used₂, ts₁, ts₂, hparts, rfl, hfirst, hmore⟩ := hbody.split
      obtain ⟨c, ts₂, rfl, hc, hmore⟩ := (derives_terminal_iff rfl).mp hmore
      -- The recursion is on the rules used: those for the rest of the list are fewer.
      have hlt : used₂.length < used.length := by
        simp only [hused, hparts, List.length_cons, List.length_append]
        omega
      obtain ⟨os, hphrase', hkinds'⟩ := assignments_said hmore hcomma
      obtain ⟨o, hphrase, hkinds⟩ := assignment_said hfirst (c :: (ts₂ ++ rest))
      refine ⟨o :: os, ?_, ?_⟩
      · simpa using AssignmentsPhrase.more hphrase (hc.hasKind rfl) hphrase'
      · rw [hused, hparts, clauseKinds_cons_none rfl, clauseKinds_append, hkinds, ← hkinds']
        rfl
termination_by used => used.length

end Inner

end StoreQL.Query
