/-
# The published grammar and the reader

The table of rules says more than the reader takes in two places: a selection of several fields, and
a source that is a store with a name. Every other sentence is read, to its end, and has the nodes
that its clauses stand for; a selection of several fields is refused at its first comma.

The four statements are alike: a statement opens in one way only, and is followed by some of the
clauses that are allowed after it, each of which needs those before it. `optional_said` takes one
clause off the front of them.

Main statements: `selection_said`, `search_said`, `update_said` and `analysis_said`, one for each
statement; `severalFields_refused`, where a selection of several fields is refused; and
`parseTokens_sentence`, which puts them together.
-/
import StoreQL.Proofs.Execute.Outcome
import StoreQL.Proofs.Grammar.Phrases
import StoreQL.Proofs.Query.Completion

namespace StoreQL.Query

open Grammar (Derives Rule derives_nil_iff derives_terminal_iff)

variable {used used' : List Rule} {ts rest : List Token} {eof : Token}

/-! ## 1. Clauses that may be left out -/

/-- The symbols of the clauses that begin where another ends. -/
def boundarySymbols : List String :=
  ["order-clause", "limit-clause", "group-clause", "concurrent-clause"]

theorem boundary_body : ∀ s ∈ boundarySymbols, queryGrammar.isNonTerminal s = true ∧
    ∀ r ∈ queryGrammar.rulesFor s, ∃ word ∈ clauseWords, r.body.head? = some word := by
  decide +kernel

theorem clauseWords_class : ∀ word ∈ clauseWords,
    queryGrammar.isNonTerminal word = false ∧ namedKind word = .keyword := by
  decide +kernel

/-- What is left of the clauses begins with a word for one of them, or there is nothing left. -/
theorem boundary_said {tail next : List String} (hend : eof.kind = .endOfInput)
    (hnext : next ⊆ boundarySymbols) (htail : tail <+: next) (h : Says tail used ts) :
    Next Boundary (ts ++ [eof]) := by
  cases tail with
  | nil =>
    obtain ⟨-, rfl⟩ := derives_nil_iff.mp h
    exact .inl hend
  | cons s tail =>
    have hs : s ∈ boundarySymbols := hnext (htail.subset List.mem_cons_self)
    obtain ⟨hsymbol, hbodies⟩ := boundary_body s hs
    obtain ⟨_, _, ts₁, ts₂, -, rfl, hclause, -⟩ := h.split
    obtain ⟨r, hr, _, -, hbody⟩ := hclause.by_rule hsymbol
    obtain ⟨word, hword, hhead⟩ := hbodies r hr
    obtain ⟨body, heq⟩ := List.head?_eq_some_iff.mp hhead
    obtain ⟨hterminal, hkeyword⟩ := clauseWords_class word hword
    rw [heq] at hbody
    obtain ⟨t, ts₁, rfl, ht, -⟩ := (derives_terminal_iff hterminal).mp hbody
    exact .inr ⟨word, hword, ht.isKeyword hkeyword⟩

/-- **A clause that may be left out**: it stands at the front of the tokens, or nothing is left. -/
theorem optional_said {phrase : List (Outline Node) → List Token → List Token → Prop}
    {clause : String} {tail : List String} (next : List String) (hend : eof.kind = .endOfInput)
    (habsent : phrase [] [eof] [eof])
    (hpresent : ∀ {used ts rest}, Says [clause] used ts → Next Boundary rest →
      Stands phrase used ts rest)
    (hnext : next ⊆ boundarySymbols) (htail : tail <+: clause :: next) (h : Says tail used ts) :
    ∃ ss tail' used₁ used₂ ts₁ ts₂, used = used₁ ++ used₂ ∧ ts = ts₁ ++ ts₂ ∧ ss ⊆ [clause] ∧
      Says ss used₁ ts₁ ∧ tail' <+: next ∧ Says tail' used₂ ts₂ ∧ Next Boundary (ts₂ ++ [eof]) ∧
      Stands phrase used₁ ts₁ (ts₂ ++ [eof]) := by
  cases tail with
  | nil =>
    obtain ⟨rfl, rfl⟩ := derives_nil_iff.mp h
    exact ⟨[], [], [], [], [], [], rfl, rfl, List.nil_subset _, .done, List.nil_prefix, .done,
      .inl hend, [], habsent, rfl⟩
  | cons s tail =>
    obtain ⟨rfl, hshort⟩ := List.cons_prefix_cons.mp htail
    obtain ⟨used₁, used₂, ts₁, ts₂, rfl, rfl, hclause, hrest⟩ := h.split
    have hboundary := boundary_said hend hnext hshort hrest
    exact ⟨[s], tail, used₁, used₂, ts₁, ts₂, rfl, rfl, List.Subset.refl _, hclause, hshort, hrest,
      hboundary, hpresent hclause hboundary⟩

/-- The last of the clauses that may be left out. -/
theorem last_said {phrase : List (Outline Node) → List Token → List Token → Prop}
    {clause : String} {tail : List String} (hend : eof.kind = .endOfInput)
    (habsent : phrase [] [eof] [eof])
    (hpresent : ∀ {used ts rest}, Says [clause] used ts → Next Boundary rest →
      Stands phrase used ts rest)
    (htail : tail <+: [clause]) (h : Says tail used ts) : Stands phrase used ts [eof] := by
  obtain ⟨_, tail, used₁, used₂, ts₁, ts₂, rfl, rfl, -, -, htail, hrest, -, hstands⟩ :=
    optional_said [] hend habsent hpresent (List.nil_subset _) htail h
  obtain rfl := List.prefix_nil.mp htail
  obtain ⟨rfl, rfl⟩ := derives_nil_iff.mp hrest
  rwa [List.append_nil, List.append_nil]

theorem end_not_isKeyword (hend : eof.kind = .endOfInput) (word : String) :
    ¬ Next (fun t => t.isKeyword word = true) [eof] := by
  rw [next_cons]
  intro h
  rw [Reader.kind_of_isKeyword h] at hend
  cases hend

/-- The number of workers, if the clause for it is not left out. -/
theorem workers_said {tail : List String} (hend : eof.kind = .endOfInput)
    (htail : tail <+: ["concurrent-clause"]) (h : Says tail used ts) :
    clauseKinds used = [] ∧ ∃ attributes, ConcurrentPhrase attributes (ts ++ [eof]) [eof] ∧
      ((Dictionary.find? "concurrent" attributes).isSome ↔
        ∃ r ∈ used, r.head = "concurrent-clause") := by
  cases tail with
  | nil =>
    obtain ⟨rfl, rfl⟩ := derives_nil_iff.mp h
    exact ⟨rfl, [], .absent (end_not_isKeyword hend _), by simp [Dictionary.find?]⟩
  | cons s tail =>
    obtain ⟨rfl, hshort⟩ := List.cons_prefix_cons.mp htail
    obtain rfl := List.prefix_nil.mp hshort
    have hboundary : Next Boundary [eof] := .inl hend
    obtain ⟨hkinds, hused, count, hphrase⟩ := concurrent_said h hboundary
    exact ⟨hkinds, _, hphrase, by simpa [Dictionary.find?] using hused⟩

/-! ## 2. Statements -/

/-- A statement of the reader's grammar that ends where the tokens do. Its nodes other than fields
are those of the clauses and assignments used, in their order, and it has a number of workers
exactly if the clause for it is used. -/
def Agrees (used : List Rule) (ts : List Token) (eof : Token) : Prop :=
  ∃ node os, StatementPhrase (.node node os) (ts ++ [eof]) [eof] ∧
    (kindsOf os).filter (· ≠ .field) = clauseKinds used ∧
    ((Dictionary.find? "concurrent" node.attributes).isSome ↔
      ∃ r ∈ used, r.head = "concurrent-clause")

theorem kindsOf_append (os os' : List (Outline Node)) :
    kindsOf (os ++ os') = kindsOf os ++ kindsOf os' :=
  List.map_append

theorem clauseKinds_filter : (clauseKinds used).filter (· ≠ .field) = clauseKinds used := by
  refine List.filter_eq_self.mpr fun kind hkind => ?_
  obtain ⟨r, -, hr⟩ := List.mem_filterMap.mp hkind
  rw [decide_eq_true_eq]
  rintro rfl
  unfold clauseKind? at hr
  split at hr <;> cases hr

/-- Under a statement stand some fields and then what the clauses used stand for. -/
theorem Agrees.of_phrase {node : Node} (fields os : List (Outline Node))
    (hphrase : StatementPhrase (.node node (fields ++ os)) (ts ++ [eof]) [eof])
    (hfields : ∀ o ∈ fields, o.value.kind = .field) (hos : kindsOf os = clauseKinds used)
    (hworkers : (Dictionary.find? "concurrent" node.attributes).isSome ↔
      ∃ r ∈ used, r.head = "concurrent-clause") : Agrees used ts eof := by
  refine ⟨node, _, hphrase, ?_, hworkers⟩
  have hnone : (kindsOf fields).filter (· ≠ .field) = [] := by
    simpa [List.filter_eq_nil_iff, kindsOf] using hfields
  rw [kindsOf_append, List.filter_append, hnone, hos, clauseKinds_filter, List.nil_append]

/-- Only an update has a number of workers. -/
theorem not_concurrent {ss : List String}
    (hss : ∀ s ∈ ss, s ∉ ["query", "update-stmt", "concurrent-clause"]) (h : Says ss used ts) :
    ∀ r ∈ used, r.head ≠ "concurrent-clause" := by
  have hclosed : ∀ r ∈ queryGrammar.rules, r.head ∉ ["query", "update-stmt", "concurrent-clause"] →
      ∀ s ∈ r.body, s ∉ ["query", "update-stmt", "concurrent-clause"] := by decide +kernel
  intro r hr hhead
  have hnot := (h.within hclosed hss).1 r hr
  rw [hhead] at hnot
  exact hnot (by decide)

/-- What is used before a clause for the number of workers does not say one. -/
theorem concurrent_append {p : Prop} (hused : ∀ r ∈ used, r.head ≠ "concurrent-clause")
    (hp : p ↔ ∃ r ∈ used', r.head = "concurrent-clause") :
    p ↔ ∃ r ∈ used ++ used', r.head = "concurrent-clause" := by
  rw [hp]
  constructor
  · rintro ⟨r, hr, hhead⟩
    exact ⟨r, List.mem_append_right _ hr, hhead⟩
  · rintro ⟨r, hr, hhead⟩
    exact ⟨r, (List.mem_append.mp hr).resolve_left fun hr => hused r hr hhead, hhead⟩

/-- A word, an entity, a condition and one more clause, of which the clauses may be left out. -/
theorem entity_clauses_said {phrase : List (Outline Node) → List Token → List Token → Prop}
    {head word clause : String} (hend : eof.kind = .endOfInput) (habsent : phrase [] [eof] [eof])
    (hpresent : ∀ {used ts rest}, Says [clause] used ts → Next Boundary rest →
      Stands phrase used ts rest)
    (hsymbols : queryGrammar.isNonTerminal head = true ∧ queryGrammar.isNonTerminal word = false)
    (hforms : ∀ r ∈ queryGrammar.rulesFor head,
      r.body.take 2 = [word, "entity"] ∧ r.body.drop 2 <+: ["where-clause", clause])
    (hkind : clauseKind? head = none) (hclause : clause ∈ boundarySymbols)
    (h : Says [head] used ts) :
    ∃ s e ts₁ ts₂ filters os, ts ++ [eof] = s :: e :: ts₁ ∧ Names word s ∧ e.kind = .identifier ∧
      FilterPhrase filters ts₁ ts₂ ∧ phrase os ts₂ [eof] ∧
      kindsOf (filters ++ os) = clauseKinds used := by
  obtain ⟨r, tail, used, rfl, hr, htail, hbody⟩ :=
    opening_said [word, "entity"] ["where-clause", clause] hsymbols.1 hforms h
  obtain ⟨s, _, rfl, hs, hbody⟩ := (derives_terminal_iff hsymbols.2).mp hbody
  obtain ⟨used₀, _, _, _, rfl, rfl, hentity, hclauses⟩ := Derives.split hbody
  obtain ⟨e, rfl, he⟩ := entity_said hentity
  obtain ⟨hkinds, -⟩ := inner_said (by decide) hentity
  obtain ⟨_, _, used₁, used₂, ts₁, ts₂, rfl, rfl, -, -, htail, hclauses, -, filters, hfilters,
    hfkinds⟩ := optional_said [clause] hend (.absent (end_not_isKeyword hend _)) filter_said
      (List.cons_subset.mpr ⟨hclause, List.nil_subset _⟩) htail hclauses
  obtain ⟨os, hos, hokinds⟩ := last_said hend habsent hpresent htail hclauses
  refine ⟨s, e, _, _, filters, os, by simp, hs, he, hfilters, hos, ?_⟩
  rw [kindsOf_append, hfkinds, hokinds, clauseKinds_cons_none (by rw [hr, hkind]),
    clauseKinds_append, clauseKinds_append, hkinds, List.nil_append]

theorem search_said (hend : eof.kind = .endOfInput) (h : Says ["find-stmt"] used ts) :
    Agrees used ts eof := by
  obtain ⟨s, e, ts₁, ts₂, filters, orders, htokens, hs, he, hfilters, horders, hkinds⟩ :=
    entity_clauses_said hend (.absent (end_not_isKeyword hend _)) order_said
      (by decide : _ ∧ queryGrammar.isNonTerminal "FIND" = false) (by decide) rfl (by decide) h
  have hphrase := StatementPhrase.find (hs.isKeyword rfl) (.inl he) hfilters horders
  rw [← htokens] at hphrase
  refine .of_phrase [_] (filters ++ orders) hphrase (by simp [Outline.value]) hkinds ?_
  simpa [Dictionary.find?] using not_concurrent (by decide) h

theorem analysis_said (hend : eof.kind = .endOfInput) (h : Says ["analyze-stmt"] used ts) :
    Agrees used ts eof := by
  obtain ⟨s, e, ts₁, ts₂, filters, groups, htokens, hs, he, hfilters, hgroups, hkinds⟩ :=
    entity_clauses_said hend (.absent (end_not_isKeyword hend _)) group_said
      (by decide : _ ∧ queryGrammar.isNonTerminal "ANALYZE" = false) (by decide) rfl (by decide) h
  have hphrase := StatementPhrase.analyze (hs.isKeyword rfl) he hfilters hgroups
  rw [← htokens] at hphrase
  refine .of_phrase [_] (filters ++ groups) hphrase (by simp [Outline.value]) hkinds ?_
  simpa [Dictionary.find?] using not_concurrent (by decide) h

/-- After a condition, or where there is none, there is no comma. -/
theorem FilterPhrase.not_comma {os : List (Outline Node)} (h : FilterPhrase os ts rest)
    (hrest : Next Boundary rest) : ¬ Next (fun c => c.kind = .comma) ts := by
  cases h with
  | absent => exact hrest.not_next fun _ => Boundary.ne_kind (by decide) (by decide)
  | present hw =>
    rw [next_cons, Reader.kind_of_isKeyword hw]
    decide

theorem update_said (hend : eof.kind = .endOfInput) (h : Says ["update-stmt"] used ts) :
    Agrees used ts eof := by
  obtain ⟨r, tail, used, rfl, hr, htail, hbody⟩ :=
    opening_said ["UPDATE", "entity", "SET", "assignment-list"]
      ["where-clause", "concurrent-clause"] rfl (by decide) h
  obtain ⟨s, _, rfl, hs, hbody⟩ := (derives_terminal_iff rfl).mp hbody
  obtain ⟨used₀, _, _, _, rfl, rfl, hentity, hset⟩ := Derives.split hbody
  obtain ⟨e, rfl, he⟩ := entity_said hentity
  obtain ⟨hkinds, -⟩ := inner_said (by decide) hentity
  obtain ⟨w, _, rfl, hw, hset⟩ := (derives_terminal_iff rfl).mp hset
  obtain ⟨used₁, _, ts₁, _, rfl, rfl, hlist, hclauses⟩ := Derives.split hset
  obtain ⟨ss, _, used₂, used₃, ts₂, ts₃, rfl, rfl, hss, hfilter, htail, hclauses, hboundary,
    filters, hfilters, hfkinds⟩ := optional_said ["concurrent-clause"] hend
      (.absent (end_not_isKeyword hend _)) filter_said (by decide) htail hclauses
  obtain ⟨hckinds, attributes, hattributes, hworkers⟩ := workers_said hend htail hclauses
  obtain ⟨assignments, hassignments, hakinds⟩ :=
    assignments_said hlist (hfilters.not_comma hboundary)
  have hphrase := StatementPhrase.update (hs.isKeyword rfl) he (hw.isKeyword rfl) hassignments
    hfilters hattributes
  refine .of_phrase [_] (assignments ++ filters) (by simpa using hphrase) ?_ ?_ ?_
  · simp [Outline.value]
  · rw [kindsOf_append, hakinds, hfkinds, clauseKinds_cons_none (by rw [hr]; rfl),
      clauseKinds_append, clauseKinds_append, clauseKinds_append, hkinds, hckinds, List.nil_append,
      List.append_nil]
  · -- Only the last part of the derivation can have a clause for the number of workers.
    have hrule : ∀ r' ∈ [r], r'.head ≠ "concurrent-clause" := by simp [hr]
    refine concurrent_append hrule ?_
    refine concurrent_append (not_concurrent (by decide) hentity) ?_
    refine concurrent_append (not_concurrent (by decide) hlist) ?_
    refine concurrent_append (not_concurrent (fun s hs => ?_) hfilter) hworkers
    rw [List.mem_singleton.mp (hss hs)]
    decide

/-! ## 3. Selections -/

/-- The rule for several fields. -/
def severalFieldsRule : Rule := ⟨"field-list", ["field", ",", "field-list"]⟩

/-- The rule for a store with a name. -/
def namedStoreRule : Rule := ⟨"source", ["store", "string"]⟩

/-- Only a selection has a list of fields. -/
theorem not_severalFields {ss : List String}
    (hss : ∀ s ∈ ss, s ∉ ["query", "select-stmt", "field-list"]) (h : Says ss used ts) :
    severalFieldsRule ∉ used := by
  have hclosed : ∀ r ∈ queryGrammar.rules, r.head ∉ ["query", "select-stmt", "field-list"] →
      ∀ s ∈ r.body, s ∉ ["query", "select-stmt", "field-list"] := by decide +kernel
  exact fun hr => absurd ((h.within hclosed hss).1 _ hr) (by decide)

/-- A list of one field, or `*`. -/
theorem projection_said (h : Says ["field-list"] used ts) (hone : severalFieldsRule ∉ used) :
    clauseKinds used = [] ∧ ∃ name, ∀ rest, ¬ Next (fun d => d.kind = .dot) rest →
      ProjectionPhrase name (ts ++ rest) rest := by
  obtain ⟨body, hmem, used', rfl, hbody⟩ :=
    said_by_rule [["field"], ["field", ",", "field-list"], ["*"]] rfl rfl h
  simp only [List.mem_cons, List.not_mem_nil, or_false] at hmem
  rcases hmem with rfl | rfl | rfl
  · obtain ⟨hkinds, -⟩ := inner_said (by decide) hbody
    obtain ⟨-, name, hname⟩ := field_said hbody
    exact ⟨hkinds, name, fun rest hrest => .field (hname rest hrest)⟩
  · exact absurd List.mem_cons_self hone
  · simp (disch := decide) only [derives_terminal_iff, derives_nil_iff] at hbody
    obtain ⟨t, _, rfl, ht, rfl, rfl⟩ := hbody
    exact ⟨rfl, "*", fun rest _ => .whole (ht.hasKind rfl)⟩

theorem source_said (h : Says ["source"] used ts) (hplain : namedStoreRule ∉ used) :
    ∃ e, ts = [e] ∧ e.kind = .identifier := by
  obtain ⟨body, hmem, used', rfl, hbody⟩ := said_by_rule [["entity"], ["store", "string"]] rfl rfl h
  simp only [List.mem_cons, List.not_mem_nil, or_false] at hmem
  rcases hmem with rfl | rfl
  · exact entity_said hbody
  · exact absurd List.mem_cons_self hplain

theorem selection_said (hend : eof.kind = .endOfInput) (h : Says ["select-stmt"] used ts)
    (hone : severalFieldsRule ∉ used) (hplain : namedStoreRule ∉ used) : Agrees used ts eof := by
  have hworkers := not_concurrent (by decide) h
  obtain ⟨r, tail, used, rfl, hr, htail, hbody⟩ :=
    opening_said ["SELECT", "field-list", "FROM", "source"]
      ["where-clause", "order-clause", "limit-clause"] rfl (by decide) h
  obtain ⟨s, _, rfl, hs, hbody⟩ := (derives_terminal_iff rfl).mp hbody
  obtain ⟨used₀, _, ts₀, _, rfl, rfl, hfields, hfrom⟩ := Derives.split hbody
  obtain ⟨f, _, rfl, hf, hfrom⟩ := (derives_terminal_iff rfl).mp hfrom
  obtain ⟨used₁, _, _, _, rfl, rfl, hsource, hclauses⟩ := Derives.split hfrom
  simp only [List.mem_cons, List.mem_append, not_or] at hone hplain
  obtain ⟨hkinds, name, hname⟩ := projection_said hfields hone.2.1
  obtain ⟨e, rfl, he⟩ := source_said hsource hplain.2.2.1
  obtain ⟨hskinds, -⟩ := inner_said (by decide) hsource
  obtain ⟨_, _, used₂, _, ts₂, _, rfl, rfl, -, -, htail, hclauses, -, filters, hfilters, hfkinds⟩ :=
    optional_said ["order-clause", "limit-clause"] hend (.absent (end_not_isKeyword hend _))
      filter_said (by decide) htail hclauses
  obtain ⟨_, _, used₃, used₄, ts₃, ts₄, rfl, rfl, -, -, htail, hclauses, -, orders, horders,
    hokinds⟩ := optional_said ["limit-clause"] hend (.absent (end_not_isKeyword hend _)) order_said
      (by decide) htail hclauses
  obtain ⟨limits, hlimits, hlkinds⟩ := last_said hend (.absent (end_not_isKeyword hend _))
    (fun h _ => limit_said h) htail hclauses
  have hdot : ¬ Next (fun d => d.kind = .dot) (f :: e :: (ts₂ ++ (ts₃ ++ ts₄ ++ [eof]))) := by
    rw [next_cons, hf.hasKind rfl]
    decide
  rw [List.append_assoc ts₃] at hfilters hdot
  have hphrase := StatementPhrase.select (hs.isKeyword rfl) (hname _ hdot) (hf.isKeyword rfl)
    (.inl he) hfilters horders hlimits
  refine .of_phrase [_, _] (filters ++ orders ++ limits) (by simpa using hphrase) ?_ ?_ ?_
  · simp [Outline.value]
  · rw [kindsOf_append, kindsOf_append, hfkinds, hokinds, hlkinds,
      clauseKinds_cons_none (by rw [hr]; rfl)]
    simp only [clauseKinds_append, hkinds, hskinds, List.nil_append, List.append_assoc]
  · simpa [Dictionary.find?] using hworkers

/-- A list of several fields begins with a field and a comma. -/
theorem severalFields_said (h : Says ["field-list"] used ts) (hused : severalFieldsRule ∈ used) :
    ∃ name first c post, ts = first ++ c :: post ∧ c.kind = .comma ∧
      (∀ t ∈ first, t.kind = .identifier ∨ t.kind = .dot) ∧
      ∀ rest, FieldPhrase name (first ++ c :: rest) (c :: rest) := by
  obtain ⟨body, hmem, used', rfl, hbody⟩ :=
    said_by_rule [["field"], ["field", ",", "field-list"], ["*"]] rfl rfl h
  simp only [List.mem_cons, List.not_mem_nil, or_false] at hmem
  rcases hmem with rfl | rfl | rfl
  · rcases List.mem_cons.mp hused with heq | hused
    · exact absurd heq (by decide)
    · exact absurd hused (not_severalFields (by decide) hbody)
  · obtain ⟨_, _, first, _, rfl, rfl, hfield, hmore⟩ := hbody.split
    obtain ⟨c, post, rfl, hc, -⟩ := (derives_terminal_iff rfl).mp hmore
    have hcomma : c.kind = .comma := hc.hasKind rfl
    obtain ⟨hkinds, name, hname⟩ := field_said hfield
    refine ⟨name, first, c, post, rfl, hcomma, hkinds, fun rest => hname _ ?_⟩
    rw [next_cons, hcomma]
    decide
  · rcases List.mem_cons.mp hused with heq | hused
    · exact absurd heq (by decide)
    · exact absurd hused (not_severalFields (by decide) hbody)

/-- What is selected is refused at a comma after the first field. -/
theorem projection_severalFields {name : String} {c : Token}
    (h : FieldPhrase name ts (c :: rest)) (hc : c.kind = .comma) :
    projection ts = .error ⟨.severalFields, c :: rest⟩ := by
  have hfield : ∃ f, field .fieldList ts = .ok (f, c :: rest) ∧ f.text = name := field_iff.mpr h
  obtain ⟨f, hf, -⟩ := hfield
  have hstar : ¬ Next (fun t => decide (t.kind = .asterisk) = true) ts := by
    refine h.next.not_next fun t ht => ?_
    rw [ht]
    decide
  have hprojected : projected ts = .ok (.field f, c :: rest) := by
    rw [projected_eq, Reader.ifNext_of_not_next hstar]
    exact Reader.andThen_eq_ok_iff.mpr ⟨f, _, hf, rfl⟩
  have hcomma : Next (fun t => decide (t.kind = .comma) = true) (c :: rest) := decide_eq_true hc
  simp only [projection_eq, Reader.andThen, hprojected]
  exact Reader.ifNext_of_next hcomma

theorem parseTokens_severalFields {name : String} {s c : Token} (hs : s.isKeyword "SELECT" = true)
    (h : FieldPhrase name ts (c :: rest)) (hc : c.kind = .comma) :
    parseTokens (s :: ts) = .error (.severalFields c.position) := by
  refine (parseTokens_eq_error_iff (by simp)).mpr ⟨?_, ⟨.severalFields, c :: rest⟩, ?_, rfl⟩
  · simp [isEmptyQuery, Reader.kind_of_isKeyword hs]
  · have hselect : Next (fun t => t.isKeyword "SELECT" = true) (s :: ts) := hs
    rw [statement_eq, Reader.ifNext_of_next hselect, selectStatement_eq]
    show projection ts >>= _ = _
    rw [projection_severalFields h hc]
    rfl

/-- **A selection of several fields** is refused at its first comma. -/
theorem severalFields_refused (h : Says ["select-stmt"] used ts)
    (hseveral : severalFieldsRule ∈ used) (eof : Token) :
    ∃ before c after, ts = before ++ c :: after ∧ c.kind = .comma ∧
      (∀ t ∈ before, t.kind ≠ .comma ∧ ¬ t.isKeyword "FROM") ∧
      parseTokens (ts ++ [eof]) = .error (.severalFields c.position) := by
  obtain ⟨r, tail, used, rfl, hr, htail, hbody⟩ :=
    opening_said ["SELECT", "field-list", "FROM", "source"]
      ["where-clause", "order-clause", "limit-clause"] rfl (by decide) h
  obtain ⟨s, _, rfl, hs, hbody⟩ := (derives_terminal_iff rfl).mp hbody
  obtain ⟨used₀, used₁, ts₀, ts₁, rfl, rfl, hfields, hrest⟩ := Derives.split hbody
  have hselect : s.isKeyword "SELECT" = true := hs.isKeyword rfl
  -- The rule can have been used only for the list of fields, since nothing after it leads there.
  have hafter : ∀ s ∈ "FROM" :: "source" :: tail, s ∉ ["query", "select-stmt", "field-list"] := by
    intro s hs
    have hclauses : ∀ s ∈ ["FROM", "source", "where-clause", "order-clause", "limit-clause"],
        s ∉ ["query", "select-stmt", "field-list"] := by decide
    have hshort : "FROM" :: "source" :: tail <+:
        ["FROM", "source", "where-clause", "order-clause", "limit-clause"] :=
      (List.prefix_append_right_inj ["FROM", "source"]).mpr htail
    exact hclauses s (hshort.subset hs)
  have hused : severalFieldsRule ∈ used₀ := by
    rcases List.mem_cons.mp hseveral with rfl | hseveral
    · exact absurd hr (by decide)
    · exact (List.mem_append.mp hseveral).resolve_right (not_severalFields hafter hrest)
  obtain ⟨name, first, c, post, rfl, hc, hfirst, hphrase⟩ := severalFields_said hfields hused
  refine ⟨s :: first, c, post ++ ts₁, by simp, hc, fun t ht => ?_, ?_⟩
  · rcases List.mem_cons.mp ht with rfl | ht
    · refine ⟨fun h => ?_, fun h => ?_⟩
      · rw [Reader.kind_of_isKeyword hselect] at h
        cases h
      · exact absurd (Reader.isKeyword_unique hselect h) (by decide)
    · refine ⟨fun h => ?_, fun h => ?_⟩
      · simpa [h] using hfirst t ht
      · simpa [Reader.kind_of_isKeyword h] using hfirst t ht
  · simpa using parseTokens_severalFields hselect (hphrase (post ++ (ts₁ ++ [eof]))) hc

/-! ## 4. Sentences -/

/-- A query is one of the statements. -/
theorem Agrees.query (h : Agrees used ts eof) (body : List String) :
    Agrees (⟨"query", body⟩ :: used) ts eof := by
  obtain ⟨node, os, hphrase, hkinds, hworkers⟩ := h
  refine ⟨node, os, hphrase, ?_, ?_⟩
  · rw [clauseKinds_cons_none rfl, hkinds]
  · rw [hworkers]
    simp

/-- A statement that agrees with a derivation is read, and its tree has the nodes. -/
theorem Agrees.parses (h : Agrees used ts eof) :
    ∃ s, statement (ts ++ [eof]) = .ok (s, [eof]) ∧ parseTokens (ts ++ [eof]) = .ok s.tree ∧
      ∃ handle node, s.tree.statement? = some (handle, node) ∧
        ((s.tree.children handle).map fun c => c.2.kind).filter (· ≠ .field) = clauseKinds used ∧
        ((Dictionary.find? "concurrent" node.attributes).isSome ↔
          ∃ r ∈ used, r.head = "concurrent-clause") := by
  obtain ⟨node, os, hphrase, hkinds, hworkers⟩ := h
  obtain ⟨s, hs, hout⟩ := statement_iff.mpr hphrase
  have hheld := outline_holds s
  have hstatement := statement?_tree s
  rw [hout] at hheld hstatement
  refine ⟨s, hs, parseTokens_eq_ok.mpr ⟨s, ⟨_, hs⟩, rfl⟩, 1, node, hstatement, ?_, hworkers⟩
  have hvalues := congrArg (List.map Node.kind) (Tree.children_values_of_holds hheld)
  rw [List.map_map, List.map_map] at hvalues
  exact (congrArg (List.filter _) hvalues).trans hkinds

/-- **The published grammar and the reader agree.** A sentence of the grammar, with any tokens for
its words and the end after them, is read to its end if it is not one of the two kinds that the
reader does not take; the nodes of the statement other than fields are those of its clauses and
assignments, one for each and in their order, and it has a number of workers exactly if there is a
clause for it. A selection of several fields is refused at the first comma of their list. -/
theorem parseTokens_sentence {words : List String}
    (hsentence : Derives queryGrammar Eq [queryGrammar.start] used words)
    (hread : List.Forall₂ Names words ts) (hend : eof.kind = .endOfInput) :
    (severalFieldsRule ∉ used → namedStoreRule ∉ used →
      ∃ s, statement (ts ++ [eof]) = .ok (s, [eof]) ∧ parseTokens (ts ++ [eof]) = .ok s.tree ∧
        ∃ handle node, s.tree.statement? = some (handle, node) ∧
          ((s.tree.children handle).map fun c => c.2.kind).filter (· ≠ .field) =
            clauseKinds used ∧
          ((Dictionary.find? "concurrent" node.attributes).isSome ↔
            ∃ r ∈ used, r.head = "concurrent-clause")) ∧
    (severalFieldsRule ∈ used →
      ∃ before c after, ts = before ++ c :: after ∧ c.kind = .comma ∧
        (∀ t ∈ before, t.kind ≠ .comma ∧ ¬ t.isKeyword "FROM") ∧
        parseTokens (ts ++ [eof]) = .error (.severalFields c.position)) := by
  have hquery : Says ["query"] used ts := hsentence.reading hread
  obtain ⟨body, hmem, used', rfl, hbody⟩ := said_by_rule
    [["select-stmt"], ["find-stmt"], ["update-stmt"], ["analyze-stmt"]] rfl rfl hquery
  have hinner {rule : Rule} (hrule : rule.head ≠ "query") :
      rule ∈ (⟨"query", body⟩ :: used' : List Rule) ↔ rule ∈ used' := by
    rw [List.mem_cons, or_iff_right]
    rintro rfl
    exact hrule rfl
  rw [hinner (by decide : severalFieldsRule.head ≠ "query"),
    hinner (by decide : namedStoreRule.head ≠ "query")]
  simp only [List.mem_cons, List.not_mem_nil, or_false] at hmem
  rcases hmem with rfl | rfl | rfl | rfl
  · refine ⟨fun hone hplain => ?_, fun hseveral => severalFields_refused hbody hseveral eof⟩
    exact ((selection_said hend hbody hone hplain).query _).parses
  · exact ⟨fun _ _ => ((search_said hend hbody).query _).parses,
      fun h => absurd h (not_severalFields (by decide) hbody)⟩
  · exact ⟨fun _ _ => ((update_said hend hbody).query _).parses,
      fun h => absurd h (not_severalFields (by decide) hbody)⟩
  · exact ⟨fun _ _ => ((analysis_said hend hbody).query _).parses,
      fun h => absurd h (not_severalFields (by decide) hbody)⟩

/-- An update of one field is read, and a selection of a field and all of them is refused. -/
theorem parseTokens_sentence_update :
    (∃ s used, Derives queryGrammar Eq [queryGrammar.start] used
        ["UPDATE", "orders", "SET", "identifier", "=", "number"] ∧
      clauseKinds used = [.assignment] ∧
      statement [someWord "UPDATE", ⟨.identifier, "orders", .start⟩, someWord "SET", someName,
          ⟨.operator, "=", .start⟩, someNumber, ⟨.endOfInput, "", .start⟩] =
        .ok (s, [⟨.endOfInput, "", .start⟩])) ∧
    ∃ (c : Token) (used : List Rule), Derives queryGrammar Eq [queryGrammar.start] used
        ["SELECT", "identifier", ",", "*", "FROM", "orders"] ∧
      severalFieldsRule ∈ used ∧ c.kind = .comma ∧
      parseTokens [someWord "SELECT", someName, ⟨.comma, ",", ⟨1, 9⟩⟩, ⟨.asterisk, "*", .start⟩,
          someWord "FROM", ⟨.identifier, "orders", .start⟩, ⟨.endOfInput, "", .start⟩] =
        .error (.severalFields c.position) := by
  have hentity {ss : List String} {used : List Rule} {words : List String}
      (h : Derives queryGrammar Eq ss used words) :
      Derives queryGrammar Eq ("entity" :: ss) (⟨"entity", ["orders"]⟩ :: used) ("orders" :: words) :=
    .rule (r := ⟨"entity", ["orders"]⟩) (by decide) (.terminal rfl rfl .done) h
  have hvalue : Derives queryGrammar Eq ["value"] [⟨"value", ["number"]⟩] ["number"] :=
    .rule (r := ⟨"value", ["number"]⟩) (by decide) (.terminal rfl rfl .done) .done
  have hfield {ss : List String} {used : List Rule} {words : List String}
      (h : Derives queryGrammar Eq ss used words) :
      Derives queryGrammar Eq ("field" :: ss) (⟨"field", ["identifier"]⟩ :: used)
        ("identifier" :: words) :=
    .rule (r := ⟨"field", ["identifier"]⟩) (by decide) (.terminal rfl rfl .done) h
  constructor
  · have hlist : Derives queryGrammar Eq ["assignment-list"] _ ["identifier", "=", "number"] :=
      .rule (r := ⟨"assignment-list", ["assignment"]⟩) (by decide)
        (.rule (r := ⟨"assignment", ["field", "=", "value"]⟩) (by decide)
          (hfield (.terminal rfl rfl hvalue)) .done) .done
    have hupdate : Derives queryGrammar Eq ["query"] _
        ["UPDATE", "orders", "SET", "identifier", "=", "number"] :=
      .rule (r := ⟨"query", ["update-stmt"]⟩) (by decide)
        (.rule (r := ⟨"update-stmt", ["UPDATE", "entity", "SET", "assignment-list"]⟩) (by decide)
          (.terminal rfl rfl (hentity (.terminal rfl rfl hlist))) .done) .done
    have hread : List.Forall₂ Names ["UPDATE", "orders", "SET", "identifier", "=", "number"]
        [someWord "UPDATE", ⟨.identifier, "orders", .start⟩, someWord "SET", someName,
          ⟨.operator, "=", .start⟩, someNumber] := by decide
    obtain ⟨s, hs, -⟩ := (parseTokens_sentence hupdate hread
      (rfl : Token.kind ⟨.endOfInput, "", .start⟩ = .endOfInput)).1 (by decide) (by decide)
    exact ⟨s, _, hupdate, rfl, hs⟩
  · have hselect : Derives queryGrammar Eq ["query"] _
        ["SELECT", "identifier", ",", "*", "FROM", "orders"] :=
      .rule (r := ⟨"query", ["select-stmt"]⟩) (by decide)
        (.rule (r := ⟨"select-stmt", ["SELECT", "field-list", "FROM", "source"]⟩) (by decide)
          (.terminal rfl rfl (.rule (r := severalFieldsRule) (by decide)
            (hfield (.terminal rfl rfl (.rule (r := ⟨"field-list", ["*"]⟩) (by decide)
              (.terminal rfl rfl .done) .done)))
            (.terminal rfl rfl (.rule (r := ⟨"source", ["entity"]⟩) (by decide) (hentity .done) .done))))
          .done) .done
    have hread : List.Forall₂ Names ["SELECT", "identifier", ",", "*", "FROM", "orders"]
        [someWord "SELECT", someName, ⟨.comma, ",", ⟨1, 9⟩⟩, ⟨.asterisk, "*", .start⟩,
          someWord "FROM", ⟨.identifier, "orders", .start⟩] := by decide
    obtain ⟨_, c, _, -, hc, -, hrefused⟩ := (parseTokens_sentence hselect hread
      (rfl : Token.kind ⟨.endOfInput, "", .start⟩ = .endOfInput)).2 (by decide)
    exact ⟨c, _, hselect, by decide, hc, hrefused⟩

end StoreQL.Query
