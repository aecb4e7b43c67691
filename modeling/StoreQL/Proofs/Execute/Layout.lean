/-
# The layout of a query

How a query is set out does not matter: blanks and line breaks, the case of keywords and the marks
around quotations may be chosen anew. The tokens then differ in their places only
(`tokenize_setOut`), and places come into nothing but the places of errors
(`Query.readStatement_unplaced`).

Main statements: `parseStatement_congr`, that a statement depends on what the tokens say; and
`executeQuery_layout`, that a query that is set out anew is read alike and executed alike.
-/
import StoreQL.Proofs.Query.Build
import StoreQL.Proofs.Query.Place
import StoreQL.Proofs.Token.Layout

namespace StoreQL

/-! ## 1. Errors without their places -/

/-- The error without the line and the column. -/
def LexicalError.unplaced : LexicalError → LexicalError
  | .unterminatedString _ => .unterminatedString .start
  | .unexpectedCharacter found _ => .unexpectedCharacter found .start

/-- The error without the line and the column. -/
def QueryError.unplaced : QueryError → QueryError
  | .lexical e => .lexical e.unplaced
  | .syntactic e => .syntactic e.unplaced
  | .execution e => .execution e

/-! ## 2. Texts whose tokens say the same -/

/-- Tokens that say the same are the same without their places. -/
theorem unplaced_eq_of_said {ts ts' : List Token} (h : ts.map Token.said = ts'.map Token.said) :
    ts.map Token.unplaced = ts'.map Token.unplaced := by
  have hsaid (ts : List Token) : ts.map Token.unplaced =
      (ts.map Token.said).map fun said => ⟨said.1, said.2, .start⟩ := by
    rw [List.map_map]
    rfl
  rw [hsaid, hsaid, h]

theorem forall_kind_of_said {p : Token.Kind → Prop} {ts ts' : List Token}
    (h : ts'.map Token.said = ts.map Token.said) (hts : ∀ t ∈ ts, p t.kind) :
    ∀ t ∈ ts', p t.kind := by
  intro t ht
  obtain ⟨t', ht', heq⟩ := List.mem_map.mp (h ▸ List.mem_map_of_mem ht)
  have hkind : t'.kind = t.kind := congrArg Prod.fst heq
  exact hkind ▸ hts t' ht'

/-- A text without an error token is refused for its syntax only. -/
theorem parseStatement_of_no_error {text : String} (hok : ∀ t ∈ tokenize text, t.kind ≠ .error) :
    parseStatement text = (Query.readStatement (tokenize text)).mapError .syntactic := by
  have htokens : tokenizeStrict text = .ok (tokenize text) :=
    tokenizeStrict_eq_ok_iff.mpr ⟨rfl, fun t ht => hok t (List.mem_of_getLast? ht)⟩
  rw [parseStatement, htokens]
  rfl

theorem syntactic_unplaced {α : Type} (x : Except Query.SyntaxError α) :
    (x.mapError QueryError.syntactic).mapError QueryError.unplaced =
      (x.mapError Query.SyntaxError.unplaced).mapError .syntactic := by
  rw [mapError_mapError, mapError_mapError]
  rfl

/-- **The statement of a text depends on what its tokens say**, and so does its error but for the
line and the column. -/
theorem parseStatement_congr {text text' : String} (hok : ∀ t ∈ tokenize text, t.kind ≠ .error)
    (hsaid : (tokenize text').map Token.said = (tokenize text).map Token.said) :
    (parseStatement text').mapError QueryError.unplaced =
      (parseStatement text).mapError QueryError.unplaced := by
  have hok' : ∀ t ∈ tokenize text', t.kind ≠ .error :=
    forall_kind_of_said (p := fun kind => kind ≠ .error) hsaid hok
  rw [parseStatement_of_no_error hok, parseStatement_of_no_error hok', syntactic_unplaced,
    syntactic_unplaced, ← Query.readStatement_unplaced, unplaced_eq_of_said hsaid,
    Query.readStatement_unplaced]

theorem parseQuery_congr {text text' : String}
    (h : (parseStatement text').mapError QueryError.unplaced =
      (parseStatement text).mapError QueryError.unplaced) :
    (parseQuery text').mapError QueryError.unplaced =
      (parseQuery text).mapError QueryError.unplaced := by
  rw [parseQuery_eq, parseQuery_eq, mapError_map, mapError_map, h]

theorem executeQuery_congr {text text' : String}
    (h : (parseQuery text').mapError QueryError.unplaced =
      (parseQuery text).mapError QueryError.unplaced) (store : DataStore) (limit : Nat) :
    (executeQuery store limit text').mapError QueryError.unplaced =
      (executeQuery store limit text).mapError QueryError.unplaced := by
  rw [executeQuery, executeQuery, mapError_bind, mapError_bind, h]

/-! ## 3. Texts that are set out anew -/

/-- **A query may be set out in any way.** If a text has no error token, then a text that sets its
lexemes out anew has tokens of the same kinds and texts; it has the same tree, or is refused with
the same error but for the line and the column; and on every store it gives the same result. -/
theorem executeQuery_layout {ss : List Segment} {text text' : String} (hss : Longest ss)
    (htext : segmentsText ss = text.toList) (hok : ∀ t ∈ tokenize text, t.kind ≠ .error)
    (hlayout : SetOut true ss text'.toList) :
    (tokenize text').map Token.said = (tokenize text).map Token.said ∧
      (parseQuery text').mapError QueryError.unplaced =
        (parseQuery text).mapError QueryError.unplaced ∧
      ∀ store limit, (executeQuery store limit text').mapError QueryError.unplaced =
        (executeQuery store limit text).mapError QueryError.unplaced := by
  have hsaid := tokenize_setOut hss htext hok hlayout
  have hquery := parseQuery_congr (parseStatement_congr hok hsaid)
  exact ⟨hsaid, hquery, executeQuery_congr hquery⟩

/-- A word in another case, a line break, other marks and blanks that were not there. -/
theorem executeQuery_layout_anew :
    ∃ ss, Longest ss ∧ segmentsText ss = "find a\x27b\x27".toList ∧
      (∀ t ∈ tokenize "find a\x27b\x27", t.kind ≠ .error) ∧
      SetOut true ss "Find\na  \x22b\x22 ".toList ∧
      parseQuery "Find\na  \x22b\x22 " = .ok (Query.Statement.find "a" false none).tree := by
  let ss : List Segment := [⟨[], ['f', 'i', 'n', 'd'], .keyword, "FIND"⟩,
    ⟨[' '], ['a'], .identifier, "a"⟩, ⟨[], ['\x27', 'b', '\x27'], .string, "b"⟩,
    ⟨[], [], .endOfInput, ""⟩]
  have hblank : ∀ c ∈ [' '], Text.isBlank c = true := List.all_eq_true.mp rfl
  have hss : Longest ss := by
    refine .more nofun (by decide) ?word (.more hblank (by decide) ?name
      (.more nofun (by decide) ?quotation (.last nofun (next_nil _) .nothing)))
    case word =>
      exact .keyword rfl (List.all_eq_true.mp (by decide +kernel)) (by decide) (by decide +kernel)
        (by decide)
    case name => exact .identifier rfl nofun (by decide) (by decide +kernel)
    case quotation => exact .quotation (.inr rfl) (by decide : '\x27' ∉ ['b'])
  have htext : segmentsText ss = "find a\x27b\x27".toList := by decide +kernel
  have hok : ∀ t ∈ tokenize "find a\x27b\x27", t.kind ≠ .error := by decide +kernel
  have hlayout : SetOut true ss ([] ++ (['F', 'i', 'n', 'd'] ++ (['\n'] ++ (['a'] ++
      ([' ', ' '] ++ (['\x22', 'b', '\x22'] ++ [' '])))))) := by
    have hword : Respells ss[0] ['F', 'i', 'n', 'd'] :=
      .keyword rfl rfl (List.all_eq_true.mp (by decide +kernel)) (by decide +kernel)
    have hquotation : Respells ss[2] ['\x22', 'b', '\x22'] :=
      .quotation rfl rfl (.inl rfl) (by decide : '\x22' ∉ ['b'])
    have hbreak : ∀ c ∈ ['\n'], Text.isBlank c = true := List.all_eq_true.mp rfl
    have hblanks : ∀ c ∈ [' ', ' '], Text.isBlank c = true := List.all_eq_true.mp rfl
    exact .lexeme nofun nofun hword (.lexeme nofun hbreak .same
      (.lexeme nofun hblanks hquotation (.finish hblank)))
  have htext' : [] ++ (['F', 'i', 'n', 'd'] ++ (['\n'] ++ (['a'] ++ ([' ', ' '] ++
      (['\x22', 'b', '\x22'] ++ [' ']))))) = "Find\na  \x22b\x22 ".toList := by decide +kernel
  rw [htext'] at hlayout
  obtain ⟨-, hquery, -⟩ := executeQuery_layout hss htext hok hlayout
  refine ⟨ss, hss, htext, hok, hlayout, ?_⟩
  have hplain : parseStatement "find a\x27b\x27" = .ok (.find "a" false none) := by decide +kernel
  rw [parseQuery_of_statement hplain] at hquery
  exact mapError_eq_ok_iff.mp hquery

end StoreQL
