/-
# The rendering of a query

What is shown of a query is the lines of the nodes of its tree in pre-order, which is the order of
their handles and that of the parts in the text of the query. A line says how deep its node stands
and, as the nodes of a statement are legible, what the node is; and nodes with their depths are
those of one tree. So the tree can be told from what is shown, as long as the lines can be.

They can be if no text of the query has a newline. A newline in a text that is assigned is shown as
it is, twice, so that the line of the value becomes three: what looks like the line of a node then
need not be one.

Main statements: `parseQuery_render_injective`, that the tree can be told from what is shown; and
`parseQuery_lines`, when each node is shown on one line.
-/
import Mathlib.Algebra.BigOperators.Ring.List
import StoreQL.Command.Inspect
import StoreQL.Proofs.Container.Preorder
import StoreQL.Proofs.Execute.Meaning
import StoreQL.Proofs.Query.Rendering

namespace StoreQL

open Query (Legible Node StatementPhrase SyntaxTree)
open Text

/-! ## 1. The nodes of an accepted query -/

/-- No quotation of the query has a newline. -/
def QuotesOneLine (query : String) : Prop :=
  ∀ t ∈ tokenize query, t.kind = .string → '\n' ∉ t.text.toList

instance QuotesOneLine.decidable : DecidablePred QuotesOneLine := fun query =>
  inferInstanceAs (Decidable (∀ t ∈ tokenize query, _))

variable {query query' : String} {tree tree' : SyntaxTree}

theorem parseQuery_legible (h : parseQuery query = .ok tree) :
    ∃ o rest, StatementPhrase o (tokenize query) rest ∧
      tree.Represents (.node ⟨.query, "ROOT", []⟩ [o]) ∧
      ∀ v ∈ tree.traverse, Legible query v.value := by
  obtain ⟨o, rest, hphrase, htree⟩ := parseQuery_phrase h
  refine ⟨o, rest, hphrase, htree, fun v hv => ?_⟩
  have hmem := htree.value_mem hv
  simp only [Outline.values, Outline.valuesAll, List.append_nil, List.mem_cons] at hmem
  rcases hmem with hroot | hmem
  · rw [hroot]
    exact .bare (by decide) (by decide)
  · exact hphrase.legible (List.Subset.refl _) _ hmem

namespace Query

theorem Node.newlines_eq_zero_iff {n : Node} :
    n.newlines = 0 ↔ ∀ s, n.attributes.find? "value" = some (.string s) → '\n' ∉ s.toList := by
  unfold Node.newlines
  cases n.attributes.find? "value" with
  | none => simp
  | some v => cases v <;> simp [Literal.newlines, List.count_eq_zero]

/-- A value without a newline is a quotation without one, or no quotation. -/
theorem Legible.newlines_eq_zero {n : Node} (h : Legible query n) (hquery : QuotesOneLine query) :
    n.newlines = 0 := by
  rw [Node.newlines_eq_zero_iff]
  cases h with
  | @value t v ht hv =>
    intro s hs
    simp only [Dictionary.find?, if_true, Option.some.injEq] at hs
    rw [← List.count_eq_zero]
    have hnewlines : v.newlines = 0 := by
      cases hv with
      | string hkind => exact List.count_eq_zero.mpr (hquery t ht hkind)
      | number hkind =>
        exact Literal.newlines_ofNumeral t.text
          (Query.newline_notMem_text ht (Query.plain_number hkind).goesOn (by simp [hkind]))
      | _ => rfl
    rwa [hs] at hnewlines
  | @update workers _ => cases workers <;> simp [Query.workerAttributes, Dictionary.find?]
  | _ => simp [Dictionary.find?]

end Query

/-! ## 2. The tree can be told from what is shown -/

theorem newline_notMem_indented_iff {n : Node} {depth : Nat} :
    '\n' ∉ n.indented depth ↔ '\n' ∉ n.shown := by
  rw [← List.count_eq_zero, n.count_newline_indented, List.count_eq_zero]

/-- If no quotation has a newline, the lines that are shown are those of the nodes. -/
theorem linesOf_render (h : parseQuery query = .ok tree) (hquery : QuotesOneLine query) :
    LinesOf tree.render.toList (tree.traverse.map fun v => v.value.indented v.depth) := by
  obtain ⟨o, rest, -, -, hlegible⟩ := parseQuery_legible h
  refine ⟨SyntaxTree.render_toList tree, fun l hl => ?_⟩
  obtain ⟨v, hv, rfl⟩ := List.mem_map.mp hl
  have hv := hlegible v hv
  rw [newline_notMem_indented_iff, ← List.count_eq_zero, hv.count_newline,
    hv.newlines_eq_zero hquery]

/-- **The tree of a query can be told from what is shown of it.** The handles of an accepted query
count up in pre-order, and its nodes are those of the statement phrase with which its tokens begin,
in the order of the text. If no quotation of two accepted queries has a newline and what is shown of
them is the same, their trees are the same, with the scales of the numbers. -/
theorem parseQuery_render_injective :
    (∀ query tree, parseQuery query = .ok tree →
      tree.traverse.map Tree.Visit.handle = List.range tree.size ∧
      ∃ o rest, StatementPhrase o (tokenize query) rest ∧
        tree.Represents (.node ⟨.query, "ROOT", []⟩ [o])) ∧
    ∀ query query' tree tree', parseQuery query = .ok tree → parseQuery query' = .ok tree' →
      QuotesOneLine query → QuotesOneLine query' → tree.render = tree'.render → tree = tree' := by
  constructor
  · intro query tree h
    obtain ⟨o, rest, hphrase, htree, -⟩ := parseQuery_legible h
    exact ⟨htree.traverse_handles, o, rest, hphrase, htree⟩
  · intro query query' tree tree' h h' hquery hquery' hrender
    obtain ⟨o, -, -, htree, hlegible⟩ := parseQuery_legible h
    obtain ⟨o', -, -, htree', hlegible'⟩ := parseQuery_legible h'
    have hlines := linesOf_render h hquery
    have hlines' := linesOf_render h' hquery'
    rw [← hrender] at hlines'
    refine htree.eq_of_traverse htree' (map_eq_map_of_determined ?_ (hlines.unique hlines'))
    intro v hv v' hv' hshown
    obtain ⟨hdepth, hshown⟩ := Node.indented_inj hshown
    rw [hdepth, (hlegible v hv).eq_of_shown (hlegible' v' hv') hshown]

/-- A number that is too large for a decimal is kept as its text, so it is shown as a quotation of
the same digits is, and the trees are the same. -/
theorem parseQuery_render_injective_large :
    let query := "UPDATE p SET a = 99999999999999999999999999999999"
    let query' := "update p set a = '99999999999999999999999999999999'"
    ∃ tree tree', parseQuery query = .ok tree ∧ parseQuery query' = .ok tree' ∧
      QuotesOneLine query ∧ QuotesOneLine query' ∧ tree.render = tree'.render ∧ tree = tree' ∧
      tree.traverse.map Tree.Visit.handle = List.range 6 := by
  intro query query'
  let s : Query.Statement := .update "p"
    [⟨⟨"a", none⟩, .string "99999999999999999999999999999999"⟩] false none
  have hparse : parseQuery query = .ok s.tree :=
    parseQuery_of_statement (by decide +kernel)
  have hparse' : parseQuery query' = .ok s.tree :=
    parseQuery_of_statement (by decide +kernel)
  have hquery : QuotesOneLine query := by decide +kernel
  have hquery' : QuotesOneLine query' := by decide +kernel
  obtain ⟨hpreorder, hinjective⟩ := parseQuery_render_injective
  exact ⟨_, _, hparse, hparse', hquery, hquery', rfl,
    hinjective _ _ _ _ hparse hparse' hquery hquery' rfl, (hpreorder _ _ hparse).1⟩

/-! ## 3. Each node on one line -/

/-- The line is that of the node which is visited, and begins with two blanks for each step of its
depth and no more. -/
def ShownAs (v : Tree.Visit Node) (line : List Char) : Prop :=
  (v.value.line v.depth).toList = line ++ ['\n'] ∧
    ∃ rest, line = List.replicate (2 * v.depth) ' ' ++ rest ∧ ¬ Next (fun c => c = ' ') rest

/-- What is shown of a tree is as many lines as it has nodes, one for each node in pre-order. -/
def OneLineEach (t : SyntaxTree) : Prop :=
  ∃ lines, LinesOf t.render.toList lines ∧ lines.length = t.size ∧
    List.Forall₂ ShownAs t.traverse lines

theorem shownAs_indented (v : Tree.Visit Node) : ShownAs v (v.value.indented v.depth) :=
  ⟨v.value.line_toList v.depth, _, rfl, v.value.shown_not_next⟩

theorem oneLineEach_iff {t : SyntaxTree} (hlength : t.traverse.length = t.size) :
    OneLineEach t ↔ ∀ v ∈ t.traverse, '\n' ∉ v.value.shown := by
  have hpieces : (∀ v ∈ t.traverse, '\n' ∉ v.value.shown) ↔
      ∀ l ∈ t.traverse.map (fun v => v.value.indented v.depth), '\n' ∉ l := by
    simp only [List.forall_mem_map, newline_notMem_indented_iff]
  rw [hpieces]
  constructor
  · rintro ⟨lines, hlines, hcount, -⟩
    rw [SyntaxTree.render_toList] at hlines
    refine exists_linesOf_terminated_iff.mp ⟨lines, hlines, ?_⟩
    rw [hcount, List.length_map, hlength]
  · intro hnone
    refine ⟨_, ⟨SyntaxTree.render_toList t, hnone⟩, by rw [List.length_map, hlength], ?_⟩
    exact List.forall₂_map_right_iff.mpr (List.forall₂_same.mpr fun v _ => shownAs_indented v)

/-- **When each node is shown on one line.** What is shown of an accepted query has a line for each
node of its tree and, for each newline in a text that is assigned, two more. So each node is on one
line of its own, indented by its depth, exactly if no such text has a newline; this is the case if
no quotation of the query has one. -/
theorem parseQuery_lines (query : String) (tree : SyntaxTree) (h : parseQuery query = .ok tree) :
    Command.showTree query = .ok tree.render ∧
    tree.render.toList.count '\n' =
      tree.size + 2 * (tree.traverse.map fun v => v.value.newlines).sum ∧
    (OneLineEach tree ↔ ∀ v ∈ tree.traverse, ∀ s,
      v.value.attributes.find? "value" = some (.string s) → '\n' ∉ s.toList) ∧
    (QuotesOneLine query → OneLineEach tree) := by
  obtain ⟨o, rest, -, htree, hlegible⟩ := parseQuery_legible h
  have hlength : tree.traverse.length = tree.size := by
    rw [← List.length_map Tree.Visit.handle, htree.traverse_handles, List.length_range]
  have hone : OneLineEach tree ↔ ∀ v ∈ tree.traverse, v.value.newlines = 0 := by
    rw [oneLineEach_iff hlength]
    refine forall₂_congr fun v hv => ?_
    rw [← List.count_eq_zero, (hlegible v hv).count_newline]
    omega
  refine ⟨?_, ?_, ?_, ?_⟩
  · rw [Command.showTree, h]
    rfl
  · have hcount : ∀ v ∈ tree.traverse,
        (v.value.indented v.depth).count '\n' = 2 * v.value.newlines := by
      intro v hv
      rw [v.value.count_newline_indented, (hlegible v hv).count_newline]
    rw [SyntaxTree.render_toList, count_terminated, List.length_map, hlength, List.count_flatten,
      List.map_map, ← List.sum_map_mul_left]
    exact congrArg (fun counts => tree.size + List.sum counts) (List.map_congr_left hcount)
  · simp only [hone, Query.Node.newlines_eq_zero_iff]
  · intro hquery
    exact hone.mpr fun v hv => (hlegible v hv).newlines_eq_zero hquery

/-- Six nodes are shown on eight lines, as a text of two lines is shown twice. -/
theorem parseQuery_lines_eight :
    ∃ tree, parseQuery "UPDATE p SET a = 'x\ny'" = .ok tree ∧ tree.size = 6 ∧
      tree.render.toList.count '\n' = 8 := by
  let s : Query.Statement := .update "p" [⟨⟨"a", none⟩, .string "x\ny"⟩] false none
  have hparse : parseQuery "UPDATE p SET a = 'x\ny'" = .ok s.tree :=
    parseQuery_of_statement (by decide +kernel)
  have hnewlines : (s.tree.traverse.map fun v => v.value.newlines).sum = 1 := by decide +kernel
  obtain ⟨-, hcount, -, -⟩ := parseQuery_lines _ _ hparse
  refine ⟨s.tree, hparse, rfl, ?_⟩
  rw [hcount, hnewlines]
  rfl

/-- A text of two lines is shown as it is, so what is shown is not one line for each node. -/
theorem parseQuery_lines_split :
    ¬ ∀ query tree, parseQuery query = .ok tree → OneLineEach tree := by
  intro hclaim
  let s : Query.Statement := .update "p" [⟨⟨"a", none⟩, .string "x\ny"⟩] false none
  have hparse : parseQuery "UPDATE p SET a = 'x\ny'" = .ok s.tree :=
    parseQuery_of_statement (by decide +kernel)
  have hnone := (oneLineEach_iff (by decide +kernel)).mp (hclaim _ _ hparse)
  exact absurd hnone (by decide +kernel)

end StoreQL
