/-
# A grammar as it is written down

A grammar is written down as a line for each non-terminal. `LineText` says what the line is from the
rules alone: behind the symbol stand the bodies of the rules for it, in the order of the table, and a
symbol in them is in angle brackets if there is a rule for it and quoted if there is none.

A symbol with a newline would break its line, and one that has the mark which closes it could not be
told from what is behind it: a quotation may hold a bar. Where no symbol has either (`Legible`), a
symbol can be told whatever follows, a body if a bar or nothing follows, and the alternatives if
nothing does. So all that is lost in the text is the symbol to start with, and in which way the
rules for different symbols were mixed.

Main statements: `toBnf_lines`, what the lines are; `grouped_eq_of_toBnf`, that the rules by their
symbols can be told from the text; and `grouping_lossless`, that nothing is lost when rules are
brought together and written down.
-/
import Mathlib.Data.List.Forall2
import StoreQL.Grammar.Table
import StoreQL.Proofs.Grammar.Grouping
import StoreQL.Proofs.Text.Lines
import StoreQL.Proofs.Text.Separated

namespace StoreQL.Grammar

open Text

/-! ## 1. What is written for a rule -/

/-- A symbol is written in angle brackets if there is a rule for it, and quoted otherwise. -/
inductive SymbolText (g : Grammar) (s : String) : String → Prop where
  | bracketed : (∃ r ∈ g.rules, r.head = s) → SymbolText g s ("<" ++ s ++ ">")
  | quoted : (¬ ∃ r ∈ g.rules, r.head = s) → SymbolText g s ("\x22" ++ s ++ "\x22")

/-- A rule is written as the symbols of its body, with blanks between them. -/
def BodyText (g : Grammar) (r : Rule) (text : String) : Prop :=
  ∃ words, List.Forall₂ g.SymbolText r.body words ∧ text = " ".intercalate words

/-- The line of a symbol has an alternative for each rule for it, with bars between them. -/
def LineText (g : Grammar) (s : String) (line : String) : Prop :=
  ∃ alternatives, List.Forall₂ g.BodyText (g.rules.filter fun r => r.head = s) alternatives ∧
    line = "<" ++ s ++ "> ::= " ++ " | ".intercalate alternatives

/-- The symbols of the rules. -/
def symbols (g : Grammar) : List String := g.rules.flatMap fun r => r.head :: r.body

variable {g g' : Grammar} {s t : String}

theorem symbolText_renderSymbol (g : Grammar) (s : String) : g.SymbolText s (g.renderSymbol s) := by
  unfold renderSymbol
  split
  case isTrue h => exact .bracketed (isNonTerminal_iff.mp h)
  case isFalse h => exact .quoted (mt isNonTerminal_iff.mpr h)

theorem bodyText_renderBody (g : Grammar) (r : Rule) : g.BodyText r (g.renderBody r) := by
  refine ⟨r.body.map g.renderSymbol, ?_, rfl⟩
  rw [List.forall₂_map_right_iff, List.forall₂_same]
  intro s _
  exact symbolText_renderSymbol g s

/-- The line of a symbol without its newline. -/
def production (g : Grammar) (s : String) : String :=
  "<" ++ s ++ "> ::= " ++ " | ".intercalate ((g.rulesFor s).map g.renderBody)

theorem lineText_production (g : Grammar) (s : String) : g.LineText s (g.production s) := by
  refine ⟨(g.rulesFor s).map g.renderBody, ?_, rfl⟩
  rw [List.forall₂_map_right_iff, ← rulesFor_eq_filter, List.forall₂_same]
  intro r _
  exact bodyText_renderBody g r

theorem line_eq (g : Grammar) (s : String) : g.line s = g.production s ++ "\n" := rfl

theorem toBnf_toList (g : Grammar) :
    g.toBnf.toList = terminated ((g.nonTerminals.map g.production).map String.toList) := by
  rw [toBnf, String.toList_join, terminated, List.map_map, List.flatMap_map, List.flatMap_map]
  simp only [line_eq, String.toList_append, Function.comp_apply]
  rfl

/-! ## 2. Symbols, bodies and alternatives as they are written -/

/-- The mark in front of a symbol. -/
def opening (g : Grammar) (s : String) : Char := if g.isNonTerminal s then '<' else '\x22'

/-- The mark behind a symbol. -/
def closing (g : Grammar) (s : String) : Char := if g.isNonTerminal s then '>' else '\x22'

/-- A symbol as it is written. -/
def written (g : Grammar) (s : String) : List Char := (g.renderSymbol s).toList

/-- The bodies of the rules for a symbol. -/
def bodies (g : Grammar) (s : String) : List (List String) := (g.rulesFor s).map Rule.body

/-- Bodies as they are written, with bars between them. -/
def writtenBodies (g : Grammar) (bs : List (List String)) : List Char :=
  separated " | ".toList (separated [' '] g.written) bs

theorem written_eq (g : Grammar) (s : String) :
    g.written s = g.opening s :: (s.toList ++ [g.closing s]) := by
  unfold written renderSymbol opening closing
  split <;> simp [toString]

theorem production_toList (g : Grammar) (s : String) :
    (g.production s).toList =
      '<' :: (s.toList ++ '>' :: (" ::= ".toList ++ g.writtenBodies (g.bodies s))) := by
  have hbody : String.toList ∘ g.renderBody = separated [' '] g.written ∘ Rule.body := by
    funext r
    rw [Function.comp_apply, renderBody, String.toList_intercalate, List.map_map]
    rfl
  have hbodies : (" | ".intercalate ((g.rulesFor s).map g.renderBody)).toList =
      g.writtenBodies (g.bodies s) := by
    rw [String.toList_intercalate, List.map_map, hbody, writtenBodies, bodies, separated,
      List.map_map]
  rw [production, String.toList_append, hbodies]
  simp

/-! ## 3. The lines -/

theorem mem_symbols : t ∈ g.symbols ↔ ∃ r ∈ g.rules, t = r.head ∨ t ∈ r.body := by
  simp [symbols]

/-- Each symbol stands at the head of a line or in a body on it. -/
theorem forall_symbols_iff {p : String → Prop} :
    (∀ s ∈ g.nonTerminals, p s ∧ ∀ b ∈ g.bodies s, ∀ t ∈ b, p t) ↔ ∀ t ∈ g.symbols, p t := by
  constructor
  · intro h t ht
    obtain ⟨r, hr, ht⟩ := mem_symbols.mp ht
    obtain ⟨hhead, hbodies⟩ := h r.head (mem_nonTerminals.mpr ⟨r, hr, rfl⟩)
    rcases ht with rfl | ht
    · exact hhead
    · exact hbodies r.body (List.mem_map_of_mem (mem_rulesFor.mpr ⟨hr, rfl⟩)) t ht
  · intro h s hs
    obtain ⟨r, hr, rfl⟩ := mem_nonTerminals.mp hs
    refine ⟨h r.head (mem_symbols.mpr ⟨r, hr, .inl rfl⟩), ?_⟩
    intro b hb t ht
    obtain ⟨r', hr', rfl⟩ := List.mem_map.mp hb
    exact h t (mem_symbols.mpr ⟨r', (mem_rulesFor.mp hr').1, .inr ht⟩)

theorem newline_notMem_written : '\n' ∉ g.written s ↔ '\n' ∉ s.toList := by
  rw [written_eq]
  unfold opening closing
  split <;> simp

theorem newline_notMem_production : '\n' ∉ (g.production s).toList ↔
    '\n' ∉ s.toList ∧ ∀ b ∈ g.bodies s, ∀ t ∈ b, '\n' ∉ t.toList := by
  have hbodies : '\n' ∉ g.writtenBodies (g.bodies s) ↔
      ∀ b ∈ g.bodies s, ∀ t ∈ b, '\n' ∉ t.toList := by
    simp only [writtenBodies, notMem_separated (by decide : '\n' ∉ " | ".toList),
      notMem_separated (by decide : '\n' ∉ [' ']), newline_notMem_written]
  rw [production_toList, ← hbodies]
  simp

/-- The text is one line for each non-terminal exactly if no symbol has a newline. -/
theorem linesOf_toBnf_iff (g : Grammar) :
    LinesOf g.toBnf.toList ((g.nonTerminals.map g.production).map String.toList) ↔
      ∀ s ∈ g.symbols, '\n' ∉ s.toList := by
  rw [LinesOf, ← toBnf_toList, ← forall_symbols_iff]
  simp only [List.forall_mem_map, newline_notMem_production, true_and]

/-- **A line for each non-terminal.** -/
theorem toBnf_lines (g : Grammar) : ∃ lines : List String,
    List.Forall₂ g.LineText g.nonTerminals lines ∧
    g.toBnf.toList = terminated (lines.map String.toList) ∧
    (LinesOf g.toBnf.toList (lines.map String.toList) ↔ ∀ s ∈ g.symbols, '\n' ∉ s.toList) := by
  refine ⟨g.nonTerminals.map g.production, ?_, toBnf_toList g, linesOf_toBnf_iff g⟩
  rw [List.forall₂_map_right_iff, List.forall₂_same]
  intro s _
  exact lineText_production g s

/-! ## 4. The grammar from its text -/

/-- No symbol has a newline or the mark that closes it. -/
def Legible (g : Grammar) : Prop :=
  ∀ s ∈ g.symbols, '\n' ∉ s.toList ∧ g.closing s ∉ s.toList

instance Legible.decidable : DecidablePred Legible := fun g =>
  inferInstanceAs (Decidable (∀ s ∈ g.symbols, _))

/-- What is behind the body of a rule: nothing, or a bar. -/
def EndsBody (rest : List Char) : Prop := rest = [] ∨ ∃ rest', rest = ' ' :: '|' :: rest'

theorem opening_cases (g : Grammar) (s : String) : g.opening s = '<' ∨ g.opening s = '\x22' := by
  unfold opening
  split <;> simp

theorem not_endsBody_written (s : String) (rest : List Char) :
    ¬ EndsBody (g.written s ++ rest) := by
  rw [written_eq]
  rcases opening_cases g s with h | h <;> simp [EndsBody, h]

theorem not_endsBody_blank (s : String) (rest : List Char) :
    ¬ EndsBody ([' '] ++ (g.written s ++ rest)) := by
  rw [written_eq]
  rcases opening_cases g s with h | h <;> simp [EndsBody, h]

theorem closing_eq_of_opening (h : g.opening s = g.opening t) : g.closing s = g.closing t := by
  unfold opening at h
  unfold closing
  split at h <;> split at h <;> simp_all

/-- The mark in front of a symbol tells which mark closes it. -/
theorem told_written (g : Grammar) :
    Told g.written (fun s => g.closing s ∉ s.toList) fun _ => True := by
  intro s t rest rest' hs ht _ _ heq
  simp only [written_eq, List.cons_append, List.append_assoc, List.nil_append,
    List.cons.injEq] at heq
  obtain ⟨hopening, heq⟩ := heq
  rw [closing_eq_of_opening hopening] at hs heq
  obtain ⟨hsymbol, hrest⟩ := mark_unique hs ht heq
  exact ⟨String.toList_inj.mp hsymbol, hrest⟩

/-- **The alternatives on a line can be told**, the empty ones among them. -/
theorem told_writtenBodies (g : Grammar) : Told g.writtenBodies
    (fun bs => bs ≠ [] ∧ ∀ b ∈ bs, ∀ s ∈ b, g.closing s ∉ s.toList) (fun rest => rest = []) := by
  -- A blank behind a symbol goes on to another symbol or, if a bar follows it, ends the body.
  have hbody : Told (separated [' '] g.written) (fun b => ∀ s ∈ b, g.closing s ∉ s.toList)
      EndsBody :=
    told_separated_any (told_written g) (fun _ => trivial) (fun _ _ => trivial)
      (fun s rest _ => not_endsBody_blank s rest) (fun s rest _ => not_endsBody_written s rest)
  refine told_separated hbody ?_ ?_ ?_
  · intro rest
    exact .inr ⟨_, rfl⟩
  · intro rest hrest
    exact .inl hrest
  · intro b rest _ hrest
    cases hrest

/-- Where the same non-terminals are listed, the same symbols are written in brackets. -/
theorem isNonTerminal_congr (h : g.nonTerminals = g'.nonTerminals) :
    g.isNonTerminal = g'.isNonTerminal := by
  funext s
  rw [Bool.eq_iff_iff, isNonTerminal_iff, isNonTerminal_iff, ← mem_nonTerminals,
    ← mem_nonTerminals, h]

theorem rulesFor_eq_map_bodies (g : Grammar) (s : String) :
    g.rulesFor s = (g.bodies s).map (Rule.mk s) := by
  have hrule : ∀ r ∈ g.rulesFor s, (Rule.mk s ∘ Rule.body) r = id r := by
    intro r hr
    obtain ⟨-, rfl⟩ := mem_rulesFor.mp hr
    rfl
  rw [bodies, List.map_map, List.map_congr_left hrule, List.map_id]

theorem bodies_ne_nil (hs : s ∈ g.nonTerminals) : g.bodies s ≠ [] := by
  obtain ⟨r, hr⟩ := mem_nonTerminals.mp hs
  exact List.ne_nil_of_mem (List.mem_map_of_mem (mem_rulesFor.mpr hr))

/-- On a line of a legible grammar, the brackets close where they should. -/
theorem Legible.closed (hg : g.Legible) (hs : s ∈ g.nonTerminals) :
    '>' ∉ s.toList ∧ ∀ b ∈ g.bodies s, ∀ t ∈ b, g.closing t ∉ t.toList := by
  have hclosed := forall_symbols_iff.mpr (fun t ht => (hg t ht).2) s hs
  have hmark : g.closing s = '>' := if_pos (isNonTerminal_iff.mpr (mem_nonTerminals.mp hs))
  rwa [hmark] at hclosed

/-- A line tells its symbol, and what is behind it. -/
theorem production_inj (hs : '>' ∉ s.toList) (ht : '>' ∉ t.toList)
    (h : (g.production s).toList = (g'.production t).toList) :
    s = t ∧ g.writtenBodies (g.bodies s) = g'.writtenBodies (g'.bodies t) := by
  rw [production_toList, production_toList, List.cons.injEq] at h
  obtain ⟨hsymbol, hrest⟩ := mark_unique hs ht h.2
  exact ⟨String.toList_inj.mp hsymbol, List.append_cancel_left hrest⟩

/-- A line tells its bodies, where the non-terminals are the same. -/
theorem bodies_eq_of_written (hg : g.Legible) (hg' : g'.Legible)
    (hheads : g.nonTerminals = g'.nonTerminals) (hs : s ∈ g.nonTerminals)
    (h : g.writtenBodies (g.bodies s) = g'.writtenBodies (g'.bodies s)) :
    g.bodies s = g'.bodies s := by
  have hs' : s ∈ g'.nonTerminals := hheads ▸ hs
  have hsymbols := isNonTerminal_congr hheads
  have hclosing : g'.closing = g.closing := by
    unfold closing
    rw [hsymbols]
  have hwritten : g'.writtenBodies = g.writtenBodies := by
    unfold writtenBodies written renderSymbol
    rw [hsymbols]
  have hclosed' := (hg'.closed hs').2
  rw [hclosing] at hclosed'
  rw [hwritten] at h
  have htold := told_writtenBodies g (g.bodies s) (g'.bodies s) [] []
    ⟨bodies_ne_nil hs, (hg.closed hs).2⟩ ⟨bodies_ne_nil hs', hclosed'⟩ rfl rfl
  exact (htold (by rw [h])).1

/-- **The rules by their symbols can be told from the text.** -/
theorem grouped_eq_of_toBnf (hg : g.Legible) (hg' : g'.Legible) (h : g.toBnf = g'.toBnf) :
    g.grouped = g'.grouped := by
  have hlines := (linesOf_toBnf_iff g).mpr fun s hs => (hg s hs).1
  have hlines' := (linesOf_toBnf_iff g').mpr fun s hs => (hg' s hs).1
  rw [← h] at hlines'
  have hproductions := hlines.unique hlines'
  rw [List.map_map, List.map_map] at hproductions
  have hheads : g.nonTerminals = g'.nonTerminals := by
    have hmap : g.nonTerminals.map id = g'.nonTerminals.map id := by
      refine map_eq_map_of_determined ?_ hproductions
      intro s hs t ht heq
      exact (production_inj (hg.closed hs).1 (hg'.closed ht).1 heq).1
    rwa [List.map_id, List.map_id] at hmap
  rw [← hheads] at hproductions
  rw [grouped, grouped, ← hheads]
  refine List.flatMap_congr ?_
  intro s hs
  have hhead' := (hg'.closed (hheads ▸ hs)).1
  obtain ⟨-, hwritten⟩ :=
    production_inj (hg.closed hs).1 hhead' (List.map_inj_left.mp hproductions s hs)
  rw [rulesFor_eq_map_bodies, rulesFor_eq_map_bodies,
    bodies_eq_of_written hg hg' hheads hs hwritten]

/-- The published grammar can be told from its text. -/
example : queryGrammar.Legible := by decide +kernel

/-- A symbol with quotation marks may look like two alternatives. -/
example : (⟨"x", [⟨"x", ["a\x22 | \x22b"]⟩]⟩ : Grammar).toBnf =
    (⟨"x", [⟨"x", ["a"]⟩, ⟨"x", ["b"]⟩]⟩ : Grammar).toBnf := by decide +kernel

/-! ## 5. What is kept -/

/-- **Nothing is lost when rules are brought together by their symbols.** In every grammar, the
non-terminals are listed once each, as they first appear, and are the symbols for which there is a
rule. The rules for one non-terminal after the other are the rules of the grammar, each as often as
before, and the rules for a symbol keep their order. The text consists of a line for each
non-terminal in this order, whose alternatives are the rules for it, and these are all the lines of
the text exactly if no symbol has a newline. If two legible grammars have the same text, they have
the same rules but for how those for different symbols were mixed. -/
theorem grouping_lossless (g : Grammar) :
    (g.nonTerminals.Nodup ∧ (∀ s, s ∈ g.nonTerminals ↔ ∃ r ∈ g.rules, r.head = s) ∧
      g.nonTerminals.Pairwise fun s t =>
        (g.rules.map Rule.head).idxOf s < (g.rules.map Rule.head).idxOf t) ∧
    (∀ s, g.isNonTerminal s = true ↔ s ∈ g.nonTerminals) ∧
    (g.grouped.Perm g.rules ∧
      ∀ s, g.grouped.filter (fun r => r.head = s) = g.rules.filter fun r => r.head = s) ∧
    (∃ lines : List String, List.Forall₂ g.LineText g.nonTerminals lines ∧
      g.toBnf.toList = terminated (lines.map String.toList) ∧
      (LinesOf g.toBnf.toList (lines.map String.toList) ↔
        ∀ s ∈ g.symbols, '\n' ∉ s.toList)) ∧
    ∀ g' : Grammar, g.Legible → g'.Legible → g.toBnf = g'.toBnf → g.grouped = g'.grouped := by
  refine ⟨⟨nodup_nonTerminals g, ?_, nonTerminals_pairwise g⟩, ?_,
    ⟨grouped_perm g, filter_grouped g⟩, toBnf_lines g, ?_⟩
  · intro s
    exact mem_nonTerminals
  · intro s
    rw [isNonTerminal_iff, mem_nonTerminals]
  · intro g' hg hg' h
    exact grouped_eq_of_toBnf hg hg' h

/-- Rules for two symbols, in turns and one symbol after the other. A bar that is a terminal is no
bar between alternatives. -/
theorem grouping_lossless_turns :
    let g : Grammar := ⟨"list", [⟨"list", ["item"]⟩, ⟨"item", ["a"]⟩,
      ⟨"list", ["item", "|", "list"]⟩, ⟨"item", []⟩]⟩
    let g' : Grammar := ⟨"item", [⟨"list", ["item"]⟩, ⟨"list", ["item", "|", "list"]⟩,
      ⟨"item", ["a"]⟩, ⟨"item", []⟩]⟩
    g.Legible ∧ g'.Legible ∧ g.toBnf = g'.toBnf ∧ g.grouped = g'.grouped ∧
      g.grouped.Perm g.rules ∧ (∀ s ∈ g.symbols, '\n' ∉ s.toList) ∧
      ∃ lines : List String, LinesOf g.toBnf.toList (lines.map String.toList) ∧
        lines.length = 2 := by
  intro g g'
  have hg : g.Legible := by decide +kernel
  have hg' : g'.Legible := by decide +kernel
  have htext : g.toBnf = g'.toBnf := by decide +kernel
  have hnone : ∀ s ∈ g.symbols, '\n' ∉ s.toList := by decide +kernel
  obtain ⟨-, -, ⟨hperm, -⟩, ⟨lines, hforall, -, hlines⟩, htold⟩ := grouping_lossless g
  refine ⟨hg, hg', htext, htold g' hg hg' htext, hperm, hnone, lines, hlines.mpr hnone, ?_⟩
  rw [← hforall.length_eq]
  decide +kernel

end StoreQL.Grammar
