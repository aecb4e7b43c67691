/-
# Rules by their symbols

A grammar has its rules in any order, those for one symbol with others in between. When it is
written down they are brought together (`grouped`): the non-terminals are taken as they first
appear, and for each of them the rules that are for it.

Rules are moved past rules for other symbols only. As the non-terminals are listed once each, and
none is missing, the rules for a symbol are the same ones in the same order as before
(`filter_grouped`), and that settles how often each rule is there.

Main statements: `nonTerminals_pairwise` and `mem_nonTerminals`, which symbols are listed and in
which order; `filter_grouped`, that the rules for a symbol keep their order; and `grouped_perm`, that
no rule is lost or doubled.
-/
import Mathlib.Data.List.Basic
import StoreQL.Grammar.Basic

namespace StoreQL.Grammar

variable {g : Grammar} {s t : String} {seen symbols : List String}

/-! ## 1. First occurrences -/

theorem mem_firstOccurrences :
    s ∈ firstOccurrences seen symbols ↔ s ∈ symbols ∧ s ∉ seen := by
  induction symbols generalizing seen with
  | nil => simp [firstOccurrences]
  | cons a symbols ih =>
    unfold firstOccurrences
    split
    case isTrue ha =>
      have ha : a ∈ seen := List.contains_iff_mem.mp ha
      rw [ih, List.mem_cons]
      constructor
      · rintro ⟨hs, hseen⟩
        exact ⟨.inr hs, hseen⟩
      · rintro ⟨rfl | hs, hseen⟩
        · exact absurd ha hseen
        · exact ⟨hs, hseen⟩
    case isFalse ha =>
      have ha : a ∉ seen := fun hmem => ha (List.contains_iff_mem.mpr hmem)
      rw [List.mem_cons, ih, List.mem_cons, List.mem_cons, not_or]
      constructor
      · rintro (rfl | ⟨hs, -, hseen⟩)
        · exact ⟨.inl rfl, ha⟩
        · exact ⟨.inr hs, hseen⟩
      · rintro ⟨hs, hseen⟩
        by_cases heq : s = a
        · exact .inl heq
        · exact .inr ⟨hs.resolve_left heq, heq, hseen⟩

/-- **First occurrences come in the order in which the symbols first appear.** -/
theorem pairwise_firstOccurrences (seen symbols : List String) :
    (firstOccurrences seen symbols).Pairwise fun s t => symbols.idxOf s < symbols.idxOf t := by
  induction symbols generalizing seen with
  | nil => exact List.Pairwise.nil
  | cons a symbols ih =>
    -- What is found behind a symbol that was seen is another one, and one place further on.
    have hrest {seen : List String} (ha : a ∈ seen) : (firstOccurrences seen symbols).Pairwise
        fun s t => (a :: symbols).idxOf s < (a :: symbols).idxOf t := by
      refine (ih seen).imp_of_mem fun {s t} hs ht hlt => ?_
      have hne {s : String} (hs : s ∈ firstOccurrences seen symbols) : a ≠ s := by
        rintro rfl
        exact (mem_firstOccurrences.mp hs).2 ha
      rw [List.idxOf_cons_ne _ (hne hs), List.idxOf_cons_ne _ (hne ht)]
      exact Nat.succ_lt_succ hlt
    unfold firstOccurrences
    split
    case isTrue ha => exact hrest (List.contains_iff_mem.mp ha)
    case isFalse =>
      refine List.Pairwise.cons (fun t ht => ?_) (hrest List.mem_cons_self)
      have hne : a ≠ t := by
        rintro rfl
        exact (mem_firstOccurrences.mp ht).2 List.mem_cons_self
      rw [List.idxOf_cons_self, List.idxOf_cons_ne _ hne]
      exact Nat.succ_pos _

/-! ## 2. Non-terminals -/

theorem isNonTerminal_iff : g.isNonTerminal s = true ↔ ∃ r ∈ g.rules, r.head = s := by
  simp [isNonTerminal]

theorem mem_nonTerminals : s ∈ g.nonTerminals ↔ ∃ r ∈ g.rules, r.head = s := by
  simp [nonTerminals, mem_firstOccurrences]

theorem nonTerminals_pairwise (g : Grammar) : g.nonTerminals.Pairwise fun s t =>
    (g.rules.map Rule.head).idxOf s < (g.rules.map Rule.head).idxOf t :=
  pairwise_firstOccurrences [] _

theorem nodup_nonTerminals (g : Grammar) : g.nonTerminals.Nodup :=
  (nonTerminals_pairwise g).imp fun hlt heq => by
    rw [heq] at hlt
    exact Nat.lt_irrefl _ hlt

/-! ## 3. Rules that are brought together -/

/-- The rules, those for one symbol behind those for another. -/
def grouped (g : Grammar) : List Rule := g.nonTerminals.flatMap g.rulesFor

theorem rulesFor_eq_filter (g : Grammar) (s : String) :
    g.rulesFor s = g.rules.filter fun r => r.head = s := by
  simp only [rulesFor, beq_eq_decide]

theorem mem_rulesFor {r : Rule} : r ∈ g.rulesFor s ↔ r ∈ g.rules ∧ r.head = s := by
  simp [rulesFor]

theorem filter_rulesFor_self (g : Grammar) (s : String) :
    (g.rulesFor s).filter (fun r => r.head = s) = g.rulesFor s :=
  List.filter_eq_self.mpr fun _ hr => decide_eq_true (mem_rulesFor.mp hr).2

/-- Among the rules for some symbols there is none for another. -/
theorem filter_flatMap_rulesFor_of_notMem (hs : s ∉ symbols) :
    (symbols.flatMap g.rulesFor).filter (fun r => r.head = s) = [] := by
  refine List.filter_eq_nil_iff.mpr fun r hr heq => hs ?_
  obtain ⟨t, ht, hr⟩ := List.mem_flatMap.mp hr
  rwa [← of_decide_eq_true heq, (mem_rulesFor.mp hr).2]

/-- Of the rules for some symbols, those for one of them. -/
theorem filter_flatMap_rulesFor (hsymbols : symbols.Nodup) (hs : s ∈ symbols) :
    (symbols.flatMap g.rulesFor).filter (fun r => r.head = s) = g.rulesFor s := by
  induction symbols with
  | nil => cases hs
  | cons t symbols ih =>
    obtain ⟨ht, hrest⟩ := List.nodup_cons.mp hsymbols
    rw [List.flatMap_cons, List.filter_append]
    by_cases heq : s = t
    · rw [heq, filter_rulesFor_self, filter_flatMap_rulesFor_of_notMem ht, List.append_nil]
    · have hfirst := filter_flatMap_rulesFor_of_notMem (g := g) (mt List.mem_singleton.mp heq)
      rw [List.flatMap_singleton] at hfirst
      rw [hfirst, List.nil_append, ih hrest (List.mem_of_ne_of_mem heq hs)]

/-- **The rules for a symbol keep their order.** -/
theorem filter_grouped (g : Grammar) (s : String) :
    g.grouped.filter (fun r => r.head = s) = g.rules.filter (fun r => r.head = s) := by
  rw [grouped, ← rulesFor_eq_filter]
  by_cases hs : s ∈ g.nonTerminals
  · exact filter_flatMap_rulesFor (nodup_nonTerminals g) hs
  · have hnone : g.rulesFor s = [] := by
      refine List.eq_nil_iff_forall_not_mem.mpr fun r hr => hs ?_
      exact mem_nonTerminals.mpr ⟨r, mem_rulesFor.mp hr⟩
    rw [filter_flatMap_rulesFor_of_notMem hs, hnone]

/-- **No rule is lost or doubled**: a rule is among the rules for its head as often as before. -/
theorem grouped_perm (g : Grammar) : g.grouped.Perm g.rules := by
  rw [List.perm_iff_count]
  intro r
  have hcount (rules : List Rule) :
      (rules.filter fun r' => r'.head = r.head).count r = rules.count r :=
    List.count_filter (by simp)
  rw [← hcount, filter_grouped, hcount]

end StoreQL.Grammar
