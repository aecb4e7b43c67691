/-
# Derivations

`Derives g names ss used as` says that the symbols `ss` of a grammar, one after the other, can be
brought to the items `as`: a terminal stands for an item that it names, and a symbol for which there
are rules is replaced by the body of one of them. The rules are listed in `used` in the order of a
leftmost derivation, each as often as it is used. With `Eq` for `names` the items are the words of
a sentence.

Main statements: `Derives.split`, that symbols in a row are brought to items in a row;
`derives_terminal_iff` and `Derives.by_rule`, what a symbol is brought to; `Derives.reading`, that
the words of a sentence may be exchanged for what they name; and `Derives.within`, that a derivation
stays within symbols that are closed under the rules.
-/
import Mathlib.Data.List.Forall2
import StoreQL.Grammar.Basic

namespace StoreQL.Grammar

universe u

variable {α : Type u}

/-! ## 1. Derivations -/

/-- The symbols are brought to the items by the rules that are listed. -/
inductive Derives (g : Grammar) (names : String → α → Prop) :
    List String → List Rule → List α → Prop where
  | done : Derives g names [] [] []
  | terminal {s : String} {ss : List String} {used : List Rule} {a : α} {as : List α} :
      g.isNonTerminal s = false → names s a → Derives g names ss used as →
      Derives g names (s :: ss) used (a :: as)
  | rule {r : Rule} {ss : List String} {used used' : List Rule} {as as' : List α} : r ∈ g.rules →
      Derives g names r.body used as → Derives g names ss used' as' →
      Derives g names (r.head :: ss) (r :: used ++ used') (as ++ as')

variable {g : Grammar} {names : String → α → Prop} {s : String} {ss : List String}
  {used : List Rule} {as : List α}

theorem derives_nil_iff : Derives g names [] used as ↔ used = [] ∧ as = [] := by
  constructor
  · rintro ⟨⟩
    exact ⟨rfl, rfl⟩
  · rintro ⟨rfl, rfl⟩
    exact .done

theorem isNonTerminal_head {r : Rule} (hr : r ∈ g.rules) : g.isNonTerminal r.head = true :=
  List.any_eq_true.mpr ⟨r, hr, beq_self_eq_true r.head⟩

/-- The first symbol is brought to some items, and the other symbols to those after them. -/
theorem Derives.split (h : Derives g names (s :: ss) used as) :
    ∃ used₁ used₂ as₁ as₂, used = used₁ ++ used₂ ∧ as = as₁ ++ as₂ ∧
      Derives g names [s] used₁ as₁ ∧ Derives g names ss used₂ as₂ := by
  cases h with
  | terminal hs ha hrest => exact ⟨[], _, [_], _, rfl, rfl, .terminal hs ha .done, hrest⟩
  | @rule r _ used used' as as' hr hbody hrest =>
    have hone : Derives g names [r.head] (r :: used ++ []) (as ++ []) := .rule hr hbody .done
    rw [List.append_nil, List.append_nil] at hone
    exact ⟨r :: used, used', as, as', rfl, rfl, hone, hrest⟩

/-- A terminal stands for an item that it names. -/
theorem derives_terminal_iff (hs : g.isNonTerminal s = false) :
    Derives g names (s :: ss) used as ↔
      ∃ a as', as = a :: as' ∧ names s a ∧ Derives g names ss used as' := by
  constructor
  · intro h
    cases h with
    | terminal _ ha hrest => exact ⟨_, _, rfl, ha, hrest⟩
    | rule hr =>
      rw [isNonTerminal_head hr] at hs
      cases hs
  · rintro ⟨a, as', rfl, ha, hrest⟩
    exact .terminal hs ha hrest

/-- A symbol that is no terminal is replaced by the body of one of its rules. -/
theorem Derives.by_rule (h : Derives g names [s] used as) (hs : g.isNonTerminal s = true) :
    ∃ r ∈ g.rulesFor s, ∃ used', used = r :: used' ∧ Derives g names r.body used' as := by
  cases h with
  | terminal hs' =>
    rw [hs] at hs'
    cases hs'
  | @rule r _ used _ as _ hr hbody hrest =>
    obtain ⟨rfl, rfl⟩ := derives_nil_iff.mp hrest
    rw [List.append_nil, List.append_nil]
    exact ⟨r, List.mem_filter.mpr ⟨hr, beq_self_eq_true r.head⟩, used, rfl, hbody⟩

/-- The words of a sentence may be exchanged for what they name. -/
theorem Derives.reading {words : List String} (h : Derives g Eq ss used words)
    (hread : List.Forall₂ names words as) : Derives g names ss used as := by
  induction h generalizing as with
  | done =>
    cases hread
    exact .done
  | terminal hs heq _ ih =>
    cases heq
    cases hread with
    | cons ha hrest => exact .terminal hs ha (ih hrest)
  | @rule _ _ _ _ words _ hr _ _ ihbody ihrest =>
    have hbody := List.forall₂_take words.length hread
    have hrest := List.forall₂_drop words.length hread
    rw [List.take_left] at hbody
    rw [List.drop_left] at hrest
    rw [← List.take_append_drop words.length as]
    exact .rule hr (ihbody hbody) (ihrest hrest)

/-! ## 2. Closed sets of symbols -/

/-- **A derivation stays within a closed set of symbols**: the rules that are used are for symbols
of the set, and each item is named by one of them. -/
theorem Derives.within {p : String → Prop}
    (hclosed : ∀ r ∈ g.rules, p r.head → ∀ s ∈ r.body, p s) (h : Derives g names ss used as)
    (hss : ∀ s ∈ ss, p s) :
    (∀ r ∈ used, p r.head) ∧ ∀ a ∈ as, ∃ s, p s ∧ names s a := by
  induction h with
  | done => exact ⟨nofun, nofun⟩
  | @terminal s ss used a as _ ha _ ih =>
    obtain ⟨hused, has⟩ := ih fun s hs => hss s (List.mem_cons_of_mem _ hs)
    refine ⟨hused, fun b hb => ?_⟩
    rcases List.mem_cons.mp hb with rfl | hb
    · exact ⟨s, hss s List.mem_cons_self, ha⟩
    · exact has b hb
  | @rule r ss used used' as as' hr _ _ ihbody ihrest =>
    have hhead := hss r.head List.mem_cons_self
    obtain ⟨hused, has⟩ := ihbody (hclosed r hr hhead)
    obtain ⟨hused', has'⟩ := ihrest fun s hs => hss s (List.mem_cons_of_mem _ hs)
    constructor
    · intro r' hr'
      rcases List.mem_append.mp hr' with hr' | hr'
      · rcases List.mem_cons.mp hr' with rfl | hr'
        · exact hhead
        · exact hused r' hr'
      · exact hused' r' hr'
    · intro a ha
      rcases List.mem_append.mp ha with ha | ha
      · exact has a ha
      · exact has' a ha

end StoreQL.Grammar
