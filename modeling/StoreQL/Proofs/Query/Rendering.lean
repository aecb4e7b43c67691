/-
# The lines of a tree

A node is shown as the name of its kind, its text and its attributes, behind two blanks for each
step of depth. The names of kinds have no blanks, and what is behind them begins with one, so the
depth and the kind can be told from a line, whatever the text is.

The nodes that statements have are told apart altogether (`Legible`): a limit by its numeral, a
value by how it is written, which is said twice, and the others by a text or an attribute that
stands alone. Of the texts that a query gives to its nodes, only those that it assigns can have
newlines. A value is shown twice, and so are its newlines.

Main statements: `SyntaxTree.render_toList`, that a tree is shown as the lines of its nodes;
`StatementPhrase.legible`, that the nodes of a statement are legible; `Legible.eq_of_shown`, that
such a node can be told from how it is shown; and `Legible.count_newline`, how many newlines it is
shown with.
-/
import StoreQL.Proofs.Decimal.Rendering
import StoreQL.Proofs.Query.Numbers
import StoreQL.Proofs.Text.Lines
import StoreQL.Proofs.Token.Numerals

namespace StoreQL.Query

open Text

/-! ## 1. Nodes as they are shown -/

theorem all_not_blank {cs : List Char} (h : ∀ c ∈ cs, isBlank c = false) :
    ∀ c ∈ cs, (!isBlank c) = true := by
  simpa using h

theorem not_next_of_blank (cs : List Char) :
    ¬ Next (fun c => (!isBlank c) = true) (' ' :: cs) := by
  have hblank : isBlank ' ' = true := by decide +kernel
  simp [hblank]

namespace Node.Kind

theorem ofName?_name (k : Node.Kind) : ofName? k.name = some k := by
  cases k <;> rfl

theorem name_injective {k k' : Node.Kind} (h : k.name = k'.name) : k = k' := by
  rw [← Option.some.injEq, ← ofName?_name, ← ofName?_name, h]

theorem name_not_blank (k : Node.Kind) : ∀ c ∈ k.name.toList, isBlank c = false :=
  not_blank_of_all (by cases k <;> decide +kernel)

end Node.Kind

namespace Node

/-- An attribute as it is shown. -/
def shownAttribute (a : String × Literal) : List Char :=
  ' ' :: '[' :: (a.1.toList ++ '=' :: (a.2.render.toList ++ [']']))

/-- What is shown behind the kind of a node. -/
def argument (n : Node) : List Char :=
  (if n.text = n.kind.name then [] else ' ' :: n.text.toList) ++ n.attributes.flatMap shownAttribute

/-- A node as it is shown, without indentation. -/
def shown (n : Node) : List Char := n.kind.name.toList ++ n.argument

/-- A node as it is shown at a depth. -/
def indented (n : Node) (depth : Nat) : List Char := List.replicate (2 * depth) ' ' ++ n.shown

theorem line_toList (n : Node) (depth : Nat) :
    (n.line depth).toList = n.indented depth ++ ['\n'] := by
  unfold line indented shown argument shownAttribute
  split <;> simp [String.toList_join, List.flatMap_map, toString]

variable {n n' : Node}

theorem argument_not_next (n : Node) : ¬ Next (fun c => (!isBlank c) = true) n.argument := by
  unfold argument
  split
  · cases n.attributes with
    | nil => exact next_nil _
    | cons a d => exact not_next_of_blank _
  · exact not_next_of_blank _

/-- The first blank of what is shown parts the kind from the argument. -/
theorem shown_inj (h : n.shown = n'.shown) : n.kind = n'.kind ∧ n.argument = n'.argument := by
  obtain ⟨hname, hargument⟩ :=
    run_unique (all_not_blank n.kind.name_not_blank) n.argument_not_next
      (all_not_blank n'.kind.name_not_blank) n'.argument_not_next h
  exact ⟨Kind.name_injective (String.toList_inj.mp hname), hargument⟩

theorem shown_not_next (n : Node) : ¬ Next (fun c => c = ' ') n.shown := by
  rw [shown]
  cases n.kind <;> exact Char.ne_of_val_ne (by decide)

/-- The indentation ends where the kind begins. -/
theorem indented_inj {depth depth' : Nat} (h : n.indented depth = n'.indented depth') :
    depth = depth' ∧ n.shown = n'.shown := by
  have hindent (depth : Nat) : ∀ c ∈ List.replicate (2 * depth) ' ', (c == ' ') = true := by
    intro c hc
    rw [List.eq_of_mem_replicate hc, beq_self_eq_true]
  have hnext (n : Node) : ¬ Next (fun c => (c == ' ') = true) n.shown := by
    simpa only [beq_iff_eq] using n.shown_not_next
  obtain ⟨hindents, hshown⟩ :=
    run_unique (hindent depth) (hnext n) (hindent depth') (hnext n') h
  have hlength := congrArg List.length hindents
  rw [List.length_replicate, List.length_replicate] at hlength
  exact ⟨by omega, hshown⟩

end Node

/-- **A tree is shown as the lines of its nodes**, in pre-order. -/
theorem SyntaxTree.render_toList (t : SyntaxTree) :
    (SyntaxTree.render t).toList =
      terminated (t.traverse.map fun v => v.value.indented v.depth) := by
  rw [SyntaxTree.render, String.toList_join, terminated, List.flatMap_map, List.flatMap_map]
  simp only [Node.line_toList]

/-! ## 2. Legible nodes -/

/-- A node of the kinds that statements of the query have, with the text and the attributes that
they give to it. -/
inductive Legible (query : String) : Node → Prop where
  | bare {kind : Node.Kind} {text : String} : kind ∉ [.update, .orderBy, .limit, .value] →
      '\n' ∉ text.toList → Legible query ⟨kind, text, []⟩
  | update {workers : Option Literal} : (∀ v ∈ workers, v.newlines = 0) →
      Legible query ⟨.update, "UPDATE", workerAttributes workers⟩
  | order {direction : String} : '\n' ∉ direction.toList →
      Legible query ⟨.orderBy, "ORDER_BY", [("direction", .string direction)]⟩
  | limit (l : Numeral) : Legible query ⟨.limit, l.text, [("count", .ofNumeral l.text)]⟩
  | value {t : Token} {v : Literal} : t ∈ tokenize query → ValueToken t v →
      Legible query ⟨.value, v.render, [("value", v)]⟩

variable {query query' : String} {n n' : Node}

/-- A text that stands alone can be told, whether or not it is the name of the kind. -/
theorem argument_bare {kind : Node.Kind} {text text' : String}
    (h : Node.argument ⟨kind, text, []⟩ = Node.argument ⟨kind, text', []⟩) : text = text' := by
  by_cases htext : text = kind.name <;> by_cases htext' : text' = kind.name <;>
    simp_all [Node.argument, String.toList_inj]

/-- The attribute of a node tells its value. -/
theorem argument_attribute {kind : Node.Kind} {key : String} {v v' : Literal}
    (h : Node.argument ⟨kind, kind.name, [(key, v)]⟩ =
      Node.argument ⟨kind, kind.name, [(key, v')]⟩) : v = v' := by
  simp only [Node.argument, if_true, List.nil_append, List.flatMap_cons, List.flatMap_nil,
    List.append_nil, Node.shownAttribute, List.cons.injEq, true_and] at h
  have h := List.append_cancel_left h
  simp only [List.cons.injEq, true_and] at h
  exact Literal.render_injective (String.toList_inj.mp (List.append_cancel_right h))

theorem argument_of_ne {kind : Node.Kind} {text key : String} {v : Literal}
    (hne : text ≠ kind.name) :
    Node.argument ⟨kind, text, [(key, v)]⟩ =
      ' ' :: (text.toList ++ ' ' :: '[' :: (key.toList ++ '=' :: (v.render.toList ++ [']']))) := by
  simp [Node.argument, Node.shownAttribute, hne]

/-- A value is shown twice, so that what is shown is twice as long but for a few characters. -/
theorem argument_value {v v' : Literal}
    (h : Node.argument ⟨.value, v.render, [("value", v)]⟩ =
      Node.argument ⟨.value, v'.render, [("value", v')]⟩) : v = v' := by
  have hne (v : Literal) : v.render ≠ Node.Kind.value.name := by
    intro hv
    have hopening := v.head_opening
    rw [hv] at hopening
    rcases v with _ | (_ | _) | d | s <;> cases hopening
  rw [argument_of_ne (hne v), argument_of_ne (hne v'), List.cons.injEq] at h
  have hlength := congrArg List.length h.2
  simp only [List.length_append, List.length_cons, List.length_nil] at hlength
  have hrender := (List.append_inj h.2 (by omega)).1
  exact Literal.render_injective (String.toList_inj.mp hrender)

/-- A numeral ends before the first blank. -/
theorem argument_limit {l l' : Numeral}
    (h : Node.argument ⟨.limit, l.text, [("count", .ofNumeral l.text)]⟩ =
      Node.argument ⟨.limit, l'.text, [("count", .ofNumeral l'.text)]⟩) : l.text = l'.text := by
  have hne (l : Numeral) : l.text ≠ Node.Kind.limit.name := by
    intro hl
    obtain ⟨c, cs, hwhole, hc⟩ := l.exists_first
    have hhead : l.text.toList.head? = some 'L' := by
      rw [hl]
      rfl
    rw [Numeral.text, String.toList_ofList, hwhole, List.cons_append, List.head?_cons,
      Option.some.injEq] at hhead
    subst hhead
    cases hc
  rw [argument_of_ne (hne l), argument_of_ne (hne l'), List.cons.injEq] at h
  obtain ⟨htext, -⟩ := run_unique (all_not_blank l.text_not_blank) (not_next_of_blank _)
    (all_not_blank l'.text_not_blank) (not_next_of_blank _) h.2
  exact String.toList_inj.mp htext

/-- **A legible node can be told from how it is shown.** -/
theorem Legible.eq_of_shown (h : Legible query n) (h' : Legible query' n')
    (heq : n.shown = n'.shown) : n = n' := by
  obtain ⟨hkind, hargument⟩ := Node.shown_inj heq
  -- The kinds of nodes with attributes are not those of bare nodes, nor those of each other.
  cases h <;> cases h' <;> cases hkind
  case bare.bare => rw [argument_bare hargument]
  case update.update workers _ workers' _ =>
    cases workers <;> cases workers'
    · rfl
    · cases hargument
    · cases hargument
    · rw [argument_attribute hargument]
  case order.order => rw [argument_attribute hargument]
  case limit.limit => rw [argument_limit hargument]
  case value.value => rw [argument_value hargument]
  all_goals simp_all

/-! ## 3. Newlines -/

namespace Node

/-- The newlines of the value that a node holds. -/
def newlines (n : Node) : Nat := ((n.attributes.find? "value").map Literal.newlines).getD 0

theorem count_newline_shown (n : Node) :
    n.shown.count '\n' = n.text.toList.count '\n' +
      (n.attributes.map fun a => a.1.toList.count '\n' + a.2.newlines).sum := by
  have hname : n.kind.name.toList.count '\n' = 0 := by
    cases n.kind <;> rfl
  have hattributes (d : Dictionary Literal) : (d.flatMap shownAttribute).count '\n' =
      (d.map fun a => a.1.toList.count '\n' + a.2.newlines).sum := by
    induction d with
    | nil => rfl
    | cons a d ih =>
      rw [List.flatMap_cons, List.count_append, ih, List.map_cons, List.sum_cons]
      simp [shownAttribute, Literal.count_newline_render]
  have htext : (if n.text = n.kind.name then [] else ' ' :: n.text.toList).count '\n' =
      n.text.toList.count '\n' := by
    split
    · rename_i h
      rw [h, hname]
      rfl
    · simp
  rw [shown, argument, List.count_append, List.count_append, hname, htext, hattributes,
    Nat.zero_add]

theorem count_newline_indented (n : Node) (depth : Nat) :
    (n.indented depth).count '\n' = n.shown.count '\n' := by
  have hindent : (List.replicate (2 * depth) ' ').count '\n' = 0 :=
    List.count_eq_zero.mpr fun hmem => absurd (List.eq_of_mem_replicate hmem) (by decide)
  rw [indented, List.count_append, hindent, Nat.zero_add]

end Node

/-- **A legible node is shown with each newline of its value twice**, and with no others. -/
theorem Legible.count_newline (h : Legible query n) : n.shown.count '\n' = 2 * n.newlines := by
  rw [Node.count_newline_shown]
  cases h with
  | bare _ htext => simp [Node.newlines, Dictionary.find?, List.count_eq_zero.mpr htext]
  | @update workers hworkers =>
    cases workers with
    | none => rfl
    | some v =>
      have hv : v.newlines = 0 := hworkers v rfl
      simp [Node.newlines, workerAttributes, Dictionary.find?, hv]
  | order hdirection =>
    simp [Node.newlines, Dictionary.find?, Literal.newlines, List.count_eq_zero.mpr hdirection]
  | limit l =>
    have htext : '\n' ∉ l.text.toList := fun hmem => by cases l.text_not_blank _ hmem
    simp [Node.newlines, Dictionary.find?, Literal.newlines_ofNumeral _ htext,
      List.count_eq_zero.mpr htext]
  | value _ _ =>
    simp [Node.newlines, Dictionary.find?, Literal.count_newline_render]
    omega

/-! ## 4. The nodes of a statement -/

section Phrases

variable {ts rest : List Token} {name direction : String} {attributes : Dictionary Literal}
  {o : Outline Node} {os : List (Outline Node)} {t : Token}

/-- Blanks, newlines among them, part the tokens of a query but for those within quotations. -/
theorem newline_notMem_text (ht : t ∈ tokenize query) (hterminal : t.isTerminal = false)
    (hstring : t.kind ≠ .string) : '\n' ∉ t.text.toList := by
  obtain ⟨lexeme, after, hlexeme⟩ := lexeme_of_mem ht hterminal
  intro hmem
  cases hlexeme.text_not_blank hstring _ hmem

theorem newline_notMem_identifier (ht : t ∈ tokenize query) (hkind : t.kind = .identifier) :
    '\n' ∉ t.text.toList :=
  newline_notMem_text ht (plain_identifier hkind).goesOn (by simp [hkind])

theorem FieldPhrase.legible (h : FieldPhrase name ts rest) (hts : ts ⊆ tokenize query) :
    Legible query ⟨.field, name, []⟩ := by
  refine .bare (by decide) ?_
  cases h with
  | plain hbase _ => exact newline_notMem_identifier (hts List.mem_cons_self) hbase
  | member hbase _ hmember =>
    rw [List.cons_subset, List.cons_subset, List.cons_subset] at hts
    obtain ⟨hb, -, hm, -⟩ := hts
    simp [newline_notMem_identifier hb hbase, newline_notMem_identifier hm hmember]

theorem ProjectionPhrase.legible (h : ProjectionPhrase name ts rest) (hts : ts ⊆ tokenize query) :
    Legible query ⟨.field, name, []⟩ := by
  cases h with
  | whole _ => exact .bare (by decide) (by decide)
  | field hfield => exact hfield.legible hts

theorem IsSource.legible (h : IsSource t) (ht : t ∈ tokenize query) :
    Legible query ⟨.field, t.text, []⟩ := by
  refine .bare (by decide) (newline_notMem_text ht h.goesOn ?_)
  rcases h with h | h <;> simp [h]

theorem AssignmentPhrase.legible (h : AssignmentPhrase o ts rest) (hts : ts ⊆ tokenize query) :
    ∀ n ∈ o.values, Legible query n := by
  cases h with
  | @sets name ts rest e t v hfield _ _ hvalue =>
    have ht : t ∈ tokenize query := hts (hfield.taken.mem (by simp))
    simp only [Outline.values, Outline.valuesAll_leaf_cons, List.forall_mem_cons]
    exact ⟨.bare (by decide) (by decide), hfield.legible hts, .value ht hvalue, nofun⟩

theorem AssignmentsPhrase.legible (h : AssignmentsPhrase os ts rest) (hts : ts ⊆ tokenize query) :
    ∀ n ∈ Outline.valuesAll os, Legible query n := by
  induction h with
  | last ha _ =>
    rw [Outline.valuesAll, Outline.valuesAll, List.append_nil]
    exact ha.legible hts
  | more ha _ _ ih =>
    rw [Outline.valuesAll, List.forall_mem_append]
    exact ⟨ha.legible hts, ih fun t ht => hts (ha.taken.mem (List.mem_cons_of_mem _ ht))⟩

theorem FilterPhrase.legible (h : FilterPhrase os ts rest) :
    ∀ n ∈ Outline.valuesAll os, Legible query n := by
  cases h with
  | absent _ => exact nofun
  | present _ _ _ =>
    simpa [Outline.valuesAll, Outline.values] using .bare (by decide) (by decide)

theorem DirectionPhrase.newline_notMem (h : DirectionPhrase direction ts rest) :
    '\n' ∉ direction.toList := by
  cases h with
  | said hd =>
    rcases hd with hd | hd <;> rw [Reader.text_of_isKeyword hd] <;> decide
  | unsaid _ => decide

theorem OrderPhrase.legible (h : OrderPhrase os ts rest) (hts : ts ⊆ tokenize query) :
    ∀ n ∈ Outline.valuesAll os, Legible query n := by
  cases h with
  | absent _ => exact nofun
  | present _ _ hfield hdirection =>
    rw [List.cons_subset, List.cons_subset] at hts
    simpa [Outline.valuesAll, Outline.values] using
      And.intro (.order hdirection.newline_notMem) (hfield.legible hts.2.2)

theorem LimitPhrase.legible (h : LimitPhrase os ts rest) (hts : ts ⊆ tokenize query) :
    ∀ n ∈ Outline.valuesAll os, Legible query n := by
  cases h with
  | absent _ => exact nofun
  | @present l n rest _ hn =>
    obtain ⟨numeral, htext⟩ := numeral_of_number (hts (by simp)) hn
    simpa [Outline.valuesAll, Outline.values, ← htext] using .limit numeral

theorem GroupPhrase.legible (h : GroupPhrase os ts rest) (hts : ts ⊆ tokenize query) :
    ∀ n ∈ Outline.valuesAll os, Legible query n := by
  cases h with
  | absent _ => exact nofun
  | present _ _ hfield =>
    rw [List.cons_subset, List.cons_subset] at hts
    simpa [Outline.valuesAll, Outline.values] using
      And.intro (.bare (by decide) (by decide)) (hfield.legible hts.2.2)

theorem ConcurrentPhrase.legible (h : ConcurrentPhrase attributes ts rest)
    (hts : ts ⊆ tokenize query) : Legible query ⟨.update, "UPDATE", attributes⟩ := by
  cases h with
  | absent _ => exact @Legible.update query none nofun
  | @counted c n rest _ hn =>
    have htext : '\n' ∉ n.text.toList :=
      newline_notMem_text (hts (by simp)) (plain_number hn).goesOn (by simp [hn])
    refine @Legible.update query (some (.ofNumeral n.text)) ?_
    rintro _ ⟨⟩
    exact Literal.newlines_ofNumeral n.text htext
  | uncounted _ _ =>
    refine @Legible.update query (some (.number (.ofNat 1))) ?_
    rintro _ ⟨⟩
    rfl

/-- **The nodes of a statement are legible.** -/
theorem StatementPhrase.legible (h : StatementPhrase o ts rest) (hts : ts ⊆ tokenize query) :
    ∀ n ∈ o.values, Legible query n := by
  -- What a phrase leaves are still tokens of the query.
  have hleft {p : Token → Prop} {us mid : List Token} (hus : us ⊆ tokenize query)
      (h : Taken p us mid) : mid ⊆ tokenize query := fun t ht => hus (h.mem ht)
  cases h with
  | select _ hp _ he hb hd hl =>
    rw [List.cons_subset] at hts
    have hsource := hleft hts.2 hp.taken
    rw [List.cons_subset, List.cons_subset] at hsource
    have horder := hleft hsource.2.2 hb.taken
    simp only [Outline.values, Outline.valuesAll_leaf_cons, Outline.valuesAll_append,
      List.forall_mem_append, List.forall_mem_cons]
    exact ⟨.bare (by decide) (by decide), hp.legible hts.2, he.legible hsource.2.1,
      ⟨hb.legible, hd.legible horder⟩, hl.legible (hleft horder hd.taken)⟩
  | find _ he hb hd =>
    rw [List.cons_subset, List.cons_subset] at hts
    simp only [Outline.values, Outline.valuesAll_leaf_cons, Outline.valuesAll_append,
      List.forall_mem_append, List.forall_mem_cons]
    exact ⟨.bare (by decide) (by decide), he.legible hts.2.1, hb.legible,
      hd.legible (hleft hts.2.2 hb.taken)⟩
  | update _ he _ has hb hc =>
    rw [List.cons_subset, List.cons_subset, List.cons_subset] at hts
    have hfilter := hleft hts.2.2.2 has.taken
    simp only [Outline.values, Outline.valuesAll_leaf_cons, Outline.valuesAll_append,
      List.forall_mem_append, List.forall_mem_cons]
    exact ⟨hc.legible (hleft hfilter hb.taken), IsSource.legible (.inl he) hts.2.1,
      has.legible hts.2.2.2, hb.legible⟩
  | analyze _ he hb hg =>
    rw [List.cons_subset, List.cons_subset] at hts
    simp only [Outline.values, Outline.valuesAll_leaf_cons, Outline.valuesAll_append,
      List.forall_mem_append, List.forall_mem_cons]
    exact ⟨.bare (by decide) (by decide), IsSource.legible (.inl he) hts.2.1, hb.legible,
      hg.legible (hleft hts.2.2 hb.taken)⟩

end Phrases

end StoreQL.Query
