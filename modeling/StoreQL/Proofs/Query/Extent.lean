/-
# How far a statement reaches

A statement phrase consists of identifiers, numbers and strings, of marks, of words and of the
tokens of its condition. None of these is terminal, and outside of the condition and the name of a
collection none of them is the word `WHERE` (`Plain`). `Taken p ts rest` says so of what a phrase
takes of `ts`, one lemma for each phrase.

A reader that fails has taken what some statement begins with (`completable_statement`), so it has
taken no terminal token either. As it looks at one token more at most (`statement_local`), nothing
after the first terminal token has any influence.

Main statements: `StatementPhrase.taken`; `statement_stops`, that the reader of statements stops at
a terminal token or before it; and `parseTokens_terminal`, that what comes after such a token does
not matter.
-/
import StoreQL.Proofs.Query.Completion

namespace StoreQL.Query

/-! ## 1. What is taken -/

/-- The tokens of `ts` that come before `rest` all have the property. -/
def Taken (p : Token → Prop) (ts rest : List Token) : Prop :=
  ∃ taken, ts = taken ++ rest ∧ ∀ t ∈ taken, p t

section Taken

variable {p q : Token → Prop} {t : Token} {ts mid rest : List Token}

theorem Taken.nothing (ts : List Token) : Taken p ts ts := ⟨[], rfl, nofun⟩

theorem Taken.cons (ht : p t) (h : Taken p ts rest) : Taken p (t :: ts) rest := by
  obtain ⟨taken, rfl, hall⟩ := h
  exact ⟨t :: taken, rfl, List.forall_mem_cons.mpr ⟨ht, hall⟩⟩

theorem Taken.trans (h : Taken p ts mid) (h' : Taken p mid rest) : Taken p ts rest := by
  obtain ⟨taken, rfl, hall⟩ := h
  obtain ⟨taken', rfl, hall'⟩ := h'
  refine ⟨taken ++ taken', (List.append_assoc _ _ _).symm, fun t ht => ?_⟩
  rcases List.mem_append.mp ht with ht | ht
  · exact hall t ht
  · exact hall' t ht

theorem Taken.mono (hpq : ∀ t, p t → q t) (h : Taken p ts rest) : Taken q ts rest := by
  obtain ⟨taken, rfl, hall⟩ := h
  exact ⟨taken, rfl, fun t ht => hpq t (hall t ht)⟩

theorem Taken.forall {taken : List Token} (h : Taken p (taken ++ rest) rest) :
    ∀ t ∈ taken, p t := by
  obtain ⟨taken', heq, hall⟩ := h
  rwa [List.append_cancel_right heq]

end Taken

/-! ## 2. Plain tokens -/

/-- The token does not end the input, and is not the word that begins a condition. -/
def Plain (t : Token) : Prop := t.isTerminal = false ∧ t.isKeyword "WHERE" = false

/-- The token does not end the input. -/
def GoesOn (t : Token) : Prop := t.isTerminal = false

variable {t : Token} {word : String} {ts rest : List Token}

theorem Plain.goesOn (h : Plain t) : GoesOn t := h.1

theorem goesOn_of_isKeyword (h : t.isKeyword word = true) : GoesOn t := by
  rw [GoesOn, Token.isTerminal, Reader.kind_of_isKeyword h]
  rfl

theorem plain_of_kind {kind : Token.Kind} (h : t.kind = kind) (hterminal : kind.isTerminal = false)
    (hkeyword : kind ≠ .keyword) : Plain t := by
  refine ⟨?_, ?_⟩
  · rw [Token.isTerminal, h, hterminal]
  · rw [Bool.eq_false_iff]
    intro hword
    exact hkeyword (h.symm.trans (Reader.kind_of_isKeyword hword))

theorem plain_of_isKeyword (h : t.isKeyword word = true) (hne : word ≠ "WHERE") : Plain t := by
  refine ⟨goesOn_of_isKeyword h, ?_⟩
  rw [Bool.eq_false_iff]
  intro hwhere
  exact hne (Reader.isKeyword_unique h hwhere)

theorem plain_identifier (h : t.kind = .identifier) : Plain t := plain_of_kind h rfl (by decide)

theorem plain_number (h : t.kind = .number) : Plain t := plain_of_kind h rfl (by decide)

theorem ValueToken.plain {v : Literal} (h : ValueToken t v) : Plain t := by
  cases h with
  | string h => exact plain_of_kind h rfl (by decide)
  | number h => exact plain_number h
  | true h | false h | null h => exact plain_of_isKeyword h (by decide)

theorem IsSource.goesOn (h : IsSource t) : GoesOn t := by
  rw [GoesOn, Token.isTerminal]
  rcases h with h | h <;> rw [h] <;> rfl

theorem PassedOver.goesOn (h : PassedOver t) : GoesOn t := by
  rw [GoesOn, Token.isTerminal]
  cases hkind : t.kind with
  | endOfInput => exact absurd hkind h.1
  | error => exact absurd hkind h.2.1
  | _ => rfl

/-! ## 3. Phrases -/

section Phrases

variable {name direction : String} {o : Outline Node} {os : List (Outline Node)}

theorem FieldPhrase.taken (h : FieldPhrase name ts rest) : Taken Plain ts rest := by
  cases h with
  | plain hbase _ => exact .cons (plain_identifier hbase) (.nothing rest)
  | member hbase hdot hmember =>
    exact .cons (plain_identifier hbase) (.cons (plain_of_kind hdot rfl (by decide))
      (.cons (plain_identifier hmember) (.nothing rest)))

theorem ProjectionPhrase.taken (h : ProjectionPhrase name ts rest) : Taken Plain ts rest := by
  cases h with
  | whole hstar => exact .cons (plain_of_kind hstar rfl (by decide)) (.nothing rest)
  | field hfield => exact hfield.taken

theorem AssignmentPhrase.taken (h : AssignmentPhrase o ts rest) : Taken Plain ts rest := by
  cases h with
  | sets hfield hsign _ hvalue =>
    exact hfield.taken.trans (.cons (plain_of_kind hsign rfl (by decide))
      (.cons hvalue.plain (.nothing rest)))

theorem AssignmentsPhrase.taken (h : AssignmentsPhrase os ts rest) : Taken Plain ts rest := by
  induction h with
  | last ha _ => exact ha.taken
  | more ha hcomma _ ih => exact ha.taken.trans (.cons (plain_of_kind hcomma rfl (by decide)) ih)

theorem FilterPhrase.taken (h : FilterPhrase os ts rest) : Taken GoesOn ts rest := by
  cases h with
  | absent _ => exact .nothing ts
  | present hwhere hcondition _ =>
    exact .cons (goesOn_of_isKeyword hwhere) ⟨_, rfl, fun t ht => (hcondition t ht).goesOn⟩

theorem DirectionPhrase.taken (h : DirectionPhrase direction ts rest) : Taken Plain ts rest := by
  cases h with
  | said hword =>
    refine .cons ?_ (.nothing rest)
    rcases hword with hword | hword
    · exact plain_of_isKeyword hword (by decide)
    · exact plain_of_isKeyword hword (by decide)
  | unsaid _ => exact .nothing ts

theorem OrderPhrase.taken (h : OrderPhrase os ts rest) : Taken Plain ts rest := by
  cases h with
  | absent _ => exact .nothing ts
  | present horder hby hfield hdirection =>
    exact .cons (plain_of_isKeyword horder (by decide)) (.cons (plain_of_isKeyword hby (by decide))
      (hfield.taken.trans hdirection.taken))

theorem LimitPhrase.taken (h : LimitPhrase os ts rest) : Taken Plain ts rest := by
  cases h with
  | absent _ => exact .nothing ts
  | present hlimit hcount =>
    exact .cons (plain_of_isKeyword hlimit (by decide))
      (.cons (plain_number hcount) (.nothing rest))

theorem GroupPhrase.taken (h : GroupPhrase os ts rest) : Taken Plain ts rest := by
  cases h with
  | absent _ => exact .nothing ts
  | present hgroup hby hfield =>
    exact .cons (plain_of_isKeyword hgroup (by decide))
      (.cons (plain_of_isKeyword hby (by decide)) hfield.taken)

theorem ConcurrentPhrase.taken {attributes : Dictionary Literal}
    (h : ConcurrentPhrase attributes ts rest) : Taken Plain ts rest := by
  cases h with
  | absent _ => exact .nothing ts
  | counted hword hcount =>
    exact .cons (plain_of_isKeyword hword (by decide)) (.cons (plain_number hcount) (.nothing rest))
  | uncounted hword _ => exact .cons (plain_of_isKeyword hword (by decide)) (.nothing rest)

/-- **No token of a statement ends the input.** -/
theorem StatementPhrase.taken (h : StatementPhrase o ts rest) : Taken GoesOn ts rest := by
  have hplain : ∀ t, Plain t → GoesOn t := fun _ ht => ht.goesOn
  cases h with
  | select hword hprojection hfrom hsource hfilter horder hlimit =>
    refine .cons (goesOn_of_isKeyword hword) ((hprojection.taken.mono hplain).trans ?_)
    refine .cons (goesOn_of_isKeyword hfrom) (.cons hsource.goesOn (hfilter.taken.trans ?_))
    exact (horder.taken.trans hlimit.taken).mono hplain
  | find hword hsource hfilter horder =>
    refine .cons (goesOn_of_isKeyword hword) (.cons hsource.goesOn (hfilter.taken.trans ?_))
    exact horder.taken.mono hplain
  | update hword hentity hset hassignments hfilter hworkers =>
    refine .cons (goesOn_of_isKeyword hword) (.cons (plain_identifier hentity).goesOn ?_)
    refine .cons (goesOn_of_isKeyword hset) ((hassignments.taken.mono hplain).trans ?_)
    exact hfilter.taken.trans (hworkers.taken.mono hplain)
  | analyze hword hentity hfilter hgroup =>
    refine .cons (goesOn_of_isKeyword hword) (.cons (plain_identifier hentity).goesOn ?_)
    exact hfilter.taken.trans (hgroup.taken.mono hplain)

end Phrases

/-! ## 4. The first terminal token -/

/-- What the reader of statements takes does not end the input. Where it fails, some statement goes
on from there. -/
theorem goesOn_of_statement {taken rest : List Token} {out : Except Complaint Statement}
    (h : statement (taken ++ rest) = answer out rest) : ∀ t ∈ taken, GoesOn t := by
  cases out with
  | ok s =>
    have hphrase : StatementPhrase s.outline (taken ++ rest) rest := statement_iff.mp ⟨s, h, rfl⟩
    exact hphrase.taken.forall
  | error c =>
    obtain ⟨fix, s, hmend⟩ := completable_statement.mended trivial h
    have hread : statement (taken ++ (fix ++ [])) = .ok (s, []) := hmend.reads [] rfl
    have hphrase : StatementPhrase s.outline ((taken ++ fix) ++ []) [] := by
      rw [List.append_assoc]
      exact statement_iff.mp ⟨s, hread, rfl⟩
    intro t ht
    exact hphrase.taken.forall t (List.mem_append_left fix ht)

/-- **The reader of statements stops at a terminal token or before it**, and does so whatever comes
after. -/
theorem statement_stops (a : List Token) (ht : t.isTerminal = true) :
    ∃ taken left out, a = taken ++ left ∧
      ∀ s, statement (a ++ t :: s) = answer out (left ++ t :: s) := by
  obtain ⟨taken, out, rest, heq, hd⟩ := statement_local (a ++ [t])
  have hread : statement (taken ++ rest) = answer out rest := hd rest rfl
  have hgoes : ∀ x ∈ taken, GoesOn x := goesOn_of_statement hread
  rcases List.append_eq_append_iff.mp heq with ⟨more, rfl, hmore⟩ | ⟨left, rfl, rfl⟩
  · -- Beyond `a` only the terminal token is left, and it is not taken.
    cases more with
    | nil =>
      rw [List.nil_append] at hmore
      subst hmore
      rw [List.append_nil] at hd
      exact ⟨a, [], out, (List.append_nil a).symm, fun s => hd (t :: s) rfl⟩
    | cons x more =>
      rw [List.cons_append, List.cons.injEq] at hmore
      have hx : GoesOn x := hgoes x (by simp)
      rw [GoesOn, ← hmore.1, ht] at hx
      cases hx
  · refine ⟨taken, left, out, rfl, fun s => ?_⟩
    rw [List.append_assoc]
    exact hd (left ++ t :: s) (head?_append_congr left rfl)

/-- **What comes after a terminal token does not matter**: the end of the input, or an error, is the
last token that is looked at, whatever it stands in. -/
theorem parseTokens_terminal (a : List Token) (t : Token) (s : List Token)
    (ht : t.isTerminal = true) : parseTokens (a ++ [t] ++ s) = parseTokens (a ++ [t]) := by
  obtain ⟨taken, left, out, rfl, hread⟩ := statement_stops a ht
  have hempty : isEmptyQuery ((taken ++ left) ++ t :: s) = isEmptyQuery ((taken ++ left) ++ [t]) :=
    isEmptyQuery_append_cons _ t s []
  rw [List.append_assoc, List.singleton_append, parseTokens_eq, parseTokens_eq]
  refine congrArg (Except.map Statement.tree) ?_
  rw [readStatement, readStatement, hempty, hread s, hread []]
  split
  · rfl
  · cases out with
    | ok v => rfl
    | error c =>
      -- The token that the error names is one of `left`, or the terminal one.
      refine congrArg Except.error ?_
      cases left with
      | nil => exact toError_cons _ _ c t s []
      | cons x left => exact toError_cons _ _ c x _ _

/-- A condition is not passed over beyond an error, so the order behind it is not looked at. -/
theorem parseTokens_terminal_condition :
    let a := [someWord "FIND", someName, someWord "WHERE", someName]
    let t : Token := ⟨.error, "?", ⟨1, 16⟩⟩
    t.isTerminal = true ∧
      parseTokens (a ++ [t] ++ [someWord "ORDER"]) = parseTokens (a ++ [t]) ∧
      parseTokens (a ++ [t]) = .ok (Statement.find "x" true none).tree := by
  intro a t
  exact ⟨rfl, parseTokens_terminal a t _ rfl, rfl⟩

end StoreQL.Query
