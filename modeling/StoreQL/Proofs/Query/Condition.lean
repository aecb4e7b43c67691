/-
# Conditions are opaque

What stands in a condition does not come into what a query says: it is passed over up to the next
word that begins a clause, or up to the end. So any condition may be put in the place of another,
wherever a query that ends with the word `WHERE` is a query with a condition.

That word is then the beginning of the condition, or stands in it, or behind the statement.
`PassesOver said read` says of a reader that it goes on after such a word as if nothing stood there:
where it takes all tokens up to the word and what it reads is `said` to have a condition, the tokens
that a condition may have can be put behind the word. Readers before the condition look at one token
more than they take, and clauses after it take no word `WHERE` (`Plain`), so the property passes
from the condition to the statement.

Main statements: `statement_passesOver`; `filtered_of_node`, that a node of a condition comes from
nothing but a condition; and `parseTokens_condition_opaque`.
-/
import Mathlib.Data.List.TakeWhile
import StoreQL.Proofs.Query.Extent

namespace StoreQL.Query

open Reader

variable {α β : Type}

/-! ## 1. Readers that pass over a condition -/

/-- The reader goes on behind a word `WHERE` that it has taken, if what it reads has a condition, as
if the tokens of a condition were not there. With nothing to read it reads nothing of that kind. -/
structure PassesOver (said : α → Prop) (read : Reader α) : Prop where
  unsaid : ∀ a rest, read [] = .ok (a, rest) → ¬ said a
  passes : ∀ (before : List Token) (w : Token) (a : α), w.isKeyword "WHERE" = true →
    read (before ++ [w]) = .ok (a, []) → said a →
    ∀ condition after : List Token, (∀ t ∈ condition, PassedOver t) →
      read (before ++ w :: (condition ++ after)) = read (before ++ w :: after)

variable {said : α → Prop}

/-- Some tokens and one more end with that one, or there is nothing left of them. -/
theorem append_concat_cases {before taken rest : List Token} {w : Token}
    (h : before ++ [w] = taken ++ rest) :
    rest = [] ∨ ∃ left, before = taken ++ left ∧ rest = left ++ [w] := by
  rcases List.eq_nil_or_concat rest with rfl | ⟨left, x, rfl⟩
  · exact .inl rfl
  · rw [List.concat_eq_append] at h ⊢
    rw [← List.append_assoc] at h
    obtain ⟨rfl, hx⟩ := List.append_inj' h rfl
    exact .inr ⟨left, rfl, congrArg (left ++ ·) hx.symm⟩

/-- What a local reader takes, where it reads something. -/
theorem LocalAt.takes {read : Reader α} {ts rest : List Token} {a : α} (h : LocalAt read ts)
    (hread : read ts = .ok (a, rest)) :
    ∃ taken, ts = taken ++ rest ∧ Decides read taken (.ok a) rest.head? :=
  h.decides hread

theorem passesOver_refuse (complaint : Complaint) : PassesOver said (refuse complaint) :=
  ⟨nofun, nofun⟩

/-- **A reader before one that passes over a condition**: the first does not take the word, as
nothing would be left then, and takes the same whatever stands behind it. -/
theorem PassesOver.andThen {first : Reader β} {second : β → Reader α}
    (hfirst : ∀ ts, LocalAt first ts) (hsecond : ∀ b, PassesOver said (second b)) :
    PassesOver said (Reader.andThen first second) := by
  refine ⟨fun a rest h => ?_, fun before w a hw h ha condition after hcondition => ?_⟩
  · obtain ⟨b, mid, hread, hread'⟩ := andThen_eq_ok_iff.mp h
    obtain ⟨taken, heq, -⟩ := (hfirst []).takes hread
    obtain rfl : mid = [] := (List.append_eq_nil_iff.mp heq.symm).2
    exact (hsecond b).unsaid a rest hread'
  · obtain ⟨b, mid, hread, hread'⟩ := andThen_eq_ok_iff.mp h
    obtain ⟨taken, heq, hd⟩ := (hfirst _).takes hread
    rcases append_concat_cases heq with rfl | ⟨left, rfl, rfl⟩
    · exact absurd ha ((hsecond b).unsaid a [] hread')
    · have hsame : ∀ more, Reader.andThen first second ((taken ++ left) ++ w :: more) =
          second b (left ++ w :: more) := by
        intro more
        have hmore : first (taken ++ (left ++ w :: more)) = .ok (b, left ++ w :: more) :=
          hd _ (head?_append_congr left rfl)
        rw [List.append_assoc, Reader.andThen, hmore]
        rfl
      rw [hsame, hsame]
      exact (hsecond b).passes left w a hw hread' ha condition after hcondition

/-- A choice by a token that stays the same. -/
theorem PassesOver.ifNext {p : Token → Bool} {yes no : Reader α} (hyes : PassesOver said yes)
    (hno : PassesOver said no) : PassesOver said (Reader.ifNext p yes no) := by
  refine ⟨hno.unsaid, fun before w a hw h ha condition after hcondition => ?_⟩
  have hsame : ∀ more, Next (fun t => p t = true) (before ++ w :: more) ↔
      Next (fun t => p t = true) (before ++ [w]) :=
    fun more => next_congr (head?_append_congr before rfl)
  by_cases hp : Next (fun t => p t = true) (before ++ [w])
  · rw [ifNext_of_next hp] at h
    rw [ifNext_of_next ((hsame _).mpr hp), ifNext_of_next ((hsame _).mpr hp)]
    exact hyes.passes before w a hw h ha condition after hcondition
  · rw [ifNext_of_not_next hp] at h
    rw [ifNext_of_not_next (mt (hsame _).mp hp), ifNext_of_not_next (mt (hsame _).mp hp)]
    exact hno.passes before w a hw h ha condition after hcondition

/-! ## 2. The condition -/

theorem filterReader_of_where {w : Token} (hw : w.isKeyword "WHERE" = true) (ts : List Token) :
    filterReader (w :: ts) = .ok (true, ts.dropWhile inCondition) := by
  have hnext : Next (fun t => t.isKeyword "WHERE" = true) (w :: ts) := hw
  rw [filterReader, ifNext_of_next hnext]
  rfl

theorem filterReader_of_not_where {ts : List Token}
    (hts : ¬ Next (fun t => t.isKeyword "WHERE" = true) ts) : filterReader ts = .ok (false, ts) := by
  rw [filterReader, ifNext_of_not_next hts]
  rfl

/-- Where everything up to the word `WHERE` stands in a condition, so does what a condition may have
behind it. -/
theorem dropWhile_condition {before condition : List Token} {w : Token}
    (hall : ∀ t ∈ before ++ [w], inCondition t = true) (hcondition : ∀ t ∈ condition, PassedOver t)
    (after : List Token) :
    (before ++ w :: (condition ++ after)).dropWhile inCondition = after.dropWhile inCondition := by
  have hrun : ∀ t ∈ before ++ [w] ++ condition, inCondition t = true := by
    intro t ht
    rcases List.mem_append.mp ht with ht | ht
    · exact hall t ht
    · exact inCondition_iff.mpr (hcondition t ht)
  have hparts : before ++ w :: (condition ++ after) = before ++ [w] ++ condition ++ after := by
    simp
  rw [hparts, List.dropWhile_append_of_pos hrun]

/-- **A condition is passed over** by a reader of it and of clauses that take no word `WHERE`. -/
theorem passesOver_filter {clauses : Bool → Reader α}
    (hunsaid : ∀ {ts a rest}, clauses false ts = .ok (a, rest) → ¬ said a)
    (hplain : ∀ {ts a}, clauses true ts = .ok (a, []) → Taken Plain ts []) :
    PassesOver said (Reader.andThen filterReader clauses) := by
  refine ⟨fun a rest h => hunsaid h, fun before w a hw h ha condition after hcondition => ?_⟩
  -- The reader of the clauses takes the last word, which no clause has, so none is left for it.
  have hnothing : ∀ {ts : List Token}, clauses true (ts.dropWhile inCondition) = .ok (a, []) →
      (∃ front, ts = front ++ [w]) → ∀ t ∈ ts, inCondition t = true := by
    rintro _ hread ⟨front, rfl⟩
    rw [← List.dropWhile_eq_nil_iff]
    have hparts := List.takeWhile_append_dropWhile (p := inCondition) (l := front ++ [w])
    rcases append_concat_cases hparts.symm with hnil | ⟨left, -, hleft⟩
    · exact hnil
    · rw [hleft] at hread
      have htaken := hplain hread
      rw [← List.append_nil (left ++ [w])] at htaken
      have hw' : Plain w := htaken.forall w (by simp)
      rw [Plain, hw] at hw'
      cases hw'.2
  have hpass : ∀ {v : Token} {ts : List Token}, v.isKeyword "WHERE" = true →
      Reader.andThen filterReader clauses (v :: ts) =
        clauses true (ts.dropWhile inCondition) := by
    intro v ts hv
    rw [Reader.andThen, filterReader_of_where hv]
    rfl
  cases before with
  | nil =>
    rw [List.nil_append, List.nil_append, hpass hw, hpass hw]
    exact congrArg (clauses true)
      (List.dropWhile_append_of_pos fun t ht => inCondition_iff.mpr (hcondition t ht))
  | cons v before =>
    rw [List.cons_append] at h
    by_cases hv : v.isKeyword "WHERE" = true
    · rw [hpass hv] at h
      have hall := hnothing h ⟨before, rfl⟩
      rw [List.cons_append, List.cons_append, hpass hv, hpass hv,
        dropWhile_condition hall hcondition after]
      have hempty := dropWhile_condition hall (List.forall_mem_nil PassedOver) after
      rw [List.nil_append] at hempty
      rw [hempty]
    · have hnot : ¬ Next (fun t => t.isKeyword "WHERE" = true) (v :: (before ++ [w])) := hv
      rw [Reader.andThen, filterReader_of_not_where hnot] at h
      exact absurd ha (hunsaid h)

/-! ## 3. Statements -/

/-- Whether the statement has a condition. -/
def Statement.isFiltered : Statement → Bool
  | .select _ _ filtered _ _ | .find _ filtered _ | .update _ _ filtered _
  | .analyze _ filtered _ => filtered

/-- The statement has a condition. -/
abbrev Filtered (s : Statement) : Prop := s.isFiltered = true

theorem selectStatement_passesOver : PassesOver Filtered selectStatement := by
  have hprojection : Completable anything anything projection fromNext := completable_projection
  rw [selectStatement_eq, collectionName_eq]
  refine .andThen (fun ts => hprojection.locality ts trivial) fun p => ?_
  refine .andThen (localAt_token _ _) fun _ => .andThen (localAt_token _ _) fun source => ?_
  refine passesOver_filter (fun h => ?_) (fun h => ?_)
  · obtain ⟨_, _, _, h⟩ := andThen_eq_ok_iff.mp h
    obtain ⟨_, _, _, hgive⟩ := andThen_eq_ok_iff.mp h
    cases hgive
    nofun
  · obtain ⟨order, _, horder, h⟩ := andThen_eq_ok_iff.mp h
    obtain ⟨limit, _, hlimit, hgive⟩ := andThen_eq_ok_iff.mp h
    cases hgive
    exact (orderClause_iff.mp ⟨order, horder, rfl⟩).taken.trans
      (limitClause_iff.mp ⟨limit, hlimit, rfl⟩).taken

theorem findStatement_passesOver : PassesOver Filtered findStatement := by
  rw [findStatement_eq, collectionName_eq]
  refine .andThen (localAt_token _ _) fun entity => ?_
  refine passesOver_filter (fun h => ?_) (fun h => ?_)
  · obtain ⟨_, _, _, hgive⟩ := andThen_eq_ok_iff.mp h
    cases hgive
    nofun
  · obtain ⟨order, _, horder, hgive⟩ := andThen_eq_ok_iff.mp h
    cases hgive
    exact (orderClause_iff.mp ⟨order, horder, rfl⟩).taken

theorem updateStatement_passesOver : PassesOver Filtered updateStatement := by
  rw [updateStatement_eq, identifier_eq]
  refine .andThen (localAt_token _ _) fun entity => .andThen (localAt_token _ _) fun _ => ?_
  refine .andThen (fun ts => completable_assignments.locality ts trivial) fun as => ?_
  refine passesOver_filter (fun h => ?_) (fun h => ?_)
  · obtain ⟨_, _, _, hgive⟩ := andThen_eq_ok_iff.mp h
    cases hgive
    nofun
  · obtain ⟨workers, _, hworkers, hgive⟩ := andThen_eq_ok_iff.mp h
    cases hgive
    exact (concurrentReader_iff.mp ⟨workers, hworkers, rfl⟩).taken

theorem analyzeStatement_passesOver : PassesOver Filtered analyzeStatement := by
  rw [analyzeStatement_eq, identifier_eq]
  refine .andThen (localAt_token _ _) fun entity => ?_
  refine passesOver_filter (fun h => ?_) (fun h => ?_)
  · obtain ⟨_, _, _, hgive⟩ := andThen_eq_ok_iff.mp h
    cases hgive
    nofun
  · obtain ⟨group, _, hgroup, hgive⟩ := andThen_eq_ok_iff.mp h
    cases hgive
    exact (groupClause_iff.mp ⟨group, hgroup, rfl⟩).taken

/-- **Statements pass over their conditions**, each of the four kinds. -/
theorem statement_passesOver : PassesOver Filtered statement := by
  rw [statement_eq]
  refine .ifNext (.andThen localAt_pass fun _ => selectStatement_passesOver) ?_
  refine .ifNext (.andThen localAt_pass fun _ => findStatement_passesOver) ?_
  refine .ifNext (.andThen localAt_pass fun _ => updateStatement_passesOver) ?_
  exact .ifNext (.andThen localAt_pass fun _ => analyzeStatement_passesOver)
    (passesOver_refuse .noStatement)

/-! ## 4. The node of a condition -/

/-- The kinds of the nodes of an outline, in pre-order. -/
def nodeKinds (o : Outline Node) : List Node.Kind := o.values.map Node.kind

@[simp] theorem nodeKinds_node (n : Node) (os : List (Outline Node)) :
    nodeKinds (.node n os) = n.kind :: os.flatMap nodeKinds := by
  rw [nodeKinds, Outline.values, Outline.valuesAll_eq_flatMap, List.map_cons, List.map_flatMap]
  rfl

@[simp] theorem kind_named (kind : Node.Kind) : (Node.named kind).kind = kind := rfl

@[simp] theorem nodeKinds_fieldLeaf (name : String) : nodeKinds (fieldLeaf name) = [.field] := rfl

@[simp] theorem nodeKinds_assignment (a : Assignment) :
    nodeKinds a.outline = [.assignment, .field, .value] := rfl

@[simp] theorem nodeKinds_order (o : Order) : nodeKinds o.outline = [.orderBy, .field] := rfl

@[simp] theorem nodeKinds_limit (numeral : String) :
    nodeKinds (limitOutline numeral) = [.limit] := rfl

@[simp] theorem nodeKinds_group (f : FieldPath) :
    nodeKinds (groupOutline f) = [.groupBy, .field] := rfl

@[simp] theorem filter_mem_filterOutline {filtered : Bool} :
    (∃ o ∈ filterOutline filtered, .filter ∈ nodeKinds o) ↔ filtered = true := by
  cases filtered <;> simp [filterOutline, leaf]

/-- A statement has a node of the kind of conditions just if it has a condition. -/
theorem filter_mem_nodeKinds {s : Statement} : .filter ∈ nodeKinds s.outline ↔ Filtered s := by
  cases s with
  | update entity assignments filtered workers =>
    rw [outline_update]
    simp [Statement.isFiltered]
  | select | find | analyze => simp [Statement.outline, Statement.isFiltered]

/-- **A node of a condition comes from nothing but a condition.** -/
theorem filtered_of_node {s : Statement} {h : Nat} {n : Node} (hget : s.tree.get? h = some n)
    (hkind : n.kind = .filter) : Filtered s := by
  rw [Statement.tree, Tree.get?_ofOutline] at hget
  have hmem : n.kind ∈ nodeKinds (.node rootNode [s.outline]) :=
    List.mem_map_of_mem (List.mem_of_getElem? hget)
  rw [hkind, nodeKinds_node, List.mem_cons, List.flatMap_singleton] at hmem
  rcases hmem with hroot | hstatement
  · cases hroot
  · exact filter_mem_nodeKinds.mp hstatement

/-! ## 5. Any condition for another -/

/-- What is read depends on the tokens behind it by an error at their end alone. -/
theorem readStatement_congr {ts ts' : List Token} (hempty : isEmptyQuery ts = isEmptyQuery ts')
    (hread : statement ts = statement ts') (hend : endToken ts = endToken ts') :
    readStatement ts = readStatement ts' := by
  unfold readStatement
  rw [hempty, hread]
  split
  · rfl
  · cases statement ts' with
    | ok x => rfl
    | error f => simp only [Failure.toError, hend]

/-- The end of some tokens is where the last of them ends. -/
theorem endToken_append (ts : List Token) {after : List Token} (h : after ≠ []) :
    endToken (ts ++ after) = endToken after := by
  unfold endToken
  rw [List.getLast?_append, List.getLast?_eq_some_getLast h, Option.some_or]

/-- A statement that stops before the last token is read alike whatever stands behind that one. -/
theorem readStatement_of_left {before left : List Token} {w : Token} {s : Statement}
    (hread : statement (before ++ [w]) = .ok (s, left ++ [w])) (ts : List Token) :
    readStatement (before ++ w :: ts) = .ok s := by
  obtain ⟨taken, heq, hd⟩ := (statement_local _).takes hread
  rw [← List.append_assoc] at heq
  obtain rfl : before = taken ++ left := List.append_cancel_right heq
  refine readStatement_eq_ok.mpr ⟨left ++ w :: ts, ?_⟩
  rw [List.append_assoc]
  exact hd _ (head?_append_congr left rfl)

/-- **A condition does not matter.** If some tokens that end with the word `WHERE` are a query, and
there is the node of a condition in its tree, then behind them any condition may stand for no
condition at all. -/
theorem readStatement_where {before condition after : List Token} {w : Token} {s : Statement}
    (hw : w.isKeyword "WHERE" = true) (hparse : readStatement (before ++ [w]) = .ok s)
    (hs : Filtered s) (hcondition : ∀ t ∈ condition, PassedOver t) :
    readStatement (before ++ w :: (condition ++ after)) = readStatement (before ++ w :: after) := by
  obtain ⟨rest, hread⟩ := readStatement_eq_ok.mp hparse
  obtain ⟨taken, heq, -⟩ := (statement_local _).takes hread
  rcases append_concat_cases heq with rfl | ⟨left, -, rfl⟩
  · have hpass := statement_passesOver.passes before w s hw hread hs condition
    cases after with
    | nil =>
      -- Nothing can fail behind the condition, so the end of the tokens is not named.
      have hall := hpass [] hcondition
      rw [hread, List.append_nil] at hall
      rw [List.append_nil, hparse]
      exact readStatement_eq_ok.mpr ⟨[], hall⟩
    | cons t after =>
      refine readStatement_congr (isEmptyQuery_append_cons before w _ _)
        (hpass (t :: after) hcondition) ?_
      have hafter : t :: after ≠ [] := List.cons_ne_nil t after
      calc endToken (before ++ w :: (condition ++ t :: after))
          = endToken ((before ++ w :: condition) ++ t :: after) := by simp
        _ = endToken (t :: after) := endToken_append _ hafter
        _ = endToken ((before ++ [w]) ++ t :: after) := (endToken_append _ hafter).symm
        _ = endToken (before ++ w :: t :: after) := by simp
  · rw [readStatement_of_left hread, readStatement_of_left hread]

/-- **Conditions are opaque.** If some tokens that end with the word `WHERE` are a query whose tree
has the node of a condition, then whatever stands behind them, any two runs of tokens that a
condition may have lead to the same tree, or to the same error at the same place. -/
theorem parseTokens_condition_opaque (before condition condition' after : List Token) (w : Token)
    (tree : SyntaxTree) (hw : w.isKeyword "WHERE" = true)
    (hparse : parseTokens (before ++ [w]) = .ok tree)
    (hnode : ∃ h n, tree.get? h = some n ∧ n.kind = .filter)
    (hcondition : ∀ t ∈ condition, PassedOver t) (hcondition' : ∀ t ∈ condition', PassedOver t) :
    parseTokens (before ++ [w] ++ condition ++ after) =
      parseTokens (before ++ [w] ++ condition' ++ after) := by
  rw [parseTokens_eq] at hparse
  obtain ⟨s, hs, rfl⟩ := map_eq_ok_iff.mp hparse
  obtain ⟨h, n, hget, hkind⟩ := hnode
  have hfiltered : Filtered s := filtered_of_node hget hkind
  have hforms : ∀ c : List Token, before ++ [w] ++ c ++ after = before ++ w :: (c ++ after) := by
    intro c
    simp
  rw [hforms, hforms, parseTokens_eq, parseTokens_eq, readStatement_where hw hs hfiltered hcondition,
    readStatement_where hw hs hfiltered hcondition']

/-- An order that names nothing is the same error, whatever condition stands before it. -/
theorem parseTokens_condition_opaque_order :
    let before := [someWord "FIND", someName]
    let condition := [someName, ⟨.operator, "=", .start⟩, someNumber]
    let after : List Token := [⟨.keyword, "ORDER", ⟨1, 20⟩⟩]
    parseTokens (before ++ [someWord "WHERE"] ++ condition ++ after) =
        parseTokens (before ++ [someWord "WHERE"] ++ [] ++ after) ∧
      parseTokens (before ++ [someWord "WHERE"] ++ [] ++ after) =
        .error (.expected .by "end of input" ⟨1, 20⟩) := by
  intro before condition after
  have hparse : parseTokens (before ++ [someWord "WHERE"]) =
      .ok (Statement.find "x" true none).tree := rfl
  have hnode : (Statement.find "x" true none).tree.get? 3 = some (.named .filter) := rfl
  have hcondition : ∀ t ∈ condition, PassedOver t := by
    intro t ht
    refine inCondition_iff.mp ?_
    revert t
    decide
  refine ⟨?_, rfl⟩
  exact parseTokens_condition_opaque before condition [] after _ _ rfl hparse ⟨3, _, hnode, rfl⟩
    hcondition (List.forall_mem_nil PassedOver)

end StoreQL.Query
