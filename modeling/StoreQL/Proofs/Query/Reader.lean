/-
# Readers as chains

The readers of queries are written out one by one. Here each of them is shown to be put together
from seven pieces: take one token, take one whatever it is, pass over a run, look at the next token
and choose, give a value, refuse, and one reader after another. What holds of the pieces and is kept
by their composition then holds of every reader.

Main statements: the equations, one for each reader.
-/
import StoreQL.Proofs.Run
import StoreQL.Query.Parse

namespace StoreQL.Query

variable {α β : Type}

/-- What takes a value off the front of some tokens, or fails. -/
abbrev Reader (α : Type) := List Token → Except Failure (α × List Token)

namespace Reader

/-! ## 1. The pieces -/

/-- Take one token, if it has a value. -/
def token (take : Token → Option α) (complaint : Complaint) : Reader α
  | [] => .error ⟨complaint, []⟩
  | t :: ts =>
    match take t with
    | some a => .ok (a, ts)
    | none => .error ⟨complaint, t :: ts⟩

/-- Take one token, whatever it is. -/
def pass : Reader Unit := fun ts => .ok ((), ts.tail)

/-- Take the run of tokens that have a property. -/
def passWhile (p : Token → Bool) : Reader Unit := fun ts => .ok ((), ts.dropWhile p)

/-- Take nothing. -/
def give (a : α) : Reader α := fun ts => .ok (a, ts)

/-- Fail at the next token. -/
def refuse (complaint : Complaint) : Reader α := fun ts => .error ⟨complaint, ts⟩

/-- Look at the next token without taking it. -/
def ifNext (p : Token → Bool) (yes no : Reader α) : Reader α
  | [] => no []
  | t :: ts => if p t then yes (t :: ts) else no (t :: ts)

/-- One reader after another. -/
def andThen (first : Reader α) (second : α → Reader β) : Reader β :=
  fun ts => first ts >>= fun x => second x.1 x.2

/-- A token of one kind, for its text. -/
def textOf (kind : Token.Kind) (t : Token) : Option String :=
  if t.kind = kind then some t.text else none

/-- A token that is a certain keyword. -/
def wordOf (word : String) (t : Token) : Option Unit :=
  if t.isKeyword word then some () else none

/-! ## 2. When a chain succeeds -/

theorem kind_of_isKeyword {t : Token} {word : String} (h : t.isKeyword word = true) :
    t.kind = .keyword := by
  simp only [Token.isKeyword, Bool.and_eq_true, beq_iff_eq] at h
  exact h.1

theorem text_of_isKeyword {t : Token} {word : String} (h : t.isKeyword word = true) :
    t.text = word := by
  simp only [Token.isKeyword, Bool.and_eq_true, beq_iff_eq] at h
  exact h.2

/-- A token is at most one keyword. -/
theorem isKeyword_unique {t : Token} {a b : String} (ha : t.isKeyword a = true)
    (hb : t.isKeyword b = true) : a = b :=
  (text_of_isKeyword ha).symm.trans (text_of_isKeyword hb)

theorem token_eq_ok_iff {take : Token → Option α} {complaint : Complaint} {a : α} :
    ∀ {ts rest : List Token},
      token take complaint ts = .ok (a, rest) ↔ ∃ t, ts = t :: rest ∧ take t = some a
  | [], rest => by simp [token]
  | t :: ts, rest => by
    constructor
    · intro h
      simp only [token] at h
      split at h
      · rename_i ht
        cases h
        exact ⟨t, rfl, ht⟩
      · cases h
    · rintro ⟨t', heq, ht⟩
      cases heq
      simp only [token, ht]

theorem token_eq_error {take : Token → Option α} {complaint : Complaint} {f : Failure} :
    ∀ {ts : List Token}, token take complaint ts = .error f → f = ⟨complaint, ts⟩
  | [], h => by
    cases h
    rfl
  | t :: ts, h => by
    simp only [token] at h
    split at h
    · cases h
    · cases h
      rfl

theorem textOf_eq_some_iff {kind : Token.Kind} {t : Token} {s : String} :
    textOf kind t = some s ↔ t.kind = kind ∧ s = t.text := by
  unfold textOf
  split
  · rename_i h
    simp [h, eq_comm]
  · rename_i h
    simp [h]

theorem wordOf_eq_some_iff {word : String} {t : Token} {u : Unit} :
    wordOf word t = some u ↔ t.isKeyword word = true := by
  unfold wordOf
  split <;> simp_all

theorem ifNext_of_next {p : Token → Bool} {yes no : Reader α} : ∀ {ts : List Token},
    Next (fun t => p t = true) ts → ifNext p yes no ts = yes ts
  | [], h => h.elim
  | _ :: _, h => if_pos h

theorem ifNext_of_not_next {p : Token → Bool} {yes no : Reader α} : ∀ {ts : List Token},
    ¬ Next (fun t => p t = true) ts → ifNext p yes no ts = no ts
  | [], _ => rfl
  | _ :: _, h => if_neg h

theorem ifNext_eq_ok_iff {p : Token → Bool} {yes no : Reader α} {ts : List Token}
    {out : α × List Token} :
    ifNext p yes no ts = .ok out ↔
      (Next (fun t => p t = true) ts ∧ yes ts = .ok out) ∨
        (¬ Next (fun t => p t = true) ts ∧ no ts = .ok out) := by
  by_cases h : Next (fun t => p t = true) ts
  · simp [ifNext_of_next h, h]
  · simp [ifNext_of_not_next h, h]

/-- What is optional has been said if its first token comes, and is then read on after it. -/
theorem ifNext_pass_eq_ok_iff {p : Token → Bool} {body no : Reader α} {ts : List Token}
    {out : α × List Token} :
    ifNext p (andThen pass fun _ => body) no ts = .ok out ↔
      (∃ t mid, ts = t :: mid ∧ p t = true ∧ body mid = .ok out) ∨
        (¬ Next (fun t => p t = true) ts ∧ no ts = .ok out) := by
  rw [ifNext_eq_ok_iff]
  cases ts with
  | nil => simp
  | cons t ts =>
    constructor
    · rintro (⟨hp, hbody⟩ | hno)
      · exact .inl ⟨t, ts, rfl, hp, hbody⟩
      · exact .inr hno
    · rintro (⟨_, _, heq, hp, hbody⟩ | hno)
      · cases heq
        exact .inl ⟨hp, hbody⟩
      · exact .inr hno

theorem andThen_eq_ok_iff {first : Reader α} {second : α → Reader β} {ts rest : List Token}
    {b : β} :
    first.andThen second ts = .ok (b, rest) ↔
      ∃ a mid, first ts = .ok (a, mid) ∧ second a mid = .ok (b, rest) := by
  unfold andThen
  rw [bind_eq_ok_iff]
  exact Prod.exists

end Reader

open Reader

/-! ## 3. The readers -/

theorem startsWith_eq (word : String) (yes no : Reader α) (ts : List Token) :
    (if startsWith word ts then yes ts else no ts) =
      ifNext (fun t => t.isKeyword word) yes no ts := by
  cases ts with
  | nil => simp [startsWith, ifNext]
  | cons t ts => rfl

/-- A keyword is read for nothing but itself. -/
theorem keyword_bind (word : String) (what : Expectation) (ts : List Token)
    (next : List Token → Except Failure β) :
    keyword word what ts >>= next =
      token (wordOf word) (.expected what) ts >>= fun x => next x.2 := by
  cases ts with
  | nil => rfl
  | cons t ts =>
    by_cases h : t.isKeyword word = true
    · simp only [keyword, startsWith, token, wordOf, h, if_true, List.tail_cons]
      rfl
    · simp only [keyword, startsWith, missing, token, wordOf, h, Bool.false_eq_true, if_false]
      rfl

theorem equalsSign_bind (ts : List Token) (next : List Token → Except Failure β) :
    equalsSign ts >>= next =
      token (fun t => if t.kind = .operator ∧ t.text = "=" then some () else none)
        (.expected .equals) ts >>= fun x => next x.2 := by
  cases ts with
  | nil => rfl
  | cons t ts =>
    by_cases h : t.kind = .operator ∧ t.text = "="
    · simp only [equalsSign, token, if_pos h]
      rfl
    · simp only [equalsSign, missing, token, if_neg h]
      rfl

theorem identifier_eq (what : Expectation) :
    identifier what = token (textOf .identifier) (.expected what) := by
  funext ts
  cases ts with
  | nil => rfl
  | cons t ts =>
    simp only [identifier, missing, token, textOf]
    split <;> rfl

theorem collectionName_eq (what : Expectation) :
    collectionName what =
      token (fun t => if t.kind = .identifier ∨ t.kind = .keyword then some t.text else none)
        (.expected what) := by
  funext ts
  cases ts with
  | nil => rfl
  | cons t ts =>
    simp only [collectionName, missing, token]
    split <;> rfl

theorem literal_eq : literal = token literalOf? (.expected .value) := by
  funext ts
  cases ts with
  | nil => rfl
  | cons t ts =>
    simp only [literal, missing, token]
    split <;> simp_all

theorem fieldMember_eq :
    fieldMember =
      ifNext (fun t => t.kind = .dot)
        (andThen pass fun _ => andThen (identifier .member) fun m => give (some m))
        (give none) := by
  funext ts
  cases ts with
  | nil => rfl
  | cons t ts =>
    simp only [fieldMember, ifNext, decide_eq_true_eq]
    split
    · show (identifier .member ts).map _ = identifier .member ts >>= _
      cases identifier .member ts <;> rfl
    · rfl

theorem field_eq (what : Expectation) :
    field what = andThen (identifier what) fun base => andThen fieldMember fun member =>
      give ⟨base, member⟩ := rfl

theorem projected_eq :
    projected =
      ifNext (fun t => t.kind = .asterisk) (andThen pass fun _ => give .whole)
        (andThen (field .fieldList) fun f => give (.field f)) := by
  funext ts
  cases ts with
  | nil => rfl
  | cons t ts =>
    simp only [projected, ifNext, decide_eq_true_eq]
    split
    · rfl
    split
    · simp only [andThen]
      cases field .fieldList (t :: ts) <;> rfl
    · rename_i hkind
      have hfield : field .fieldList (t :: ts) = missing .fieldList (t :: ts) := by
        simp only [field, identifier, if_neg hkind]
        rfl
      simp only [andThen, hfield]
      rfl

theorem projection_eq :
    projection =
      andThen projected fun p =>
        ifNext (fun t => t.kind = .comma) (refuse .severalFields) (give p) := by
  funext ts
  refine bind_congr fun x => ?_
  obtain ⟨p, rest⟩ := x
  cases rest with
  | nil => rfl
  | cons t rest =>
    simp only [startsWithComma, ifNext, beq_iff_eq, decide_eq_true_eq]
    rfl

theorem assignment_eq :
    assignment =
      andThen (field .assignment) fun f =>
        andThen (token (fun t => if t.kind = .operator ∧ t.text = "=" then some () else none)
          (.expected .equals)) fun _ =>
        andThen literal fun v => give ⟨f, v⟩ := by
  funext ts
  refine bind_congr fun x => ?_
  exact equalsSign_bind x.2 _

theorem assignments_eq :
    assignments =
      andThen assignment fun a =>
        ifNext (fun t => t.kind = .comma)
          (andThen pass fun _ => andThen assignments fun as => give (a :: as)) (give [a]) := by
  funext ts
  rw [assignments]
  simp only [andThen]
  split
  · rename_i e h
    rw [h]
    rfl
  · rename_i a t rest h
    rw [h]
    simp only [bind, Except.bind, ifNext, decide_eq_true_eq]
    split
    · show (assignments rest).map _ = assignments rest >>= _
      cases assignments rest <;> rfl
    · rfl
  · rename_i a h
    rw [h]
    rfl

/-! ## 4. The clauses -/

/-- The reader of a condition. -/
def filterReader : Reader Bool :=
  ifNext (fun t => t.isKeyword "WHERE")
    (andThen pass fun _ => andThen (passWhile inCondition) fun _ => give true) (give false)

theorem filterClause_eq (ts : List Token) : .ok (filterClause ts) = filterReader ts := by
  unfold filterClause filterReader
  rw [← startsWith_eq]
  split <;> rfl

/-- The reader of a direction. -/
def directionReader : Reader Direction :=
  ifNext (fun t => t.isKeyword "ASC") (andThen pass fun _ => give .ascending)
    (ifNext (fun t => t.isKeyword "DESC") (andThen pass fun _ => give .descending)
      (give .ascending))

theorem direction_eq (ts : List Token) : .ok (direction ts) = directionReader ts := by
  unfold direction directionReader
  rw [← startsWith_eq]
  split
  · rfl
  rw [← startsWith_eq]
  split <;> rfl

theorem orderClause_eq :
    orderClause =
      ifNext (fun t => t.isKeyword "ORDER")
        (andThen pass fun _ => andThen (token (wordOf "BY") (.expected .by)) fun _ =>
          andThen (field .orderField) fun f => andThen directionReader fun d =>
          give (some ⟨f, d⟩))
        (give none) := by
  funext ts
  unfold orderClause
  rw [← startsWith_eq]
  split
  · show keyword "BY" .by ts.tail >>= _ = _
    rw [keyword_bind]
    refine bind_congr fun x => bind_congr fun y => ?_
    simp only [andThen, ← direction_eq]
    rfl
  · rfl

theorem limitClause_eq :
    limitClause =
      ifNext (fun t => t.isKeyword "LIMIT")
        (andThen pass fun _ => andThen (token (textOf .number) (.expected .limitCount)) fun n =>
          give (some n))
        (give none) := by
  funext ts
  unfold limitClause
  rw [← startsWith_eq]
  split
  · show limitCount ts.tail = token (textOf .number) (.expected .limitCount) ts.tail >>= _
    cases ts.tail with
    | nil => rfl
    | cons t ts =>
      simp only [limitCount, missing, token, textOf]
      split <;> rfl
  · rfl

theorem groupClause_eq :
    groupClause =
      ifNext (fun t => t.isKeyword "GROUP")
        (andThen pass fun _ => andThen (token (wordOf "BY") (.expected .by)) fun _ =>
          andThen (field .groupField) fun f => give (some f))
        (give none) := by
  funext ts
  unfold groupClause
  rw [← startsWith_eq]
  split
  · exact keyword_bind _ _ _ _
  · rfl

/-- The reader of a number of workers. -/
def concurrentReader : Reader (Option Literal) :=
  ifNext (fun t => t.isKeyword "CONCURRENT")
    (andThen pass fun _ =>
      ifNext (fun t => t.kind = .number)
        (andThen (token (textOf .number) (.expected .value)) fun n => give (some (.ofNumeral n)))
        (give (some (.number (.ofNat 1)))))
    (give none)

theorem concurrentClause_eq (ts : List Token) :
    .ok (concurrentClause ts) = concurrentReader ts := by
  unfold concurrentClause concurrentReader
  rw [← startsWith_eq]
  split
  · show _ = ifNext _ _ _ ts.tail
    cases ts.tail with
    | nil => rfl
    | cons t ts =>
      simp only [workerCount, ifNext, decide_eq_true_eq]
      by_cases h : t.kind = .number
      · simp only [if_pos h, andThen, token, textOf]
        rfl
      · simp only [if_neg h]
        rfl
  · rfl

end StoreQL.Query
