/-
# Reading the parts of statements

The next token decides what comes, so the tokens are read once and in order. A reader takes what it
names off the front of the tokens and gives the rest, or it fails with the tokens that were left at
the failure.

A condition is passed over: whatever stands between `WHERE` and the next word that begins a clause,
or the end.

Main statements: `assignment_length_lt`, that an assignment takes something, and with it that the
list of assignments ends.
-/
import StoreQL.Query.Clause
import StoreQL.Query.SyntaxError
import StoreQL.Result

namespace StoreQL.Query

/-! ## 1. Single tokens -/

/-- Fail for want of `what`. -/
def missing (what : Expectation) (ts : List Token) : Except Failure α :=
  .error ⟨.expected what, ts⟩

/-- Whether the keyword `word` comes next. -/
def startsWith (word : String) : List Token → Bool
  | t :: _ => t.isKeyword word
  | [] => false

/-- Take the keyword `word`. -/
def keyword (word : String) (what : Expectation) (ts : List Token) : Except Failure (List Token) :=
  if startsWith word ts then .ok ts.tail else missing what ts

/-- Take an identifier. -/
def identifier (what : Expectation) : List Token → Except Failure (String × List Token)
  | t :: ts => if t.kind = .identifier then .ok (t.text, ts) else missing what (t :: ts)
  | [] => missing what []

/-- Take an identifier or any keyword. -/
def collectionName (what : Expectation) : List Token → Except Failure (String × List Token)
  | t :: ts =>
    if t.kind = .identifier ∨ t.kind = .keyword then .ok (t.text, ts) else missing what (t :: ts)
  | [] => missing what []

/-! ## 2. Fields and assignments -/

/-- The rest of a field after its first name: nothing, or a point and a name. -/
def fieldMember : List Token → Except Failure (Option String × List Token)
  | t :: ts =>
    if t.kind = .dot then (identifier .member ts).map (fun (m, rest) => (some m, rest))
    else .ok (none, t :: ts)
  | [] => .ok (none, [])

/-- A field. -/
def field (what : Expectation) (ts : List Token) : Except Failure (FieldPath × List Token) := do
  let (base, ts) ← identifier what ts
  let (member, ts) ← fieldMember ts
  return (⟨base, member⟩, ts)

/-- `*` or a field. -/
def projected : List Token → Except Failure (Projection × List Token)
  | t :: ts =>
    if t.kind = .asterisk then .ok (.whole, ts)
    else if t.kind = .identifier then
      (field .fieldList (t :: ts)).map (fun (f, rest) => (.field f, rest))
    else missing .fieldList (t :: ts)
  | [] => missing .fieldList []

/-- Whether a comma comes next. -/
def startsWithComma : List Token → Bool
  | t :: _ => t.kind == .comma
  | [] => false

/-- What a selection takes: `*` or a field, and no second one. -/
def projection (ts : List Token) : Except Failure (Projection × List Token) := do
  let (p, ts) ← projected ts
  if startsWithComma ts then .error ⟨.severalFields, ts⟩ else return (p, ts)

/-- The value that a token stands for. -/
def literalOf? (t : Token) : Option Literal :=
  if t.kind = .string then some (.string t.text)
  else if t.kind = .number then some (.ofNumeral t.text)
  else if t.isKeyword "TRUE" then some (.boolean true)
  else if t.isKeyword "FALSE" then some (.boolean false)
  else if t.isKeyword "NULL" then some .null
  else none

/-- A value. -/
def literal : List Token → Except Failure (Literal × List Token)
  | t :: ts =>
    match literalOf? t with
    | some v => .ok (v, ts)
    | none => missing .value (t :: ts)
  | [] => missing .value []

/-- The sign of an assignment. -/
def equalsSign : List Token → Except Failure (List Token)
  | t :: ts => if t.kind = .operator ∧ t.text = "=" then .ok ts else missing .equals (t :: ts)
  | [] => missing .equals []

/-- A field, the sign and a value. -/
def assignment (ts : List Token) : Except Failure (Assignment × List Token) := do
  let (f, ts) ← field .assignment ts
  let ts ← equalsSign ts
  let (v, ts) ← literal ts
  return (⟨f, v⟩, ts)

theorem identifier_length_lt {what : Expectation} {ts rest : List Token} {s : String}
    (h : identifier what ts = .ok (s, rest)) : rest.length < ts.length := by
  unfold identifier missing at h
  split at h
  · split at h
    · cases h
      exact Nat.lt_succ_self _
    · cases h
  · cases h

theorem fieldMember_length_le {ts rest : List Token} {m : Option String}
    (h : fieldMember ts = .ok (m, rest)) : rest.length ≤ ts.length := by
  unfold fieldMember at h
  split at h
  · split at h
    · obtain ⟨⟨name, rest'⟩, hi, heq⟩ := map_eq_ok_iff.mp h
      cases heq
      exact Nat.le_succ_of_le (Nat.le_of_lt (identifier_length_lt hi))
    · cases h
      exact Nat.le_refl _
  · cases h
    exact Nat.le_refl _

theorem field_length_lt {what : Expectation} {ts rest : List Token} {f : FieldPath}
    (h : field what ts = .ok (f, rest)) : rest.length < ts.length := by
  obtain ⟨⟨base, ts'⟩, hi, h⟩ := bind_eq_ok_iff.mp h
  obtain ⟨⟨member, ts''⟩, hm, h⟩ := bind_eq_ok_iff.mp h
  cases h
  exact Nat.lt_of_le_of_lt (fieldMember_length_le hm) (identifier_length_lt hi)

theorem equalsSign_length_lt {ts rest : List Token} (h : equalsSign ts = .ok rest) :
    rest.length < ts.length := by
  unfold equalsSign missing at h
  split at h
  · split at h
    · cases h
      exact Nat.lt_succ_self _
    · cases h
  · cases h

theorem literal_length_lt {ts rest : List Token} {v : Literal} (h : literal ts = .ok (v, rest)) :
    rest.length < ts.length := by
  unfold literal missing at h
  split at h
  · split at h
    · cases h
      exact Nat.lt_succ_self _
    · cases h
  · cases h

/-- An assignment takes something. -/
theorem assignment_length_lt {ts rest : List Token} {a : Assignment}
    (h : assignment ts = .ok (a, rest)) : rest.length < ts.length := by
  obtain ⟨⟨f, ts₁⟩, hf, h⟩ := bind_eq_ok_iff.mp h
  obtain ⟨ts₂, he, h⟩ := bind_eq_ok_iff.mp h
  obtain ⟨⟨v, ts₃⟩, hv, h⟩ := bind_eq_ok_iff.mp h
  cases h
  exact Nat.lt_trans (literal_length_lt hv)
    (Nat.lt_trans (equalsSign_length_lt he) (field_length_lt hf))

/-- One assignment or more, with commas between them. -/
def assignments (ts : List Token) : Except Failure (List Assignment × List Token) :=
  match _h : assignment ts with
  | .error e => .error e
  | .ok (a, t :: rest) =>
    if t.kind = .comma then (assignments rest).map (fun (as, rest) => (a :: as, rest))
    else .ok ([a], t :: rest)
  | .ok (a, []) => .ok ([a], [])
termination_by ts.length
decreasing_by
  have := assignment_length_lt _h
  simp only [List.length_cons] at this
  omega

/-! ## 3. Clauses -/

/-- The words that end a condition. -/
def clauseWords : List String := ["ORDER", "LIMIT", "GROUP", "CONCURRENT"]

/-- Whether a token belongs to the condition that it follows. -/
def inCondition (t : Token) : Bool := !t.isTerminal && !clauseWords.any t.isKeyword

/-- A condition, if one comes next. -/
def filterClause (ts : List Token) : Bool × List Token :=
  if startsWith "WHERE" ts then (true, ts.tail.dropWhile inCondition) else (false, ts)

/-- The direction of an order, ascending unless a word says otherwise. -/
def direction (ts : List Token) : Direction × List Token :=
  if startsWith "ASC" ts then (.ascending, ts.tail)
  else if startsWith "DESC" ts then (.descending, ts.tail)
  else (.ascending, ts)

/-- An order, if one comes next. -/
def orderClause (ts : List Token) : Except Failure (Option Order × List Token) :=
  if startsWith "ORDER" ts then do
    let ts ← keyword "BY" .by ts.tail
    let (f, ts) ← field .orderField ts
    let (d, ts) := direction ts
    return (some ⟨f, d⟩, ts)
  else .ok (none, ts)

/-- The numeral of a limit. -/
def limitCount : List Token → Except Failure (Option String × List Token)
  | t :: ts => if t.kind = .number then .ok (some t.text, ts) else missing .limitCount (t :: ts)
  | [] => missing .limitCount []

/-- A limit, if one comes next. -/
def limitClause (ts : List Token) : Except Failure (Option String × List Token) :=
  if startsWith "LIMIT" ts then limitCount ts.tail else .ok (none, ts)

/-- A grouping, if one comes next. -/
def groupClause (ts : List Token) : Except Failure (Option FieldPath × List Token) :=
  if startsWith "GROUP" ts then do
    let ts ← keyword "BY" .by ts.tail
    let (f, ts) ← field .groupField ts
    return (some f, ts)
  else .ok (none, ts)

/-- The number of workers: the number that comes next, or else one. -/
def workerCount : List Token → Literal × List Token
  | t :: ts =>
    if t.kind = .number then (.ofNumeral t.text, ts) else (.number (.ofNat 1), t :: ts)
  | [] => (.number (.ofNat 1), [])

/-- The number of workers, if the word for it comes next. -/
def concurrentClause (ts : List Token) : Option Literal × List Token :=
  if startsWith "CONCURRENT" ts then
    let (count, rest) := workerCount ts.tail
    (some count, rest)
  else (none, ts)

end StoreQL.Query
