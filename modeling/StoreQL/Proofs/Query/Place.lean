/-
# What a reader does not look at

The place of a token is for messages only: no reader decides anything by it. `BlindAt read ts` says
so of what a reader does at `ts`: without their places, the tokens are read alike, and the tokens
that are left are the same without theirs. An error of syntax then differs in nothing but the line
and the column.

Main statements: that the pieces of which readers are made are blind to places, and
`BlindAt.ifNext` and `BlindAt.andThen`, that so is what is put together from them; `statement_blind`;
and `readStatement_unplaced`.
-/
import StoreQL.Proofs.Query.Statement

namespace StoreQL

/-! ## 1. Without places -/

/-- The token, as if it stood at the beginning of the text. -/
def Token.unplaced (t : Token) : Token := { t with position := .start }

namespace Query

open Reader

variable {α β : Type}

/-- The failure without the places of the tokens that are left. -/
def Failure.unplaced (f : Failure) : Failure := ⟨f.complaint, f.rest.map Token.unplaced⟩

/-- The answer of a reader without the places of the tokens that are left. -/
def unplacedAnswer : Except Failure (α × List Token) → Except Failure (α × List Token)
  | .ok (a, rest) => .ok (a, rest.map Token.unplaced)
  | .error f => .error f.unplaced

/-- The error without the line and the column. -/
def SyntaxError.unplaced : SyntaxError → SyntaxError
  | .emptyQuery => .emptyQuery
  | .noStatement found _ => .noStatement found .start
  | .expected what found _ => .expected what found .start
  | .severalFields _ => .severalFields .start
  | .tree e => .tree e

/-- What the reader does at `ts` does not depend on where the tokens stand. -/
def BlindAt (read : Reader α) (ts : List Token) : Prop :=
  read (ts.map Token.unplaced) = unplacedAnswer (read ts)

/-! ## 2. The pieces are blind -/

section Pieces

variable {p : Token → Bool} {complaint : Complaint} {ts : List Token}

/-- What comes next has the property with its place or without. -/
theorem next_unplaced (hp : ∀ t, p t.unplaced = p t) :
    Next (fun t => p t = true) (ts.map Token.unplaced) ↔ Next (fun t => p t = true) ts := by
  cases ts with
  | nil => rfl
  | cons t ts => simp [hp t]

theorem blindAt_token {take : Token → Option α} (htake : ∀ t, take t.unplaced = take t) :
    BlindAt (token take complaint) ts := by
  cases ts with
  | nil => rfl
  | cons t ts =>
    simp only [BlindAt, List.map_cons, token, htake t]
    cases take t <;> rfl

theorem blindAt_pass : BlindAt Reader.pass ts := by
  simp [BlindAt, Reader.pass, unplacedAnswer]

theorem blindAt_passWhile (hp : ∀ t, p t.unplaced = p t) : BlindAt (passWhile p) ts := by
  have hcomp : p ∘ Token.unplaced = p := funext hp
  simp [BlindAt, passWhile, unplacedAnswer, List.dropWhile_map, hcomp]

theorem blindAt_give (a : α) : BlindAt (give a) ts := rfl

theorem blindAt_refuse : BlindAt (refuse complaint : Reader α) ts := rfl

theorem BlindAt.ifNext {yes no : Reader α} (hp : ∀ t, p t.unplaced = p t) (hyes : BlindAt yes ts)
    (hno : BlindAt no ts) : BlindAt (Reader.ifNext p yes no) ts := by
  by_cases h : Next (fun t => p t = true) ts
  · rw [BlindAt, ifNext_of_next h, ifNext_of_next ((next_unplaced hp).mpr h)]
    exact hyes
  · rw [BlindAt, ifNext_of_not_next h, ifNext_of_not_next (mt (next_unplaced hp).mp h)]
    exact hno

/-- **One blind reader after another is blind.** The second has to be so only where the first
ends. -/
theorem BlindAt.andThen {first : Reader α} {second : α → Reader β} (hfirst : BlindAt first ts)
    (hsecond : ∀ a rest, first ts = .ok (a, rest) → BlindAt (second a) rest) :
    BlindAt (Reader.andThen first second) ts := by
  rw [BlindAt] at hfirst
  simp only [BlindAt, Reader.andThen, hfirst]
  cases h : first ts with
  | error f => rfl
  | ok x => exact hsecond x.1 x.2 h

/-- Some token, whatever it is, and then a blind reader. -/
theorem BlindAt.pass_andThen {body : Reader β} (hbody : ∀ ts, BlindAt body ts) :
    BlindAt (Reader.andThen Reader.pass fun _ => body) ts :=
  blindAt_pass.andThen fun _ _ _ => hbody _

end Pieces

/-! ## 3. The readers are blind -/

section Readers

variable {what : Expectation} {complaint : Complaint} {ts : List Token}

theorem identifier_blind : BlindAt (identifier what) ts := by
  rw [identifier_eq]
  exact blindAt_token fun _ => rfl

theorem collectionName_blind : BlindAt (collectionName what) ts := by
  rw [collectionName_eq]
  exact blindAt_token fun _ => rfl

theorem word_blind {word : String} : BlindAt (token (wordOf word) complaint) ts :=
  blindAt_token fun _ => rfl

theorem number_blind : BlindAt (token (textOf .number) complaint) ts :=
  blindAt_token fun _ => rfl

theorem literal_blind : BlindAt literal ts := by
  rw [literal_eq]
  exact blindAt_token fun _ => rfl

theorem fieldMember_blind : BlindAt fieldMember ts := by
  rw [fieldMember_eq]
  refine .ifNext (fun _ => rfl) (.pass_andThen fun _ => ?_) (blindAt_give _)
  exact identifier_blind.andThen fun _ _ _ => blindAt_give _

theorem field_blind : BlindAt (field what) ts := by
  rw [field_eq]
  refine identifier_blind.andThen fun _ _ _ => ?_
  exact fieldMember_blind.andThen fun _ _ _ => blindAt_give _

theorem projection_blind : BlindAt projection ts := by
  rw [projection_eq, projected_eq]
  refine .andThen (.ifNext (fun _ => rfl) (.pass_andThen fun _ => blindAt_give _) ?_) fun _ _ _ => ?_
  · exact field_blind.andThen fun _ _ _ => blindAt_give _
  · exact .ifNext (fun _ => rfl) blindAt_refuse (blindAt_give _)

theorem assignment_blind : BlindAt assignment ts := by
  rw [assignment_eq]
  refine field_blind.andThen fun _ _ _ => ?_
  refine (blindAt_token fun _ => rfl).andThen fun _ _ _ => ?_
  exact literal_blind.andThen fun _ _ _ => blindAt_give _

/-- Each assignment leaves fewer tokens, at which the rest of the list is blind. -/
theorem assignments_blind : ∀ ts : List Token, BlindAt assignments ts
  | ts => by
    rw [assignments_eq]
    refine assignment_blind.andThen fun a rest h => ?_
    refine .ifNext (fun _ => rfl) ?_ (blindAt_give _)
    refine blindAt_pass.andThen fun _ rest' h' => ?_
    have hlt : rest'.length < ts.length := by
      cases h'
      exact Nat.lt_of_le_of_lt (by simp) (assignment_length_lt h)
    exact (assignments_blind rest').andThen fun _ _ _ => blindAt_give _
termination_by ts => ts.length

theorem filter_blind : BlindAt filterReader ts := by
  refine .ifNext (fun _ => rfl) (.pass_andThen fun _ => ?_) (blindAt_give _)
  exact (blindAt_passWhile fun _ => rfl).andThen fun _ _ _ => blindAt_give _

theorem direction_blind : BlindAt directionReader ts := by
  refine .ifNext (fun _ => rfl) (.pass_andThen fun _ => blindAt_give _) ?_
  exact .ifNext (fun _ => rfl) (.pass_andThen fun _ => blindAt_give _) (blindAt_give _)

theorem orderClause_blind : BlindAt orderClause ts := by
  rw [orderClause_eq]
  refine .ifNext (fun _ => rfl) (.pass_andThen fun _ => ?_) (blindAt_give _)
  refine word_blind.andThen fun _ _ _ => field_blind.andThen fun _ _ _ => ?_
  exact direction_blind.andThen fun _ _ _ => blindAt_give _

theorem limitClause_blind : BlindAt limitClause ts := by
  rw [limitClause_eq]
  refine .ifNext (fun _ => rfl) (.pass_andThen fun _ => ?_) (blindAt_give _)
  exact number_blind.andThen fun _ _ _ => blindAt_give _

theorem groupClause_blind : BlindAt groupClause ts := by
  rw [groupClause_eq]
  refine .ifNext (fun _ => rfl) (.pass_andThen fun _ => ?_) (blindAt_give _)
  exact word_blind.andThen fun _ _ _ => field_blind.andThen fun _ _ _ => blindAt_give _

theorem concurrent_blind : BlindAt concurrentReader ts := by
  refine .ifNext (fun _ => rfl) (.pass_andThen fun _ => ?_) (blindAt_give _)
  exact .ifNext (fun _ => rfl) (number_blind.andThen fun _ _ _ => blindAt_give _) (blindAt_give _)

theorem selectStatement_blind : BlindAt selectStatement ts := by
  rw [selectStatement_eq]
  refine projection_blind.andThen fun _ _ _ => word_blind.andThen fun _ _ _ => ?_
  refine collectionName_blind.andThen fun _ _ _ => filter_blind.andThen fun _ _ _ => ?_
  refine orderClause_blind.andThen fun _ _ _ => limitClause_blind.andThen fun _ _ _ => ?_
  exact blindAt_give _

theorem findStatement_blind : BlindAt findStatement ts := by
  rw [findStatement_eq]
  refine collectionName_blind.andThen fun _ _ _ => filter_blind.andThen fun _ _ _ => ?_
  exact orderClause_blind.andThen fun _ _ _ => blindAt_give _

theorem updateStatement_blind : BlindAt updateStatement ts := by
  rw [updateStatement_eq]
  refine identifier_blind.andThen fun _ _ _ => word_blind.andThen fun _ _ _ => ?_
  refine (assignments_blind _).andThen fun _ _ _ => filter_blind.andThen fun _ _ _ => ?_
  exact concurrent_blind.andThen fun _ _ _ => blindAt_give _

theorem analyzeStatement_blind : BlindAt analyzeStatement ts := by
  rw [analyzeStatement_eq]
  refine identifier_blind.andThen fun _ _ _ => filter_blind.andThen fun _ _ _ => ?_
  exact groupClause_blind.andThen fun _ _ _ => blindAt_give _

/-- **Statements are read without looking at places.** -/
theorem statement_blind (ts : List Token) : BlindAt statement ts := by
  rw [statement_eq]
  refine .ifNext (fun _ => rfl) (.pass_andThen fun _ => selectStatement_blind) ?_
  refine .ifNext (fun _ => rfl) (.pass_andThen fun _ => findStatement_blind) ?_
  refine .ifNext (fun _ => rfl) (.pass_andThen fun _ => updateStatement_blind) ?_
  exact .ifNext (fun _ => rfl) (.pass_andThen fun _ => analyzeStatement_blind) blindAt_refuse

end Readers

/-! ## 4. Errors of syntax -/

theorem isEmptyQuery_unplaced (ts : List Token) :
    isEmptyQuery (ts.map Token.unplaced) = isEmptyQuery ts := by
  cases ts <;> rfl

/-- The error names the same token, with or without its place. -/
theorem Failure.toError_unplaced (ts : List Token) (f : Failure) :
    (f.unplaced.toError (ts.map Token.unplaced)).unplaced = (f.toError ts).unplaced := by
  obtain ⟨complaint, rest⟩ := f
  cases rest <;> cases complaint <;> rfl

/-- **The places of the tokens come into nothing but the place of an error.** -/
theorem readStatement_unplaced (ts : List Token) :
    (readStatement (ts.map Token.unplaced)).mapError SyntaxError.unplaced =
      (readStatement ts).mapError SyntaxError.unplaced := by
  have hblind : statement (ts.map Token.unplaced) = unplacedAnswer (statement ts) :=
    statement_blind ts
  simp only [readStatement, isEmptyQuery_unplaced, hblind]
  split
  · rfl
  cases statement ts with
  | ok x => rfl
  | error f => exact congrArg Except.error (f.toError_unplaced ts)

end Query

end StoreQL
