/-
# Where a query first goes wrong

A reader fails at some token. It has then taken nothing but what a longer text could begin with:
there are tokens that may be put in the place of the offending one and let the reader go on to the
end. `Completable` says so of a reader. It speaks of two conditions on what lies ahead: the reader
is called where `before` holds, so that what is put at its very beginning must be such as `before`
allows, and it ends where `after` holds. Readers in a row are then completable if the one ends where
the next begins.

Main statements: `completable_statement`; `statement_local`, that what the reader of statements does
depends only on the tokens up to the one at which it stops; and from them
`parseTokens_error_earliest`, that an error of syntax names the first token with which no query goes
on.
-/
import StoreQL.Proofs.Query.Locality
import StoreQL.Proofs.Query.Phrase

namespace StoreQL.Query

open Reader

variable {α β : Type}

/-! ## 1. Completable readers -/

/-- A condition on the tokens that lie ahead. -/
abbrev Ahead := List Token → Prop

/-- After the tokens `taken`, the tokens `fix` bring the reader to `a`, before whatever `after`
allows. If nothing has been taken, `fix` is besides such as `before` allows. -/
structure Mends (before : Ahead) (read : Reader α) (after : Ahead) (taken fix : List Token)
    (a : α) : Prop where
  reads : ∀ rest, after rest → read (taken ++ (fix ++ rest)) = .ok (a, rest)
  opens : taken = [] → ∀ rest, after rest → before (fix ++ rest)

/-- On tokens that satisfy `on` the reader looks at no more than it must; where it succeeds, it does
so before whatever `after` allows; and where it fails although it has taken something, it can be
mended. -/
structure Continues (on before : Ahead) (read : Reader α) (after : Ahead) : Prop where
  locality : ∀ ts, on ts → LocalAt read ts
  resumes : ∀ taken rest a, on (taken ++ rest) → read (taken ++ rest) = .ok (a, rest) →
    Mends before read after taken [] a
  mends : ∀ taken rest c, on (taken ++ rest) → read (taken ++ rest) = .error ⟨c, rest⟩ →
    taken ≠ [] → ∃ fix a, Mends before read after taken fix a

/-- There is besides something for the reader to take from the beginning. -/
structure Completable (on before : Ahead) (read : Reader α) (after : Ahead) : Prop
    extends Continues on before read after where
  starts : ∃ fix a, Mends before read after [] fix a

/-- Nothing is asked of what lies ahead. -/
abbrev anything : Ahead := fun _ => True

/-- The tokens end. -/
abbrev atEnd : Ahead := fun ts => ts = []

/-- The next token, if there is one, does not have the property. -/
abbrev notNext (p : Token → Bool) : Ahead := fun ts => ¬ Next (fun t => p t = true) ts

variable {on before mid after : Ahead} {p : Token → Bool} {complaint : Complaint}

/-- Wherever the reader fails, it can be mended. -/
theorem Completable.mended {read : Reader α} (h : Completable on before read after)
    {taken rest : List Token} {c : Complaint} (hts : on (taken ++ rest))
    (hread : read (taken ++ rest) = .error ⟨c, rest⟩) :
    ∃ fix a, Mends before read after taken fix a := by
  cases taken with
  | nil => exact h.starts
  | cons t taken => exact h.mends _ rest c hts hread (List.cons_ne_nil _ _)

/-! ## 2. The pieces -/

theorem continues_refuse : Continues on before (refuse complaint : Reader α) after := by
  refine ⟨fun ts _ => localAt_refuse _ ts, fun _ _ _ _ h => ?_, fun taken rest c _ h hne => ?_⟩
  · cases h
  · simp only [refuse, Except.error.injEq, Failure.mk.injEq] at h
    exact absurd (List.append_left_eq_self.mp h.2) hne

/-- Where a token is known to come, it is passed over. -/
theorem continues_pass : Continues (fun ts => on ts ∧ Next (fun t => p t = true) ts) before pass
    after := by
  refine ⟨fun ts _ => localAt_pass ts, fun taken rest b hon h => ?_, fun _ _ _ _ h => ?_⟩
  · cases taken with
    | nil =>
      cases rest with
      | nil => exact absurd hon.2 (next_nil _)
      | cons t rest =>
        have hlen := congrArg (fun r => r.2.length) (Except.ok.inj h)
        simp at hlen
    | cons t taken =>
      simp only [Reader.pass, List.cons_append, List.tail_cons, Except.ok.injEq, Prod.mk.injEq] at h
      obtain rfl : taken = [] := List.append_left_eq_self.mp h.2
      exact ⟨fun _ _ => rfl, fun h => absurd h (List.cons_ne_nil _ _)⟩
  · cases h

theorem completable_token {take : Token → Option α} {a : α} (g : Token) (hg : take g = some a)
    (hopen : ∀ rest, after rest → before (g :: rest)) :
    Completable on before (token take complaint) after := by
  refine ⟨⟨fun ts _ => localAt_token _ _ ts, fun taken rest b _ h => ?_,
    fun taken rest c _ h hne => ?_⟩, [g], a, fun rest _ => ?_, fun _ rest h => hopen rest h⟩
  · obtain ⟨t, heq, ht⟩ := token_eq_ok_iff.mp h
    obtain rfl : taken = [t] := List.append_cancel_right (heq.trans (List.singleton_append).symm)
    exact ⟨fun rest _ => token_eq_ok_iff.mpr ⟨t, rfl, ht⟩, fun h => absurd h (List.cons_ne_nil _ _)⟩
  · have hrest := congrArg Failure.rest (token_eq_error h)
    exact absurd (List.append_left_eq_self.mp hrest.symm) hne
  · exact token_eq_ok_iff.mpr ⟨g, rfl, hg⟩

theorem completable_give {a : α} (hopen : ∀ rest, after rest → before rest) :
    Completable on before (give a) after := by
  have hmend : Mends before (give a) after [] [] a := ⟨fun _ _ => rfl, fun _ rest h => hopen rest h⟩
  refine ⟨⟨fun ts _ => localAt_give a ts, fun taken rest b _ h => ?_, fun _ _ _ _ h => ?_⟩,
    [], a, hmend⟩
  · simp only [give, Except.ok.injEq, Prod.mk.injEq] at h
    obtain ⟨rfl, hrest⟩ := h
    obtain rfl : taken = [] := List.append_left_eq_self.mp hrest
    exact hmend
  · cases h

theorem completable_passWhile (hopen : ∀ rest, after rest → notNext p rest ∧ before rest) :
    Completable on before (passWhile p) after := by
  have hmend : ∀ {taken : List Token}, (∀ t ∈ taken, p t = true) →
      Mends before (passWhile p) after taken [] () := by
    intro taken hrun
    refine ⟨fun rest hrest => ?_, fun _ rest hrest => (hopen rest hrest).2⟩
    simp only [passWhile, List.nil_append, dropWhile_run hrun (hopen rest hrest).1]
  refine ⟨⟨fun ts _ => localAt_passWhile p ts, fun taken rest b _ h => ?_, fun _ _ _ _ h => ?_⟩,
    [], (), hmend (by simp)⟩
  · simp only [passWhile, Except.ok.injEq, Prod.mk.injEq, true_and] at h
    have hparts := List.takeWhile_append_dropWhile (p := p) (l := taken ++ rest)
    rw [h] at hparts
    refine hmend ?_
    rw [← List.append_cancel_right hparts]
    exact List.all_eq_true.mp List.all_takeWhile
  · cases h

/-! ## 3. One reader after another -/

section AndThen

variable {first : Reader α} {second : α → Reader β} {taken taken' fix fix' rest : List Token}
  {a : α} {b : β}

/-- The first reader is mended and the second begins. -/
theorem Mends.andThen_starts (h : Mends before first mid taken fix a)
    (h' : Mends mid (second a) after [] fix' b) :
    Mends before (Reader.andThen first second) after taken (fix ++ fix') b := by
  refine ⟨fun rest hrest => ?_, fun htaken rest hrest => ?_⟩
  · have hfirst := h.reads (fix' ++ rest) (h'.opens rfl rest hrest)
    rw [List.append_assoc]
    exact andThen_eq_ok_iff.mpr ⟨a, _, hfirst, h'.reads rest hrest⟩
  · rw [List.append_assoc]
    exact h.opens htaken _ (h'.opens rfl rest hrest)

/-- The first reader has come to its end and the second is mended. If the second has taken something
the first is not concerned; if not, then the first ends before what is put there as well. -/
theorem Mends.andThen_mends (h : Mends before first mid taken [] a)
    (hd : Decides first taken (.ok a) (taken' ++ rest).head?)
    (h' : Mends mid (second a) after taken' fix b) :
    Mends before (Reader.andThen first second) after (taken ++ taken') fix b := by
  refine ⟨fun rest' hrest' => ?_, fun htaken rest' hrest' => ?_⟩
  · have hfirst : first (taken ++ (taken' ++ (fix ++ rest'))) =
        .ok (a, taken' ++ (fix ++ rest')) := by
      cases taken' with
      | nil => exact h.reads _ (h'.opens rfl rest' hrest')
      | cons t taken' => exact hd _ rfl
    rw [List.append_assoc]
    exact andThen_eq_ok_iff.mpr ⟨a, _, hfirst, h'.reads rest' hrest'⟩
  · obtain ⟨rfl, rfl⟩ := List.append_eq_nil_iff.mp htaken
    exact h.opens rfl _ (h'.opens rfl rest' hrest')

/-- **Readers in a row**: the second may begin wherever the first ends. -/
theorem Continues.andThen (mid on' : Ahead) (hfirst : Continues on before first mid)
    (hsecond : ∀ a, Completable on' mid (second a) after)
    (hon : ∀ ts a rest, on ts → first ts = .ok (a, rest) → on' rest) :
    Continues on before (Reader.andThen first second) after := by
  -- What the first has taken, and that it takes as much before anything that begins alike.
  have hsplit : ∀ {taken rest a m} {out : Except Complaint β}, on (taken ++ rest) →
      first (taken ++ rest) = .ok (a, m) → second a m = answer out rest →
      ∃ t t', taken = t ++ t' ∧ m = t' ++ rest ∧ on (t ++ m) ∧ first (t ++ m) = .ok (a, m) ∧
        Decides first t (.ok a) m.head? := by
    intro taken rest a m out hts hread hread'
    have hfirst' : first (taken ++ rest) = answer (.ok a) m := hread
    obtain ⟨t, heq, hd⟩ := (hfirst.locality _ hts).decides hfirst'
    obtain ⟨t', rfl, _⟩ := ((hsecond a).locality m (hon _ a m hts hread)).decides hread'
    rw [← List.append_assoc] at heq
    obtain rfl := List.append_cancel_right heq
    rw [List.append_assoc] at hts hread
    exact ⟨t, t', rfl, rfl, hts, hread, hd⟩
  refine ⟨fun ts hts => ?_, fun taken rest b hts h => ?_, fun taken rest c hts h hne => ?_⟩
  · exact (hfirst.locality ts hts).andThen fun a rest h =>
      (hsecond a).locality rest (hon ts a rest hts h)
  · obtain ⟨a, m, hread, hread'⟩ := andThen_eq_ok_iff.mp h
    have hsecond' : second a m = answer (.ok b) rest := hread'
    obtain ⟨t, t', rfl, rfl, hts', hfirst', hd⟩ := hsplit hts hread hsecond'
    have hon' := hon _ a _ hts' hfirst'
    exact (hfirst.resumes t _ a hts' hfirst').andThen_mends hd
      ((hsecond a).resumes t' rest b hon' hread')
  · cases hread : first (taken ++ rest) with
    | error f =>
      simp only [Reader.andThen, hread] at h
      cases h
      obtain ⟨fix, a, hmend⟩ := hfirst.mends taken rest c hts hread hne
      obtain ⟨fix', b, hstart⟩ := (hsecond a).starts
      exact ⟨fix ++ fix', b, hmend.andThen_starts hstart⟩
    | ok x =>
      obtain ⟨a, m⟩ := x
      simp only [Reader.andThen, hread] at h
      have hsecond' : second a m = answer (.error c) rest := h
      obtain ⟨t, t', rfl, rfl, hts', hfirst', hd⟩ := hsplit hts hread hsecond'
      have hon' := hon _ a _ hts' hfirst'
      obtain ⟨fix, b, hmend⟩ := (hsecond a).mended hon' h
      exact ⟨fix, b, (hfirst.resumes t _ a hts' hfirst').andThen_mends hd hmend⟩

/-- A token that is known to come, and then a reader. -/
theorem Continues.pass_andThen {body : Reader β} (h : Completable anything anything body after) :
    Continues (fun ts => on ts ∧ Next (fun t => p t = true) ts) before
      (Reader.andThen pass fun _ => body) after :=
  .andThen anything anything continues_pass (fun _ => h) fun _ _ _ _ _ => trivial

theorem Completable.andThen (mid : Ahead) (hfirst : Completable on before first mid)
    (hsecond : ∀ a, Completable anything mid (second a) after) :
    Completable on before (Reader.andThen first second) after := by
  obtain ⟨fix, a, hstart⟩ := hfirst.starts
  obtain ⟨fix', b, hstart'⟩ := (hsecond a).starts
  exact ⟨.andThen mid anything hfirst.toContinues hsecond fun _ _ _ _ _ => trivial, fix ++ fix', b,
    hstart.andThen_starts hstart'⟩

end AndThen

/-! ## 4. A choice between readers -/

section IfNext

variable {yes no : Reader α} {taken fix rest : List Token} {a : α}

/-- The token by which a reader was chosen stays the same, whether it has been taken or is what
`opens` promises. -/
theorem Mends.ifNext_yes (h : Mends (fun ts => Next (fun t => p t = true) ts ∧ before ts) yes after
      taken fix a)
    (hp : Next (fun t => p t = true) (taken ++ rest)) :
    Mends before (ifNext p yes no) after taken fix a := by
  refine ⟨fun rest' hrest' => ?_, fun htaken rest' hrest' => (h.opens htaken rest' hrest').2⟩
  rw [ifNext_of_next, h.reads rest' hrest']
  cases taken with
  | nil => exact (h.opens rfl rest' hrest').1
  | cons t taken => exact hp

theorem Mends.ifNext_no (h : Mends (fun ts => notNext p ts ∧ before ts) no after taken fix a)
    (hp : notNext p (taken ++ rest)) : Mends before (ifNext p yes no) after taken fix a := by
  refine ⟨fun rest' hrest' => ?_, fun htaken rest' hrest' => (h.opens htaken rest' hrest').2⟩
  rw [ifNext_of_not_next, h.reads rest' hrest']
  cases taken with
  | nil => exact (h.opens rfl rest' hrest').1
  | cons t taken => exact hp

/-- **A choice** between two readers. -/
theorem Continues.ifNext
    (hyes : Continues (fun ts => on ts ∧ Next (fun t => p t = true) ts)
      (fun ts => Next (fun t => p t = true) ts ∧ before ts) yes after)
    (hno : Continues on (fun ts => notNext p ts ∧ before ts) no after) :
    Continues on before (Reader.ifNext p yes no) after := by
  refine ⟨fun ts hts => ?_, fun taken rest b hts h => ?_, fun taken rest c hts h hne => ?_⟩
  · exact .ifNext (fun hp => hyes.locality ts ⟨hts, hp⟩) (fun _ => hno.locality ts hts)
  · by_cases hp : Next (fun t => p t = true) (taken ++ rest)
    · rw [ifNext_of_next hp] at h
      exact (hyes.resumes taken rest b ⟨hts, hp⟩ h).ifNext_yes hp
    · rw [ifNext_of_not_next hp] at h
      exact (hno.resumes taken rest b hts h).ifNext_no hp
  · by_cases hp : Next (fun t => p t = true) (taken ++ rest)
    · rw [ifNext_of_next hp] at h
      obtain ⟨fix, b, hmend⟩ := hyes.mends taken rest c ⟨hts, hp⟩ h hne
      exact ⟨fix, b, hmend.ifNext_yes hp⟩
    · rw [ifNext_of_not_next hp] at h
      obtain ⟨fix, b, hmend⟩ := hno.mends taken rest c hts h hne
      exact ⟨fix, b, hmend.ifNext_no hp⟩

theorem Completable.ifNext
    (hyes : Continues (fun ts => on ts ∧ Next (fun t => p t = true) ts)
      (fun ts => Next (fun t => p t = true) ts ∧ before ts) yes after)
    (hno : Completable on (fun ts => notNext p ts ∧ before ts) no after) :
    Completable on before (Reader.ifNext p yes no) after := by
  obtain ⟨fix, a, hstart⟩ := hno.starts
  have hnone : notNext p ([] ++ []) := next_nil _
  exact ⟨.ifNext hyes hno.toContinues, fix, a, hstart.ifNext_no hnone⟩

end IfNext

/-! ## 5. The readers -/

/-- Some identifier. -/
def someName : Token := ⟨.identifier, "x", .start⟩

/-- Some number. -/
def someNumber : Token := ⟨.number, "1", .start⟩

/-- A keyword. -/
def someWord (word : String) : Token := ⟨.keyword, word, .start⟩

theorem completable_identifier {what : Expectation}
    (hopen : ∀ rest, after rest → before (someName :: rest)) :
    Completable on before (identifier what) after := by
  rw [identifier_eq]
  exact completable_token someName rfl hopen

theorem completable_word {word : String}
    (hopen : ∀ rest, after rest → before (someWord word :: rest)) :
    Completable on before (token (wordOf word) complaint) after := by
  have hword : wordOf word (someWord word) = some () := by
    rw [wordOf_eq_some_iff]
    simp [someWord, Token.isKeyword]
  exact completable_token (someWord word) hword hopen

theorem completable_number (hopen : ∀ rest, after rest → before (someNumber :: rest)) :
    Completable on before (token (textOf .number) complaint) after :=
  completable_token someNumber rfl hopen

theorem completable_collectionName {what : Expectation}
    (hopen : ∀ rest, after rest → before (someName :: rest)) :
    Completable on before (collectionName what) after := by
  rw [collectionName_eq]
  exact completable_token someName rfl hopen

theorem completable_literal (hopen : ∀ rest, after rest → before (someNumber :: rest)) :
    Completable on before literal after := by
  rw [literal_eq]
  exact completable_token someNumber rfl hopen

theorem notNext_cons {t : Token} {rest : List Token} : notNext p (t :: rest) ↔ p t = false := by
  rw [notNext, next_cons, Bool.not_eq_true]

/-- After a field there is no point. -/
abbrev noDot : Ahead := notNext fun t => t.kind = .dot

theorem completable_fieldMember : Completable on anything fieldMember noDot := by
  rw [fieldMember_eq]
  refine .ifNext (.pass_andThen ?_) (completable_give fun _ h => ⟨h, trivial⟩)
  exact .andThen anything (completable_identifier fun _ _ => trivial) fun _ =>
    completable_give fun _ _ => trivial

theorem completable_field {what : Expectation} (hopen : ∀ rest, before (someName :: rest)) :
    Completable on before (field what) noDot := by
  rw [field_eq]
  refine .andThen anything (completable_identifier fun rest _ => hopen rest) fun _ => ?_
  exact .andThen noDot completable_fieldMember fun _ => completable_give fun _ h => h

theorem completable_projected : Completable on anything projected noDot := by
  rw [projected_eq]
  refine .ifNext (.pass_andThen (completable_give fun _ _ => trivial)) ?_
  exact .andThen noDot (completable_field fun _ => ⟨notNext_cons.mpr rfl, trivial⟩) fun _ =>
    completable_give fun _ h => h

/-- After what a selection takes there is the word for its source. -/
abbrev fromNext : Ahead := Next fun t => t.isKeyword "FROM" = true

theorem completable_projection : Completable on anything projection fromNext := by
  have hkind {rest : List Token} (h : fromNext rest) (kind : Token.Kind) (hk : kind ≠ .keyword) :
      notNext (fun t => t.kind = kind) rest := by
    cases rest with
    | nil => exact next_nil _
    | cons t rest =>
      have ht : t.kind = .keyword := kind_of_isKeyword h
      rw [notNext_cons, ht, decide_eq_false_iff_not]
      exact Ne.symm hk
  rw [projection_eq]
  refine .andThen noDot completable_projected fun _ => .ifNext continues_refuse ?_
  exact completable_give fun _ h => ⟨hkind h .comma (by decide), hkind h .dot (by decide)⟩

theorem completable_assignment : Completable on anything assignment anything := by
  rw [assignment_eq]
  refine .andThen noDot (completable_field fun _ => trivial) fun _ => ?_
  refine .andThen anything (completable_token ⟨.operator, "=", .start⟩ rfl fun _ _ =>
    notNext_cons.mpr rfl) fun _ => ?_
  exact .andThen anything (completable_literal fun _ _ => trivial) fun _ =>
    completable_give fun _ _ => trivial

/-- After the assignments there is no comma. -/
abbrev noComma : Ahead := notNext fun t => t.kind = .comma

theorem assignments_start : ∃ fix as, Mends anything assignments noComma [] fix as := by
  refine ⟨[someName, ⟨.operator, "=", .start⟩, someNumber], [⟨⟨"x", none⟩, .ofNumeral "1"⟩],
    fun rest hrest => ?_, fun _ _ _ => trivial⟩
  rw [assignments_eq]
  exact andThen_eq_ok_iff.mpr ⟨_, rest, rfl, ifNext_of_not_next hrest⟩

/-- The list of assignments is followed down to where it ends: after the first and a comma fewer
tokens are left. -/
theorem continues_assignments : ∀ n,
    Continues (fun ts => ts.length < n) anything assignments noComma
  | 0 => ⟨fun _ h => absurd h (Nat.not_lt_zero _), fun _ _ _ h => absurd h (Nat.not_lt_zero _),
      fun _ _ _ h => absurd h (Nat.not_lt_zero _)⟩
  | n + 1 => by
    have ih : Completable (fun ts => ts.length < n) anything assignments noComma :=
      ⟨continues_assignments n, assignments_start⟩
    have hmore (a : Assignment) : Completable (fun ts => ts.length < n) anything
        (Reader.andThen assignments fun as => give (a :: as)) noComma :=
      ih.andThen noComma fun _ => completable_give fun _ h => h
    rw [assignments_eq]
    refine .andThen anything (fun ts => ts.length < n) completable_assignment.toContinues
      (fun a => .ifNext ?_ (completable_give fun _ h => ⟨h, trivial⟩)) fun ts a rest hts h => ?_
    · refine .andThen anything _ continues_pass (fun _ => hmore a) fun ts _ rest hts h => ?_
      cases h
      rw [List.length_tail]
      exact Nat.lt_of_le_of_lt (Nat.sub_le _ _) hts.1
    · exact Nat.lt_of_lt_of_le (assignment_length_lt h) (Nat.le_of_lt_succ hts)

theorem completable_assignments : Completable anything anything assignments noComma := by
  refine ⟨⟨fun ts _ => ?_, fun taken rest as _ h => ?_, fun taken rest c _ h hne => ?_⟩,
    assignments_start⟩
  · exact (continues_assignments _).locality ts (Nat.lt_succ_self _)
  · exact (continues_assignments _).resumes taken rest as (Nat.lt_succ_self _) h
  · exact (continues_assignments _).mends taken rest c (Nat.lt_succ_self _) h hne

/-! ## 6. Clauses and statements -/

/-- What ends with the tokens leaves it to what comes before how it begins. -/
theorem atEnd_opens (hopen : before []) (q : Token → Bool) :
    ∀ rest, atEnd rest → notNext q rest ∧ before rest := by
  rintro _ rfl
  exact ⟨next_nil _, hopen⟩

theorem completable_filterReader (hopen : before []) :
    Completable on before filterReader atEnd := by
  refine .ifNext (.pass_andThen ?_) (completable_give (atEnd_opens hopen _))
  exact .andThen atEnd (completable_passWhile (atEnd_opens trivial _)) fun _ =>
    completable_give fun _ h => h

theorem completable_directionReader : Completable on noDot directionReader atEnd := by
  refine .ifNext (.pass_andThen (completable_give fun _ _ => trivial)) ?_
  refine .ifNext (.pass_andThen (completable_give fun _ _ => trivial)) ?_
  exact completable_give (atEnd_opens ⟨next_nil _, next_nil _⟩ _)

theorem completable_orderClause (hopen : before []) :
    Completable on before orderClause atEnd := by
  rw [orderClause_eq]
  refine .ifNext (.pass_andThen ?_) (completable_give (atEnd_opens hopen _))
  refine .andThen anything (completable_word fun _ _ => trivial) fun _ => ?_
  refine .andThen noDot (completable_field fun _ => trivial) fun _ => ?_
  exact .andThen atEnd completable_directionReader fun _ => completable_give fun _ h => h

theorem completable_limitClause (hopen : before []) :
    Completable on before limitClause atEnd := by
  rw [limitClause_eq]
  refine .ifNext (.pass_andThen ?_) (completable_give (atEnd_opens hopen _))
  exact .andThen atEnd (completable_number fun _ _ => trivial) fun _ =>
    completable_give fun _ h => h

theorem completable_groupClause (hopen : before []) :
    Completable on before groupClause atEnd := by
  rw [groupClause_eq]
  refine .ifNext (.pass_andThen ?_) (completable_give (atEnd_opens hopen _))
  refine .andThen anything (completable_word fun _ _ => trivial) fun _ => ?_
  exact .andThen noDot (completable_field fun _ => trivial) fun _ =>
    completable_give (by rintro _ rfl; exact next_nil _)

theorem completable_concurrentReader (hopen : before []) :
    Completable on before concurrentReader atEnd := by
  have hcount : Completable
      (fun ts => anything ts ∧ Next (fun t => decide (t.kind = .number) = true) ts)
      (fun ts => Next (fun t => decide (t.kind = .number) = true) ts ∧ anything ts)
      (Reader.andThen (token (textOf .number) (.expected .value)) fun n =>
        give (some (Literal.ofNumeral n))) atEnd :=
    .andThen atEnd (completable_number fun _ _ => ⟨rfl, trivial⟩) fun _ =>
      completable_give fun _ h => h
  refine .ifNext (.pass_andThen ?_) (completable_give (atEnd_opens hopen _))
  exact .ifNext hcount.toContinues (completable_give (atEnd_opens trivial _))

theorem completable_selectStatement : Completable anything anything selectStatement atEnd := by
  rw [selectStatement_eq]
  refine .andThen fromNext completable_projection fun _ => ?_
  refine .andThen anything (completable_word fun _ _ => rfl) fun _ => ?_
  refine .andThen atEnd (completable_collectionName fun _ _ => trivial) fun _ => ?_
  refine .andThen atEnd (completable_filterReader rfl) fun _ => ?_
  refine .andThen atEnd (completable_orderClause rfl) fun _ => ?_
  exact .andThen atEnd (completable_limitClause rfl) fun _ => completable_give fun _ h => h

theorem completable_findStatement : Completable anything anything findStatement atEnd := by
  rw [findStatement_eq]
  refine .andThen atEnd (completable_collectionName fun _ _ => trivial) fun _ => ?_
  refine .andThen atEnd (completable_filterReader rfl) fun _ => ?_
  exact .andThen atEnd (completable_orderClause rfl) fun _ => completable_give fun _ h => h

theorem completable_updateStatement : Completable anything anything updateStatement atEnd := by
  rw [updateStatement_eq]
  refine .andThen anything (completable_identifier fun _ _ => trivial) fun _ => ?_
  refine .andThen anything (completable_word fun _ _ => trivial) fun _ => ?_
  refine .andThen noComma completable_assignments fun _ => ?_
  refine .andThen atEnd (completable_filterReader (next_nil _)) fun _ => ?_
  exact .andThen atEnd (completable_concurrentReader rfl) fun _ => completable_give fun _ h => h

theorem completable_analyzeStatement : Completable anything anything analyzeStatement atEnd := by
  rw [analyzeStatement_eq]
  refine .andThen atEnd (completable_identifier fun _ _ => trivial) fun _ => ?_
  refine .andThen atEnd (completable_filterReader rfl) fun _ => ?_
  exact .andThen atEnd (completable_groupClause rfl) fun _ => completable_give fun _ h => h

/-- **Statements can be completed.** -/
theorem completable_statement : Completable anything anything statement atEnd := by
  refine ⟨?_, [someWord "FIND", someName], .find "x" false none, ?_, fun _ _ _ => trivial⟩
  · rw [statement_eq]
    refine .ifNext (.pass_andThen completable_selectStatement) ?_
    refine .ifNext (.pass_andThen completable_findStatement) ?_
    refine .ifNext (.pass_andThen completable_updateStatement) ?_
    exact .ifNext (.pass_andThen completable_analyzeStatement) continues_refuse
  · rintro _ rfl
    rfl

/-- **Statements are read locally.** -/
theorem statement_local (ts : List Token) : LocalAt statement ts :=
  completable_statement.locality ts trivial

/-! ## 7. The first hopeless token -/

open Text (Position)

/-- What an error says that it found, and where. -/
inductive SyntaxError.Names : SyntaxError → String → Position → Prop where
  | noStatement {found : String} {p : Position} : Names (.noStatement found p) found p
  | expected {what : Expectation} {found : String} {p : Position} :
      Names (.expected what found p) found p
  | severalFields {found : String} {p : Position} : Names (.severalFields p) found p

/-- The error is about the token at the place `i`, or about the end of the tokens if there is none:
the tokens before it begin some query, and together with it they begin none. -/
structure EarliestError (ts : List Token) (e : SyntaxError) (i : Nat) : Prop where
  le : i ≤ ts.length
  names : ∀ h : i < ts.length, e.Names ts[i].describe ts[i].position
  names_end : i = ts.length →
    ∃ last, ts.getLast? = some last ∧ e.Names "end of input" last.position
  viable : ∃ more t, parseTokens (ts.take i ++ more) = .ok t
  hopeless : i < ts.length → ∀ more, parseTokens (ts.take (i + 1) ++ more) = .error e

theorem toError_names (ts : List Token) (f : Failure) :
    (f.toError ts).Names (f.rest.head?.getD (endToken ts)).describe
      (f.rest.head?.getD (endToken ts)).position := by
  obtain ⟨complaint, rest⟩ := f
  cases complaint with
  | noStatement => exact .noStatement
  | expected what => exact .expected
  | severalFields => exact .severalFields

/-- An error depends on the tokens that are left only by the first of them. -/
theorem toError_cons (ts ts' : List Token) (c : Complaint) (t : Token) (rest rest' : List Token) :
    Failure.toError ts ⟨c, t :: rest⟩ = Failure.toError ts' ⟨c, t :: rest'⟩ := rfl

theorem parseTokens_eq_emptyQuery_iff {ts : List Token} :
    parseTokens ts = .error .emptyQuery ↔ isEmptyQuery ts = true := by
  rw [parseTokens_eq, map_eq_error_iff, readStatement]
  split
  · rename_i hempty
    simp [hempty]
  · rename_i hempty
    have hne (f : Failure) : f.toError ts ≠ .emptyQuery := by
      intro h
      have hnames := toError_names ts f
      rw [h] at hnames
      cases hnames
    split
    · simp [hempty]
    · simp [hempty, hne]

theorem parseTokens_eq_error_iff {ts : List Token} {e : SyntaxError} (he : e ≠ .emptyQuery) :
    parseTokens ts = .error e ↔
      isEmptyQuery ts = false ∧ ∃ f, statement ts = .error f ∧ f.toError ts = e := by
  rw [parseTokens_eq, map_eq_error_iff, readStatement]
  split
  · rename_i hempty
    simp [hempty, he.symm]
  · rename_i hempty
    split <;> simp_all

theorem isEmptyQuery_append_cons (taken : List Token) (t : Token) (rest rest' : List Token) :
    isEmptyQuery (taken ++ t :: rest) = isEmptyQuery (taken ++ t :: rest') := by
  cases taken <;> rfl

theorem earliestError {ts : List Token} {e : SyntaxError} (h : parseTokens ts = .error e)
    (he : e ≠ .emptyQuery) : ∃ i, EarliestError ts e i := by
  obtain ⟨hempty, ⟨c, rest⟩, hread, rfl⟩ := (parseTokens_eq_error_iff he).mp h
  have hanswer : statement ts = answer (.error c) rest := hread
  obtain ⟨taken, rfl, hd⟩ := (statement_local ts).decides hanswer
  have hnames := toError_names (taken ++ rest) ⟨c, rest⟩
  refine ⟨taken.length, ?_, fun hlt => ?_, fun hend => ?_, ?_, fun hlt more => ?_⟩
  · simp
  · cases rest with
    | nil => simp at hlt
    | cons t rest => simpa using hnames
  · obtain rfl : rest = [] := by simpa using hend
    simp only [List.append_nil] at hempty hnames ⊢
    cases hlast : taken.getLast? with
    | none =>
      rw [List.getLast?_eq_none_iff.mp hlast] at hempty
      cases hempty
    | some last =>
      refine ⟨last, rfl, ?_⟩
      simpa [endToken, hlast, Token.describe] using hnames
  · obtain ⟨fix, s, hmend⟩ := completable_statement.mended trivial hread
    have hfix : statement (taken ++ (fix ++ [])) = .ok (s, []) := hmend.reads [] rfl
    refine ⟨fix, s.tree, parseTokens_eq_ok.mpr ⟨s, ⟨[], ?_⟩, rfl⟩⟩
    rwa [List.take_left, ← List.append_nil fix]
  · cases rest with
    | nil => simp at hlt
    | cons t rest =>
      have htake : (taken ++ t :: rest).take (taken.length + 1) ++ more = taken ++ t :: more := by
        simp [List.take_append, List.take_of_length_le]
      rw [htake, parseTokens_eq_error_iff he]
      exact ⟨(isEmptyQuery_append_cons taken t more rest).trans hempty, ⟨c, t :: more⟩,
        hd (t :: more) rfl, toError_cons _ _ c t more rest⟩

/-- **Errors of syntax**: an error is about the first token with which no query goes on, and only
what has nothing before its end is an empty query. -/
theorem parseTokens_error_earliest (ts : List Token) :
    (∀ e, parseTokens ts = .error e → e ≠ .emptyQuery → ∃ i, EarliestError ts e i) ∧
      (parseTokens ts = .error .emptyQuery ↔
        ts = [] ∨ Next (fun t => t.kind = .endOfInput) ts) := by
  refine ⟨fun e h he => earliestError h he, ?_⟩
  rw [parseTokens_eq_emptyQuery_iff]
  cases ts <;> simp [isEmptyQuery]

/-- A second field is refused at the comma before it. -/
theorem severalFields_earliest :
    parseTokens [someWord "SELECT", someName, ⟨.comma, ",", ⟨1, 9⟩⟩, someName] =
        .error (.severalFields ⟨1, 9⟩) ∧
      ∃ i, EarliestError [someWord "SELECT", someName, ⟨.comma, ",", ⟨1, 9⟩⟩, someName]
        (.severalFields ⟨1, 9⟩) i :=
  ⟨rfl, (parseTokens_error_earliest _).1 _ rfl (by decide)⟩

end StoreQL.Query
