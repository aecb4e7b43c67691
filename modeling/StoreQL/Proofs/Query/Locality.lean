/-
# What a reader looks at

A reader takes some tokens and then stops, at a token that it has looked at but not taken, or at the
end. What it answers depends on nothing else: the tokens after that one may be exchanged for any
others, and it takes the same tokens and answers the same. `LocalAt read ts` says so of what a
reader does at `ts`, whether it succeeds or fails; it is what makes an error of syntax an error of
the token that it names.

Main statements: that the pieces of which readers are made are local, and `LocalAt.ifNext` and
`LocalAt.andThen`, that so is what is put together from them.
-/
import StoreQL.Proofs.Query.Reader

namespace StoreQL.Query

variable {α β : Type}

/-! ## 1. Locality -/

/-- The answer of a reader: a value or a complaint, and the tokens that are left. -/
def answer (out : Except Complaint α) (rest : List Token) : Except Failure (α × List Token) :=
  match out with
  | .ok a => .ok (a, rest)
  | .error c => .error ⟨c, rest⟩

/-- The reader takes these tokens and answers so before anything that begins with `next`. -/
def Decides (read : Reader α) (taken : List Token) (out : Except Complaint α)
    (next : Option Token) : Prop :=
  ∀ rest, rest.head? = next → read (taken ++ rest) = answer out rest

/-- What the reader does at `ts` is decided by the tokens that it takes and the one after them. -/
def LocalAt (read : Reader α) (ts : List Token) : Prop :=
  ∃ taken out rest, ts = taken ++ rest ∧ Decides read taken out rest.head?

theorem answer_inj {out out' : Except Complaint α} {rest rest' : List Token}
    (h : answer out rest = answer out' rest') : out = out' ∧ rest = rest' := by
  cases out <;> cases out' <;> simp_all [answer]

theorem LocalAt.decides {read : Reader α} {ts rest : List Token} {out : Except Complaint α}
    (h : LocalAt read ts) (hr : read ts = answer out rest) :
    ∃ taken, ts = taken ++ rest ∧ Decides read taken out rest.head? := by
  obtain ⟨taken, out', rest', rfl, hd⟩ := h
  obtain ⟨rfl, rfl⟩ := answer_inj ((hd rest' rfl).symm.trans hr)
  exact ⟨taken, rfl, hd⟩

/-- Two texts that begin alike begin alike whatever equal tokens stand before them. -/
theorem head?_append_congr {l l' : List Token} (taken : List Token) (h : l.head? = l'.head?) :
    (taken ++ l).head? = (taken ++ l').head? := by
  rw [List.head?_append, List.head?_append, h]

/-! ## 2. The pieces are local -/

theorem localAt_token (take : Token → Option α) (complaint : Complaint) :
    ∀ ts, LocalAt (Reader.token take complaint) ts
  | [] => by
    refine ⟨[], .error complaint, [], rfl, fun rest h => ?_⟩
    cases List.head?_eq_none_iff.mp h
    rfl
  | t :: ts => by
    cases ht : take t with
    | some a =>
      refine ⟨[t], .ok a, ts, rfl, fun rest _ => ?_⟩
      simp only [List.cons_append, List.nil_append, Reader.token, ht, answer]
    | none =>
      refine ⟨[], .error complaint, t :: ts, rfl, fun rest h => ?_⟩
      obtain ⟨rest, rfl⟩ := List.head?_eq_some_iff.mp h
      simp only [List.nil_append, Reader.token, ht, answer]

theorem localAt_pass : ∀ ts, LocalAt Reader.pass ts
  | [] => by
    refine ⟨[], .ok (), [], rfl, fun rest h => ?_⟩
    cases List.head?_eq_none_iff.mp h
    rfl
  | t :: ts => ⟨[t], .ok (), ts, rfl, fun _ _ => rfl⟩

theorem localAt_passWhile (p : Token → Bool) (ts : List Token) :
    LocalAt (Reader.passWhile p) ts := by
  refine ⟨ts.takeWhile p, .ok (), ts.dropWhile p, List.takeWhile_append_dropWhile.symm,
    fun rest h => ?_⟩
  have hrun : ∀ t ∈ ts.takeWhile p, p t = true := List.all_eq_true.mp List.all_takeWhile
  have hrest : ¬ Next (fun t => p t = true) rest := by
    rw [next_congr h]
    exact not_next_dropWhile p ts
  simp only [Reader.passWhile, dropWhile_run hrun hrest, answer]

theorem localAt_give (a : α) (ts : List Token) : LocalAt (Reader.give a) ts :=
  ⟨[], .ok a, ts, rfl, fun _ _ => rfl⟩

theorem localAt_refuse (complaint : Complaint) (ts : List Token) :
    LocalAt (Reader.refuse complaint : Reader α) ts :=
  ⟨[], .error complaint, ts, rfl, fun _ _ => rfl⟩

theorem LocalAt.ifNext {p : Token → Bool} {yes no : Reader α} {ts : List Token}
    (hyes : Next (fun t => p t = true) ts → LocalAt yes ts)
    (hno : ¬ Next (fun t => p t = true) ts → LocalAt no ts) :
    LocalAt (Reader.ifNext p yes no) ts := by
  by_cases hp : Next (fun t => p t = true) ts
  · obtain ⟨taken, out, rest, rfl, hd⟩ := hyes hp
    refine ⟨taken, out, rest, rfl, fun rest' h => ?_⟩
    rw [← next_congr (head?_append_congr taken h)] at hp
    rw [Reader.ifNext_of_next hp, hd rest' h]
  · obtain ⟨taken, out, rest, rfl, hd⟩ := hno hp
    refine ⟨taken, out, rest, rfl, fun rest' h => ?_⟩
    rw [← next_congr (head?_append_congr taken h)] at hp
    rw [Reader.ifNext_of_not_next hp, hd rest' h]

/-- **One local reader after another is local.** Where the second takes nothing, the token at which
it stops is the one that the first has looked at. -/
theorem LocalAt.andThen {first : Reader α} {second : α → Reader β} {ts : List Token}
    (hfirst : LocalAt first ts)
    (hsecond : ∀ a mid, first ts = .ok (a, mid) → LocalAt (second a) mid) :
    LocalAt (Reader.andThen first second) ts := by
  obtain ⟨taken, out, mid, rfl, hd⟩ := hfirst
  cases out with
  | error c =>
    refine ⟨taken, .error c, mid, rfl, fun rest h => ?_⟩
    simp only [Reader.andThen, hd rest h]
    rfl
  | ok a =>
    obtain ⟨taken', out, rest, rfl, hd'⟩ := hsecond a mid (hd mid rfl)
    refine ⟨taken ++ taken', out, rest, (List.append_assoc ..).symm, fun rest' h => ?_⟩
    simp only [Reader.andThen, List.append_assoc, hd _ (head?_append_congr taken' h)]
    exact hd' rest' h

end StoreQL.Query
