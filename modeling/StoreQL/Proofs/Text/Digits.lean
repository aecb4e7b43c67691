/-
# Rows of digits

A row of digits writes a number. Digits that are appended to a row move the digits before them to
higher places, and a row that does not begin with a zero is the one in which the number is written.
A zero in front counts for nothing, so a row is written anew without its zeros in front, and a
number that has fewer digits than it should have is padded with them.

Main statements: `appendDigits_eq`, what appended digits make of a number;
`toDigits_appendDigits`, that they are appended to its row; and `leftpad_toDigits_append`, how a
number is written with some digits behind the point and at least one before it.
-/
import Mathlib.Tactic.Ring
import StoreQL.Arithmetic
import StoreQL.Proofs.Run
import StoreQL.Text.Digit

namespace StoreQL.Text

/-! ## 1. Single digits -/

theorem isDigit_iff {c : Char} : isDigit c = true ↔ 48 ≤ c.toNat ∧ c.toNat ≤ 57 := by
  simp only [isDigit, Bool.and_eq_true, decide_eq_true_eq]
  exact Iff.rfl

theorem ne_of_isDigit {c d : Char} (hc : isDigit c = true) (hd : isDigit d = false) : c ≠ d := by
  rintro rfl
  rw [hc] at hd
  cases hd

theorem toNat_eq_digitValue {c : Char} (hc : isDigit c = true) : c.toNat = 48 + digitValue c := by
  obtain ⟨hlow, -⟩ := isDigit_iff.mp hc
  change c.toNat = 48 + (c.toNat - 48)
  omega

theorem digitValue_lt {c : Char} (hc : isDigit c = true) : digitValue c < 10 := by
  obtain ⟨-, hhigh⟩ := isDigit_iff.mp hc
  have h := toNat_eq_digitValue hc
  omega

theorem digitValue_pos {c : Char} (hc : isDigit c = true) (hne : c ≠ '0') : 0 < digitValue c := by
  have h := toNat_eq_digitValue hc
  have hzero : c.toNat ≠ '0'.toNat := fun heq => hne (Char.toNat_inj.mp heq)
  change c.toNat ≠ 48 at hzero
  omega

theorem digitChar_digitValue {c : Char} (hc : isDigit c = true) : (digitValue c).digitChar = c := by
  rw [← Char.toNat_inj, Nat.toNat_digitChar_of_lt_ten (digitValue_lt hc), toNat_eq_digitValue hc]

/-! ## 2. Appended digits -/

@[simp] theorem appendDigits_nil (n : Nat) : appendDigits n [] = n := rfl

theorem appendDigits_cons (n : Nat) (c : Char) (ds : List Char) :
    appendDigits n (c :: ds) = appendDigits (n * 10 + digitValue c) ds := by
  rw [appendDigits, List.foldl_cons, ← appendDigits]

theorem appendDigits_append (n : Nat) (ds es : List Char) :
    appendDigits n (ds ++ es) = appendDigits (appendDigits n ds) es := List.foldl_append

/-- **Appended digits**: the number moves to higher places, and what the digits write is added. -/
theorem appendDigits_eq (n : Nat) (ds : List Char) :
    appendDigits n ds = n * tenTo ds.length + appendDigits 0 ds := by
  induction ds generalizing n with
  | nil => simp [tenTo]
  | cons c ds ih =>
    have hplace : tenTo (ds.length + 1) = tenTo ds.length * 10 := tenTo_add ds.length 1
    rw [appendDigits_cons, appendDigits_cons, ih, ih (0 * 10 + digitValue c), List.length_cons,
      hplace]
    ring

theorem le_appendDigits (n : Nat) (ds : List Char) : n ≤ appendDigits n ds := by
  rw [appendDigits_eq]
  exact Nat.le_trans (Nat.le_mul_of_pos_right n (tenTo_pos _)) (Nat.le_add_right _ _)

theorem appendDigits_lt {ds : List Char} (hds : ∀ c ∈ ds, isDigit c = true) :
    appendDigits 0 ds < tenTo ds.length := by
  induction ds with
  | nil => exact tenTo_pos 0
  | cons c ds ih =>
    rw [List.forall_mem_cons] at hds
    have hrest := ih hds.2
    have hvalue := Nat.mul_le_mul_right (tenTo ds.length) (Nat.le_of_lt_succ (digitValue_lt hds.1))
    have hplace : tenTo (ds.length + 1) = tenTo ds.length * 10 := tenTo_add ds.length 1
    rw [appendDigits_cons, appendDigits_eq, Nat.zero_mul, Nat.zero_add, List.length_cons, hplace]
    omega

/-! ## 3. The row of a number -/

/-- **Digits appended to a number are appended to its row.** A row has no zero in front, which is
why the number may not be zero. -/
theorem toDigits_appendDigits {n : Nat} (hn : 0 < n) {ds : List Char}
    (hds : ∀ c ∈ ds, isDigit c = true) :
    Nat.toDigits 10 (appendDigits n ds) = Nat.toDigits 10 n ++ ds := by
  induction ds generalizing n with
  | nil => rw [appendDigits_nil, List.append_nil]
  | cons c ds ih =>
    rw [List.forall_mem_cons] at hds
    have hlt := digitValue_lt hds.1
    have hfirst : Nat.toDigits 10 (n * 10 + digitValue c) = Nat.toDigits 10 n ++ [c] := by
      rw [Nat.mul_comm, ← Nat.toDigits_append_toDigits (by decide) hn hlt,
        Nat.toDigits_of_lt_base hlt, digitChar_digitValue hds.1]
    rw [appendDigits_cons, ih (by omega) hds.2, hfirst, List.append_assoc, List.singleton_append]

/-- A row that does not begin with a zero is that of its number. -/
theorem toDigits_of_ne_zero {c : Char} {ds : List Char} (hc : isDigit c = true) (hne : c ≠ '0')
    (hds : ∀ d ∈ ds, isDigit d = true) :
    Nat.toDigits 10 (appendDigits 0 (c :: ds)) = c :: ds := by
  have hpos : 0 < 0 * 10 + digitValue c := by
    have h := digitValue_pos hc hne
    omega
  rw [appendDigits_cons, toDigits_appendDigits hpos hds, Nat.zero_mul, Nat.zero_add,
    Nat.toDigits_of_lt_base (digitValue_lt hc), digitChar_digitValue hc, List.singleton_append]

theorem appendDigits_zero_cons (ds : List Char) :
    appendDigits 0 ('0' :: ds) = appendDigits 0 ds := rfl

theorem isDigit_of_mem_toDigits {n : Nat} {c : Char} (hc : c ∈ Nat.toDigits 10 n) :
    isDigit c = true := by
  have h := Nat.isDigit_of_mem_toDigits (by decide) (by decide) hc
  rw [Char.isDigit_iff_toNat] at h
  exact isDigit_iff.mpr h

/-- The row of a number writes the number. -/
theorem appendDigits_toDigits (n : Nat) : appendDigits 0 (Nat.toDigits 10 n) = n := by
  have hsame (ds : List Char) : appendDigits 0 ds = Nat.ofDigitChars 10 ds 0 := by
    simp only [appendDigits, Nat.ofDigitChars, Nat.mul_comm 10]
    rfl
  rw [hsame, Nat.ofDigitChars_toDigits (by decide) (by decide)]

/-! ## 4. Zeros in front -/

/-- The row without the zeros in front of it. Of zeros alone the last is left. -/
def dropLeadingZeros : List Char → List Char
  | '0' :: c :: ds => dropLeadingZeros (c :: ds)
  | ds => ds

theorem dropLeadingZeros_zero {ds : List Char} (hne : ds ≠ []) :
    dropLeadingZeros ('0' :: ds) = dropLeadingZeros ds := by
  cases ds with
  | nil => exact absurd rfl hne
  | cons c ds => rw [dropLeadingZeros]

theorem dropLeadingZeros_of_ne_zero {c : Char} (hc : c ≠ '0') (ds : List Char) :
    dropLeadingZeros (c :: ds) = c :: ds := by
  unfold dropLeadingZeros
  split
  · rename_i h
    cases h
    exact absurd rfl hc
  · rfl

theorem leftpad_of_le {n : Nat} {a : Char} {l : List Char} (h : n ≤ l.length) :
    List.leftpad n a l = l := by
  rw [List.leftpad, Nat.sub_eq_zero_of_le h, List.replicate_zero, List.nil_append]

theorem leftpad_succ {n : Nat} {a : Char} {l : List Char} (h : l.length ≤ n) :
    List.leftpad (n + 1) a l = a :: List.leftpad n a l := by
  rw [List.leftpad, Nat.succ_sub h, List.replicate_succ, List.cons_append, List.leftpad]

theorem appendDigits_leftpad (n : Nat) (ds : List Char) :
    appendDigits 0 (List.leftpad n '0' ds) = appendDigits 0 ds := by
  rw [List.leftpad]
  induction n - ds.length with
  | zero => rfl
  | succ k ih => rw [List.replicate_succ, List.cons_append, appendDigits_zero_cons, ih]

theorem isDigit_of_mem_leftpad {n k : Nat} {c : Char}
    (hc : c ∈ List.leftpad k '0' (Nat.toDigits 10 n)) : isDigit c = true := by
  rw [List.leftpad] at hc
  rcases List.mem_append.mp hc with hc | hc
  · rw [List.eq_of_mem_replicate hc]
    rfl
  · exact isDigit_of_mem_toDigits hc

/-- A row that is padded to one digit more than some places is parted before these places. -/
theorem exists_leftpad_eq_append (scale : Nat) (ds : List Char) : ∃ whole places,
    List.leftpad (scale + 1) '0' ds = whole ++ places ∧ whole ≠ [] ∧ places.length = scale := by
  have hlength : scale + 1 ≤ (List.leftpad (scale + 1) '0' ds).length := by
    rw [List.length_leftpad]
    exact Nat.le_max_left _ _
  generalize List.leftpad (scale + 1) '0' ds = row at hlength
  refine ⟨row.take (row.length - scale), row.drop (row.length - scale),
    (List.take_append_drop _ _).symm, ?_, ?_⟩
  · intro hnil
    have hzero := congrArg List.length hnil
    rw [List.length_take, List.length_nil] at hzero
    omega
  · rw [List.length_drop]
    omega

/-- A number below one is written with a zero and the digits behind the point. -/
theorem leftpad_toDigits {ds : List Char} (hds : ∀ c ∈ ds, isDigit c = true) :
    List.leftpad (ds.length + 1) '0' (Nat.toDigits 10 (appendDigits 0 ds)) = '0' :: ds := by
  induction ds with
  | nil => rfl
  | cons c ds ih =>
    rw [List.forall_mem_cons] at hds
    by_cases hc : c = '0'
    · subst hc
      have hrest := ih hds.2
      have hlength : (Nat.toDigits 10 (appendDigits 0 ds)).length ≤ ds.length + 1 := by
        have h := congrArg List.length hrest
        rw [List.length_leftpad, List.length_cons] at h
        omega
      rw [appendDigits_zero_cons, List.length_cons, leftpad_succ hlength, hrest]
    · rw [toDigits_of_ne_zero hds.1 hc hds.2, leftpad_succ (Nat.le_refl _),
        leftpad_of_le (Nat.le_refl _)]

/-- **A number with some digits behind the point** and at least one before it is written with the
digits before the point cleared of zeros in front. -/
theorem leftpad_toDigits_append {ds places : List Char} (hne : ds ≠ [])
    (hds : ∀ c ∈ ds, isDigit c = true) (hplaces : ∀ c ∈ places, isDigit c = true) :
    List.leftpad (places.length + 1) '0' (Nat.toDigits 10 (appendDigits 0 (ds ++ places))) =
      dropLeadingZeros ds ++ places := by
  induction ds with
  | nil => exact absurd rfl hne
  | cons c ds ih =>
    rw [List.forall_mem_cons] at hds
    by_cases hc : c = '0'
    · subst hc
      rw [List.cons_append, appendDigits_zero_cons]
      by_cases hempty : ds = []
      · subst hempty
        exact leftpad_toDigits hplaces
      · rw [dropLeadingZeros_zero hempty, ih hempty hds.2]
    · have hrest : ∀ d ∈ ds ++ places, isDigit d = true :=
        List.forall_mem_append.mpr ⟨hds.2, hplaces⟩
      rw [List.cons_append, toDigits_of_ne_zero hds.1 hc hrest, dropLeadingZeros_of_ne_zero hc,
        List.cons_append]
      refine leftpad_of_le ?_
      simp only [List.length_cons, List.length_append]
      omega

/-! ## 5. Points -/

/-- Two rows with a point between them. Before an empty row there is no point. -/
def pointed (whole places : List Char) : List Char :=
  whole ++ if places = [] then [] else '.' :: places

theorem mem_pointed {whole places : List Char} {c : Char} (hc : c ∈ pointed whole places) :
    c ∈ whole ∨ c = '.' ∨ c ∈ places := by
  unfold pointed at hc
  by_cases hplaces : places = []
  · rw [if_pos hplaces, List.append_nil] at hc
    exact .inl hc
  · rw [if_neg hplaces] at hc
    simpa using hc

/-- The point shows where the first row ends. -/
theorem pointed_injective {whole whole' places places' : List Char}
    (hwhole : ∀ c ∈ whole, isDigit c = true) (hwhole' : ∀ c ∈ whole', isDigit c = true)
    (h : pointed whole places = pointed whole' places') : whole = whole' ∧ places = places' := by
  have hnext (places : List Char) :
      ¬ Next (fun c => isDigit c = true) (if places = [] then [] else '.' :: places) := by
    split
    · exact next_nil _
    · exact Bool.false_ne_true
  obtain ⟨rfl, hending⟩ := run_unique hwhole (hnext places) hwhole' (hnext places') h
  refine ⟨rfl, ?_⟩
  by_cases hplaces : places = [] <;> by_cases hplaces' : places' = [] <;> simp_all

end StoreQL.Text
