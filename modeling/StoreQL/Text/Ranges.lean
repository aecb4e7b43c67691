/-
# Ranges of code points

A property of characters is given as a list of closed ranges of code points in ascending order.
`Ranges.covers` looks a code point up; because the ranges ascend it can stop at the first one that
begins after the code point, which makes the answer for an ASCII character immediate.
-/
namespace StoreQL.Text

/-- Closed ranges of code points, in ascending order. -/
abbrev Ranges := List (Nat × Nat)

/-- Whether `n` lies in one of the ranges. -/
def Ranges.covers : Ranges → Nat → Bool
  | [], _ => false
  | (lo, hi) :: rest, n => if n < lo then false else decide (n ≤ hi) || Ranges.covers rest n

/-- A code point that is covered lies in one of the ranges. -/
theorem Ranges.exists_of_covers : ∀ {rs : Ranges} {n : Nat}, rs.covers n = true →
    ∃ r ∈ rs, r.1 ≤ n ∧ n ≤ r.2
  | [], n, h => by simp [Ranges.covers] at h
  | (lo, hi) :: rest, n, h => by
    unfold Ranges.covers at h
    split at h
    · simp at h
    · rename_i hlo
      rcases Bool.or_eq_true _ _ ▸ h with h | h
      · exact ⟨(lo, hi), by simp, by omega, by simpa using h⟩
      · obtain ⟨r, hr, hb⟩ := exists_of_covers h
        exact ⟨r, List.mem_cons_of_mem _ hr, hb⟩

end StoreQL.Text
