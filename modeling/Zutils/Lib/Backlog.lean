import Mathlib.Data.Nat.Notation

/-!
# A queue that is served once a turn

By the turn `m`, `a m` jobs have arrived; in each turn at most one job is served, after the arrivals of the turn.
`served a m` counts the jobs served by then. Nothing is waiting after the turn `m` exactly when, counted from any
earlier turn, no more jobs have arrived since than there were turns.
-/

namespace Zutils.Lib

/-- The number of jobs served by the turn `m`. -/
def served (a : ℕ → ℕ) : ℕ → ℕ
  | 0 => 0
  | m + 1 => min (served a m + 1) (a (m + 1))

variable {a a' : ℕ → ℕ}

lemma served_congr {m : ℕ} (h : ∀ j ≤ m, a j = a' j) : served a m = served a' m := by
  induction m with
  | zero => rfl
  | succ m ih => rw [served, served, ih fun j hj => h j (by omega), h (m + 1) (Nat.le_refl _)]

lemma served_le {m j : ℕ} (hj : j ≤ m) : served a m ≤ a j + (m - j) := by
  induction m with
  | zero => exact Nat.zero_le _
  | succ m ih =>
    have h1 : served a (m + 1) ≤ served a m + 1 := Nat.min_le_left _ _
    have h2 : served a (m + 1) ≤ a (m + 1) := Nat.min_le_right _ _
    by_cases hm : j ≤ m
    · have := ih hm
      omega
    · obtain rfl : j = m + 1 := by omega
      omega

/-- The bound is attained: by the last turn at which nothing was waiting. -/
lemma exists_served_eq (h0 : a 0 = 0) (m : ℕ) : ∃ j ≤ m, served a m = a j + (m - j) := by
  induction m with
  | zero => exact ⟨0, Nat.le_refl _, by rw [served, h0]⟩
  | succ m ih =>
    obtain ⟨j, hj, he⟩ := ih
    by_cases h : served a m + 1 ≤ a (m + 1)
    · refine ⟨j, by omega, ?_⟩
      rw [served, Nat.min_eq_left h]
      omega
    · refine ⟨m + 1, Nat.le_refl _, ?_⟩
      rw [served, Nat.min_eq_right (by omega)]
      omega

/-- **When nothing is left waiting.** -/
theorem served_eq_iff (h0 : a 0 = 0) (m : ℕ) : served a m = a m ↔ ∀ j ≤ m, a m ≤ a j + (m - j) := by
  constructor
  · intro h j hj
    rw [← h]
    exact served_le hj
  · intro h
    obtain ⟨j, hj, he⟩ := exists_served_eq h0 m
    have hle : served a m ≤ a m + (m - m) := served_le (Nat.le_refl m)
    have := h j hj
    omega

end Zutils.Lib
