import Mathlib.Data.Int.CardIntervalMod

/-!
# Taking turns

Numbers below `n` take turns if each follows the one before it, and the first the last. In any row of turns, wherever it
begins, no number has more than one turn more than another (`turns_fair`).
-/

namespace Zutils.Lib

/-- `k` turns of `n` numbers, from the turn `a` on. -/
def turns (n a k : ℕ) : List ℕ := (List.range' a k).map (· % n)

variable {n a k j j' : ℕ}

@[simp] lemma turns_zero : turns n a 0 = [] := rfl

lemma turns_succ : turns n a (k + 1) = turns n a k ++ [(a + k) % n] := by
  rw [turns, List.range'_1_concat, List.map_append]
  rfl

lemma next_turn (hn : 0 < n) (i : ℕ) : (if i % n + 1 = n then 0 else i % n + 1) = (i + 1) % n := by
  have hlt := Nat.mod_lt i hn
  rw [← Nat.mod_add_mod]
  split
  · rename_i hlast
    rw [hlast, Nat.mod_self]
  · exact (Nat.mod_eq_of_lt (by omega)).symm

@[simp] lemma turns_length : (turns n a k).length = k := by simp [turns]

/-- The turns of a number in a row are those behind the row less those in front of it. -/
lemma count_turns : (turns n a k).count j + Nat.count (· % n = j) a = Nat.count (· % n = j) (a + k) := by
  induction k with
  | zero => simp
  | succ k ih =>
    rw [turns_succ, List.count_append, Nat.add_right_comm, ih, ← Nat.add_assoc a k 1, Nat.count_succ]
    simp [List.count_singleton]

lemma count_mod (hj : j < n) (b : ℕ) : Nat.count (· % n = j) b = b / n + if j < b % n then 1 else 0 := by
  have hcount := Nat.count_modEq_card b (Nat.zero_lt_of_lt hj) j
  simpa only [Nat.ModEq, Nat.mod_eq_of_lt hj] using hcount

/-- **Turns are fair.** -/
theorem turns_fair (hj : j < n) (hj' : j' < n) : (turns n a k).count j ≤ (turns n a k).count j' + 1 := by
  have h := count_turns (n := n) (a := a) (k := k) (j := j)
  have h' := count_turns (n := n) (a := a) (k := k) (j := j')
  rw [count_mod hj, count_mod hj] at h
  rw [count_mod hj', count_mod hj'] at h'
  split_ifs at h h' <;> omega

end Zutils.Lib
