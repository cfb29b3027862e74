import Mathlib.Algebra.Order.BigOperators.Group.List
import Mathlib.Algebra.Order.Ring.Int
import Mathlib.Data.List.Sort

/-!
# Medians and means

The upper median of a list has at most half of the elements below it, and more than half are not above it. It is the
element in the middle of the list in order (`isUpperMedian_of_sorted`), there is one for each list (`exists_isUpperMedian`),
and it depends on the elements only, not on their order. A mean of integers, rounded towards zero, is between any bounds of
them (`le_mean`, `mean_le`).
-/

namespace Zutils.Lib

section Median

variable {α : Type*} [LinearOrder α]

/-- At most half of the elements are below `m`, and more than half are not above it. -/
structure IsUpperMedian (xs : List α) (m : α) : Prop where
  mem : m ∈ xs
  below : xs.countP (· < m) ≤ xs.length / 2
  upTo : xs.length / 2 < xs.countP (· ≤ m)

variable {xs ys : List α} {m m' : α}

lemma IsUpperMedian.perm (h : IsUpperMedian xs m) (hp : xs.Perm ys) : IsUpperMedian ys m where
  mem := hp.mem_iff.1 h.mem
  below := by
    rw [← hp.countP_eq, ← hp.length_eq]
    exact h.below
  upTo := by
    rw [← hp.countP_eq, ← hp.length_eq]
    exact h.upTo

lemma IsUpperMedian.unique (h : IsUpperMedian xs m) (h' : IsUpperMedian xs m') : m = m' := by
  -- What is not above the smaller of two is below the greater one.
  have hle : ∀ {a b}, IsUpperMedian xs a → IsUpperMedian xs b → b ≤ a := by
    intro a b ha hb
    by_contra hlt
    have hmono : xs.countP (· ≤ a) ≤ xs.countP (· < b) := by
      refine List.countP_mono_left fun x _ hx => ?_
      simp only [decide_eq_true_eq] at hx ⊢
      exact hx.trans_lt (not_le.1 hlt)
    exact absurd (ha.upTo.trans_le hmono) (not_lt.2 hb.below)
  exact le_antisymm (hle h' h) (hle h h')

/-- **The element in the middle** of a list in order is its upper median. -/
lemma isUpperMedian_of_sorted (hs : ys.Pairwise (· ≤ ·)) (hm : ys[ys.length / 2]? = some m) : IsUpperMedian ys m := by
  obtain ⟨hlt, hget⟩ := List.getElem?_eq_some_iff.1 hm
  set n := ys.length / 2 with hn
  have hsplit : ys = ys.take n ++ m :: ys.drop (n + 1) := by
    rw [← hget, ← List.drop_eq_getElem_cons hlt, List.take_append_drop]
  have hlength : (ys.take n).length = n := List.length_take_of_le hlt.le
  rw [hsplit] at hs
  obtain ⟨-, hbehind, hbefore⟩ := List.pairwise_append.1 hs
  refine ⟨hget ▸ List.getElem_mem hlt, ?_, ?_⟩
  · rw [← hn, hsplit, List.countP_append]
    have hnone : (m :: ys.drop (n + 1)).countP (· < m) = 0 := by
      refine List.countP_eq_zero.2 fun x hx => ?_
      rcases List.mem_cons.1 hx with rfl | hx
      · simp
      · simpa using List.rel_of_pairwise_cons hbehind hx
    rw [hnone, Nat.add_zero]
    exact List.countP_le_length.trans hlength.le
  · rw [← hn, hsplit, List.countP_append]
    have hall : (ys.take n).countP (· ≤ m) = (ys.take n).length := by
      refine List.countP_eq_length.2 fun x hx => ?_
      simpa using hbefore x hx m List.mem_cons_self
    rw [hall, hlength, List.countP_cons_of_pos (by simp)]
    omega

/-- **Each list has an upper median**, if it is not empty. -/
lemma exists_isUpperMedian (hne : xs ≠ []) : ∃ m, (xs.insertionSort (· ≤ ·))[xs.length / 2]? = some m ∧
    IsUpperMedian xs m := by
  have hlt : xs.length / 2 < (xs.insertionSort (· ≤ ·)).length := by
    rw [List.length_insertionSort]
    exact Nat.div_lt_self (List.length_pos_iff.2 hne) (by decide)
  refine ⟨_, List.getElem?_eq_getElem hlt, ?_⟩
  refine (isUpperMedian_of_sorted (List.pairwise_insertionSort (· ≤ ·) xs) ?_).perm (List.perm_insertionSort (· ≤ ·) xs)
  simp [List.length_insertionSort]

end Median

section Mean

variable {xs : List ℤ} {b : ℤ}

/-- The mean, rounded towards zero. -/
def mean (xs : List ℤ) : ℤ := xs.sum.tdiv xs.length

lemma le_mean (hne : xs ≠ []) (h : ∀ x ∈ xs, b ≤ x) : b ≤ mean xs := by
  have hpos : (0 : ℤ) < xs.length := by exact_mod_cast List.length_pos_iff.2 hne
  have hsum := List.card_nsmul_le_sum xs b h
  rw [nsmul_eq_mul] at hsum
  calc b = (xs.length * b).tdiv xs.length := (Int.mul_tdiv_cancel_left b hpos.ne').symm
    _ ≤ mean xs := Int.tdiv_le_tdiv hpos hsum

lemma mean_le (hne : xs ≠ []) (h : ∀ x ∈ xs, x ≤ b) : mean xs ≤ b := by
  have hpos : (0 : ℤ) < xs.length := by exact_mod_cast List.length_pos_iff.2 hne
  have hsum := List.sum_le_card_nsmul xs b h
  rw [nsmul_eq_mul] at hsum
  calc mean xs ≤ (xs.length * b).tdiv xs.length := Int.tdiv_le_tdiv hpos hsum
    _ = b := Int.mul_tdiv_cancel_left b hpos.ne'

end Mean

end Zutils.Lib
