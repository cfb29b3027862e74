import Zutils.Net.TimeSyncor

/-!
# What a clock is corrected by

The deltas are half round trips, so none is negative. If their upper median is positive, more than half of them are below
one and a half times the median, and the correction is their mean; if it is zero, none is, and the mean is divided by zero.
-/

namespace Zutils

open Lib

namespace TimeSyncor

variable {samples : List (UInt32 × UInt32)} {m : ℤ} {ds : List ℤ}

/-- **The median is positive** if and only if at most half of the deltas are zero. -/
lemma median_pos_iff (hds : ∀ d ∈ ds, 0 ≤ d) (hm : IsUpperMedian ds m) :
    0 < m ↔ ds.countP (· = 0) ≤ ds.length / 2 := by
  constructor
  · intro hpos
    refine le_trans (List.countP_mono_left fun d _ hd => ?_) hm.below
    simp only [decide_eq_true_eq] at hd ⊢
    rwa [hd]
  · intro hzero
    refine lt_of_le_of_ne (hds m hm.mem) ?_
    rintro rfl
    have hmono : ds.countP (· ≤ 0) ≤ ds.countP (· = 0) := by
      refine List.countP_mono_left fun d hd hle => ?_
      simp only [decide_eq_true_eq] at hle ⊢
      exact le_antisymm hle (hds d hd)
    exact absurd (hm.upTo.trans_le hmono) (not_lt.2 hzero)

lemma averaged_eq_nil_iff (hds : ∀ d ∈ ds, 0 ≤ d) (hm : IsUpperMedian ds m) : averaged m ds = [] ↔ ¬ 0 < m := by
  rw [averaged, List.filter_eq_nil_iff]
  constructor
  · intro hnone hpos
    exact hnone m hm.mem (by simpa using by omega)
  · intro hzero d hd
    have hd := hds d hd
    simpa using by omega

/-- **More than half** of the deltas are averaged. -/
lemma length_lt_averaged (hm : IsUpperMedian ds m) (hpos : 0 < m) : ds.length < 2 * (averaged m ds).length := by
  have hmono : ds.countP (· ≤ m) ≤ (averaged m ds).length := by
    rw [averaged, ← List.countP_eq_length_filter]
    refine List.countP_mono_left fun d _ hd => ?_
    simp only [decide_eq_true_eq] at hd ⊢
    omega
  have := hm.upTo
  omega

lemma mem_averaged {d : ℤ} : d ∈ averaged m ds ↔ d ∈ ds ∧ 2 * d < 3 * m := by
  simp [averaged]

lemma toNat_ofInt {x : ℤ} (h : 0 ≤ x ∧ x < 2 ^ 31) : ((UInt32.ofInt x).toNat : ℤ) = x := by
  have hmod : x % 2 ^ 32 = x := Int.emod_eq_of_lt h.1 (by omega)
  rw [UInt32.ofInt, hmod, UInt32.toNat_ofNat_of_lt' (by simp only [UInt32.size]; omega), Int.toNat_of_nonneg h.1]

lemma mean_averaged (hds : ∀ d ∈ ds, 0 ≤ d) (hne : averaged m ds ≠ []) (hsum : (averaged m ds).sum < 2 ^ 31) :
    0 ≤ mean (averaged m ds) ∧ mean (averaged m ds) < 2 ^ 31 := by
  have hnonneg : ∀ d ∈ averaged m ds, 0 ≤ d := fun d hd => hds d (mem_averaged.1 hd).1
  refine ⟨le_mean hne hnonneg, lt_of_le_of_lt (mean_le hne fun d hd => ?_) hsum⟩
  exact List.single_le_sum hnonneg d hd

lemma corrected_eq (hlength : 2 < (recorded samples).length) (hm : IsUpperMedian (recorded samples) m) :
    corrected samples =
      if (averaged m (recorded samples)).sum < 2 ^ 31 ∧ (averaged m (recorded samples)).length < 2 ^ 31 then
        if averaged m (recorded samples) = [] then .error .divideByZero
        else .ok (UInt32.ofInt (mean (averaged m (recorded samples))))
      else .error .intOverflow :=
  getCorrectedDelta_eq hlength recorded_nonneg hm

/-- **The correction is the mean** of what is averaged, while that and its number fit and the median is positive. -/
lemma corrected_spec (hlength : 2 < (recorded samples).length) (hm : IsUpperMedian (recorded samples) m) :
    (∃ r, corrected samples = .ok r ∧ (r.toNat : ℤ) = mean (averaged m (recorded samples))) ↔
      0 < m ∧ (averaged m (recorded samples)).sum < 2 ^ 31 ∧ (averaged m (recorded samples)).length < 2 ^ 31 := by
  have hnil := averaged_eq_nil_iff recorded_nonneg hm
  rw [corrected_eq hlength hm]
  constructor
  · rintro ⟨r, hr, -⟩
    split at hr
    · rename_i hfits
      split at hr
      · cases hr
      · rename_i hne
        exact ⟨not_not.1 (mt hnil.2 hne), hfits⟩
    · cases hr
  · rintro ⟨hpos, hfits⟩
    have hne : averaged m (recorded samples) ≠ [] := fun h => hnil.1 h hpos
    rw [if_pos hfits, if_neg hne]
    exact ⟨_, rfl, toNat_ofInt (mean_averaged recorded_nonneg hne hfits.1)⟩

/-- The correction depends on what is recorded only, whatever its order. -/
lemma corrected_congr {samples' : List (UInt32 × UInt32)} (hlength : 2 < (recorded samples).length)
    (h : (recorded samples').Perm (recorded samples)) {r : UInt32} (hr : corrected samples = .ok r) :
    corrected samples' = .ok r := by
  have hne : recorded samples ≠ [] := List.ne_nil_of_length_pos (by omega)
  obtain ⟨m, -, hm⟩ := exists_isUpperMedian hne
  have hperm := averaged_perm (m := m) h
  have hlength' : 2 < (recorded samples').length := by rwa [h.length_eq]
  have hmean : mean (averaged m (recorded samples')) = mean (averaged m (recorded samples)) := by
    rw [mean, mean, hperm.sum_eq, hperm.length_eq]
  rw [corrected_eq hlength hm] at hr
  rw [corrected_eq hlength' (hm.perm h.symm), hmean, hperm.sum_eq, hperm.length_eq, ← hr]
  simp only [← List.length_eq_zero_iff, hperm.length_eq]

/-- **A correction is the mean of the round trips** below one and a half times their upper median if and only if at most
half of them are zero, and the sum and the number of those that are averaged fit an `int`. -/
theorem corrected_iff (hlength : 2 < (recorded samples).length) : ∃ m, IsUpperMedian (recorded samples) m ∧
    ((∃ r, corrected samples = .ok r ∧ (r.toNat : ℤ) = mean (averaged m (recorded samples))) ↔
      (recorded samples).countP (· = 0) ≤ (recorded samples).length / 2 ∧
      (averaged m (recorded samples)).sum < 2 ^ 31 ∧ (averaged m (recorded samples)).length < 2 ^ 31) := by
  have hne : recorded samples ≠ [] := List.ne_nil_of_length_pos (by omega)
  obtain ⟨m, -, hm⟩ := exists_isUpperMedian hne
  exact ⟨m, hm, (corrected_spec hlength hm).trans (and_congr_left fun _ => median_pos_iff recorded_nonneg hm)⟩

/-- The mean of three round trips without the longest one. -/
theorem corrected_three : ∃ r, corrected [(0, 0), (0, 2), (1, 9), (5, 9)] = .ok r ∧ (r.toNat : ℤ) = mean [1, 2] := by
  obtain ⟨m, hm, hiff⟩ := corrected_iff (show 2 < (recorded [(0, 0), (0, 2), (1, 9), (5, 9)]).length by decide)
  have htwo : IsUpperMedian (recorded [(0, 0), (0, 2), (1, 9), (5, 9)]) 2 := ⟨by decide, by decide, by decide⟩
  obtain rfl := hm.unique htwo
  exact hiff.2 (by decide)

/-- Round trips that take no time are divided by zero. -/
theorem corrected_zeros : ¬ ∀ samples : List (UInt32 × UInt32), 2 < (recorded samples).length →
    ∃ m, IsUpperMedian (recorded samples) m ∧
      ∃ r, corrected samples = .ok r ∧ (r.toNat : ℤ) = mean (averaged m (recorded samples)) := by
  intro hall
  obtain ⟨m, -, r, hr, -⟩ := hall [(0, 0), (0, 0), (0, 0), (0, 0)] (by decide)
  have hzero : corrected [(0, 0), (0, 0), (0, 0), (0, 0)] = .error .divideByZero := by decide
  rw [hzero] at hr
  cases hr

/-! ### Robustness -/

/-- **The correction is robust.** More than half of the samples are averaged, each one that is not is at least one and a
half times the median, and the mean is between the smallest sample and the largest one that is averaged. Neither the order
of the samples nor a clock that is ahead by any time makes a difference. -/
structure Robust (samples : List (UInt32 × UInt32)) (m : ℤ) (r : UInt32) : Prop where
  mean : (r.toNat : ℤ) = mean (averaged m (recorded samples))
  half : (recorded samples).length < 2 * (averaged m (recorded samples)).length
  discarded : ∀ d ∈ recorded samples, d ∉ averaged m (recorded samples) → 3 * m ≤ 2 * d
  between : ∃ lo hi, (recorded samples).min? = some lo ∧ (averaged m (recorded samples)).max? = some hi ∧
    lo ≤ r.toNat ∧ r.toNat ≤ hi
  below : 2 * (r.toNat : ℤ) < 3 * m
  order : ∀ samples', (recorded samples').Perm (recorded samples) → corrected samples' = .ok r
  wrap : ∀ c, corrected (samples.map fun s => (s.1 + c, s.2 + c)) = .ok r

lemma robust (hlength : 2 < (recorded samples).length) (hm : IsUpperMedian (recorded samples) m) (hpos : 0 < m)
    {r : UInt32} (hr : corrected samples = .ok r) (hmean : (r.toNat : ℤ) = mean (averaged m (recorded samples))) :
    Robust samples m r := by
  have hne : averaged m (recorded samples) ≠ [] := fun h => (averaged_eq_nil_iff recorded_nonneg hm).1 h hpos
  have hsome : recorded samples ≠ [] := List.ne_nil_of_length_pos (by omega)
  obtain ⟨lo, hlo⟩ := Option.isSome_iff_exists.1 (List.isSome_min?_of_ne_nil hsome)
  obtain ⟨hi, hhi⟩ := Option.isSome_iff_exists.1 (List.isSome_max?_of_ne_nil hne)
  have hlo' := List.min?_eq_some_iff.1 hlo
  have hhi' := List.max?_eq_some_iff.1 hhi
  have hge : lo ≤ r.toNat := by
    rw [hmean]
    exact le_mean hne fun d hd => hlo'.2 d (mem_averaged.1 hd).1
  have hle : r.toNat ≤ hi := by
    rw [hmean]
    exact mean_le hne fun d hd => hhi'.2 d hd
  have hbelow := (mem_averaged.1 hhi'.1).2
  refine ⟨hmean, length_lt_averaged hm hpos, fun d hd hnot => ?_, ⟨lo, hi, hlo, hhi, hge, hle⟩, by omega,
    fun samples' h => corrected_congr hlength h hr, fun c => corrected_congr hlength ?_ hr⟩
  · by_contra hlt
    exact hnot (mem_averaged.2 ⟨hd, not_le.1 hlt⟩)
  · rw [recorded_add]

/-- **A correction is robust**, for a positive median and samples whose sum fits an `int`, if and only if the number of
those that are averaged fits one. -/
theorem corrected_robust_iff (hlength : 2 < (recorded samples).length) (hm : IsUpperMedian (recorded samples) m)
    (hpos : 0 < m) (hsum : (recorded samples).sum < 2 ^ 31) :
    (∃ r, corrected samples = .ok r ∧ Robust samples m r) ↔ (averaged m (recorded samples)).length < 2 ^ 31 := by
  constructor
  · rintro ⟨r, hr, hrobust⟩
    exact ((corrected_spec hlength hm).1 ⟨r, hr, hrobust.mean⟩).2.2
  · intro hcount
    have hsumAveraged : (averaged m (recorded samples)).sum < 2 ^ 31 :=
      (List.filter_sublist.sum_le_sum recorded_nonneg).trans_lt hsum
    obtain ⟨r, hr, hmean⟩ := (corrected_spec hlength hm).2 ⟨hpos, hsumAveraged, hcount⟩
    exact ⟨r, hr, robust hlength hm hpos hr hmean⟩

/-- A clock wraps. -/
theorem corrected_wrapped : corrected [(7, 7), (7, 9), (8, 16), (12, 16)] =
    corrected ([(7, 7), (7, 9), (8, 16), (12, 16)].map fun s => (s.1 + 4294967286, s.2 + 4294967286)) := by
  have htwo : IsUpperMedian (recorded [(7, 7), (7, 9), (8, 16), (12, 16)]) 2 := ⟨by decide, by decide, by decide⟩
  obtain ⟨r, hr, hrobust⟩ := (corrected_robust_iff (by decide) htwo (by decide) (by decide)).2 (by decide)
  rw [hr, hrobust.wrap]

lemma recorded_replicate (n : ℕ) : recorded ((0, 0) :: (List.replicate n (0, 0) ++ List.replicate n (0, 2))) =
    List.replicate n 0 ++ List.replicate n 1 := by
  rw [recorded_eq, List.tail_cons, List.map_append, List.map_replicate, List.map_replicate]
  rfl

/-- There are too many samples to count, half of them zero. -/
theorem corrected_count_overflow : ¬ ∀ (samples : List (UInt32 × UInt32)) (m : ℤ), 2 < (recorded samples).length →
    IsUpperMedian (recorded samples) m → 0 < m → (recorded samples).sum < 2 ^ 31 →
    ∃ r, corrected samples = .ok r ∧ Robust samples m r := by
  intro hall
  obtain ⟨n, hn⟩ : ∃ n : ℕ, n = 2147483647 := ⟨_, rfl⟩
  have hrecorded := recorded_replicate n
  have haveraged : averaged 1 (List.replicate n 0 ++ List.replicate n 1) = List.replicate n 0 ++ List.replicate n 1 := by
    rw [averaged, List.filter_eq_self]
    intro d hd
    rcases List.mem_append.1 hd with hd | hd <;> simp [List.eq_of_mem_replicate hd]
  have hm : IsUpperMedian (recorded ((0, 0) :: (List.replicate n (0, 0) ++ List.replicate n (0, 2)))) 1 := by
    rw [hrecorded]
    refine ⟨List.mem_append_right _ (List.mem_replicate.2 ⟨by omega, rfl⟩), ?_, ?_⟩
    · simp [List.countP_append, List.countP_replicate]
      omega
    · simp [List.countP_append, List.countP_replicate]
      omega
  obtain ⟨r, hr, -⟩ := hall _ 1 (by simp [hrecorded]; omega) hm (by decide) (by simp [hrecorded]; omega)
  rw [corrected_eq (by simp [hrecorded]; omega) hm, if_neg] at hr
  · cases hr
  · rw [hrecorded, haveraged]
    simp
    omega

end TimeSyncor

end Zutils
