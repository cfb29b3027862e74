import Zutils.Lib.Median
import Zutils.Base.Checked
import Mathlib.Data.UInt

/-!
# The synchronisation of clocks (`net/util/time_syncor.h`)

`TimeSyncor` records half of each round trip, except that of the first sample, and corrects a clock by the mean of those
that are below one and a half times their upper median. An `int` is an integer, and to leave its range is a fault, as is a
division by zero. The product of the median and 1.5 is exact in a `double`, so the comparison with it is one of integers.
-/

namespace Zutils

open Lib

/-- Why there is no correction. -/
inductive TimeFault where
  | dcheck
  | outOfRange
  | intOverflow
  | divideByZero
  deriving DecidableEq, Repr

structure TimeSyncor where
  firstDeltaFlag : Bool
  deltas : List ℤ

namespace TimeSyncor

def new : TimeSyncor := ⟨false, []⟩

/-- Half of the round trip, where the clock may wrap. -/
def halfRoundTrip (sentTime currentTime : UInt32) : ℤ := ((currentTime - sentTime) / 2).toNat

/-- `OnRecvTimeSample`. -/
def onRecvTimeSample (t : TimeSyncor) (sentTime currentTime : UInt32) : TimeSyncor × ℕ :=
  let delta := halfRoundTrip sentTime currentTime
  if ¬ t.firstDeltaFlag then ({ t with firstDeltaFlag := true }, 0)
  else
    let deltas := t.deltas ++ [delta]
    ({ t with deltas }, deltas.length)

/-- The sum of two `int`. -/
def addInt (a b : ℤ) : Except TimeFault ℤ :=
  if -2 ^ 31 ≤ a + b ∧ a + b < 2 ^ 31 then .ok (a + b) else .error .intOverflow

/-- What the loop does with the sum, the count and the next delta. -/
def accumulate (median : ℤ) (acc : ℤ × ℤ) (delta : ℤ) : Except TimeFault (ℤ × ℤ) :=
  -- `delta < 1.5 * median`
  if 2 * delta < 3 * median then do
    let sum ← addInt acc.1 delta
    let count ← addInt acc.2 1
    return (sum, count)
  else return acc

/-- `GetCorrectedDelta`, which leaves the deltas in order. -/
def getCorrectedDelta (t : TimeSyncor) : Except TimeFault (TimeSyncor × UInt32) := do
  if ¬ t.deltas.length > 2 then .error .dcheck
  else
    let deltas := t.deltas.insertionSort (· ≤ ·)
    match deltas[deltas.length / 2]? with
    | none => .error .outOfRange
    | some median => do
      let (sum, count) ← deltas.foldlM (accumulate median) (0, 0)
      if count = 0 then .error .divideByZero
      else return ({ t with deltas }, UInt32.ofInt (sum.tdiv count))

/-- After the samples. -/
def receive (samples : List (UInt32 × UInt32)) : TimeSyncor :=
  samples.foldl (fun t s => (t.onRecvTimeSample s.1 s.2).1) new

def recorded (samples : List (UInt32 × UInt32)) : List ℤ := (receive samples).deltas

/-- The correction after the samples. -/
def corrected (samples : List (UInt32 × UInt32)) : Except TimeFault UInt32 :=
  Prod.snd <$> (receive samples).getCorrectedDelta

/-- The deltas that are below one and a half times the median. -/
def averaged (median : ℤ) (deltas : List ℤ) : List ℤ := deltas.filter fun delta => 2 * delta < 3 * median

/-! ### What is recorded -/

variable {samples : List (UInt32 × UInt32)} {sentTime currentTime : UInt32} {m : ℤ} {ds : List ℤ}

lemma halfRoundTrip_nonneg : 0 ≤ halfRoundTrip sentTime currentTime := Int.natCast_nonneg _

/-- A clock that is ahead makes no difference. -/
lemma halfRoundTrip_add (c : UInt32) :
    halfRoundTrip (sentTime + c) (currentTime + c) = halfRoundTrip sentTime currentTime := by
  rw [halfRoundTrip, halfRoundTrip, add_sub_add_right_eq_sub]

lemma foldl_onRecvTimeSample (t : TimeSyncor) (ht : t.firstDeltaFlag = true) :
    (samples.foldl (fun t s => (t.onRecvTimeSample s.1 s.2).1) t).deltas =
      t.deltas ++ samples.map fun s => halfRoundTrip s.1 s.2 := by
  induction samples generalizing t with
  | nil => simp
  | cons s samples ih =>
    rw [List.foldl_cons, ih _ (by simp [onRecvTimeSample, ht])]
    simp [onRecvTimeSample, ht]

lemma recorded_eq : recorded samples = samples.tail.map fun s => halfRoundTrip s.1 s.2 := by
  cases samples with
  | nil => rfl
  | cons s samples =>
    rw [recorded, receive, List.foldl_cons, foldl_onRecvTimeSample _ (by simp [onRecvTimeSample, new])]
    simp [onRecvTimeSample, new]

lemma recorded_nonneg : ∀ d ∈ recorded samples, 0 ≤ d := by
  rw [recorded_eq]
  intro d hd
  obtain ⟨s, -, rfl⟩ := List.mem_map.1 hd
  exact halfRoundTrip_nonneg

lemma recorded_add (c : UInt32) : recorded (samples.map fun s => (s.1 + c, s.2 + c)) = recorded samples := by
  simp [recorded_eq, ← List.map_tail, halfRoundTrip_add, Function.comp_def]

/-! ### What is corrected -/

lemma averaged_perm {ds' : List ℤ} (h : ds.Perm ds') : (averaged m ds).Perm (averaged m ds') := h.filter _

/-- **The loop** has the sum and the number of what is below the bound, if both fit. -/
lemma foldlM_accumulate {sum count : ℤ} (hds : ∀ d ∈ ds, 0 ≤ d) (hsum : 0 ≤ sum ∧ sum < 2 ^ 31)
    (hcount : 0 ≤ count ∧ count < 2 ^ 31) : ds.foldlM (accumulate m) (sum, count) =
      if sum + (averaged m ds).sum < 2 ^ 31 ∧ count + (averaged m ds).length < 2 ^ 31 then
        .ok (sum + (averaged m ds).sum, count + (averaged m ds).length)
      else .error .intOverflow := by
  induction ds generalizing sum count with
  | nil =>
    have hfits : sum + (averaged m []).sum < 2 ^ 31 ∧ count + (averaged m []).length < 2 ^ 31 := by
      simpa [averaged] using And.intro hsum.2 hcount.2
    rw [if_pos hfits]
    simp [averaged, pure, Except.pure]
  | cons d ds ih =>
    obtain ⟨hd, hds⟩ := List.forall_mem_cons.1 hds
    have hrest : 0 ≤ (averaged m ds).sum := List.sum_nonneg fun d hd => hds d (List.mem_of_mem_filter hd)
    rw [List.foldlM_cons, accumulate]
    by_cases hbelow : 2 * d < 3 * m
    · have hcons : averaged m (d :: ds) = d :: averaged m ds := List.filter_cons_of_pos (by simpa using hbelow)
      rw [if_pos hbelow, hcons, List.sum_cons, List.length_cons, Nat.cast_succ]
      by_cases hfits : sum + d < 2 ^ 31 ∧ count + 1 < 2 ^ 31
      · have haddSum : addInt sum d = .ok (sum + d) := if_pos ⟨by omega, hfits.1⟩
        have haddCount : addInt count 1 = .ok (count + 1) := if_pos ⟨by omega, hfits.2⟩
        have hih := ih hds ⟨by omega, hfits.1⟩ ⟨by omega, hfits.2⟩
        simp only [haddSum, haddCount, ok_bind, pure, Except.pure]
        rw [hih, add_assoc, add_assoc, add_comm 1]
      · rw [if_neg (by omega)]
        by_cases hfitsSum : sum + d < 2 ^ 31
        · have haddSum : addInt sum d = .ok (sum + d) := if_pos ⟨by omega, hfitsSum⟩
          have haddCount : addInt count 1 = .error .intOverflow := if_neg (by omega)
          simp only [haddSum, haddCount, ok_bind, error_bind]
        · have haddSum : addInt sum d = .error .intOverflow := if_neg (by omega)
          simp only [haddSum, error_bind]
    · have hcons : averaged m (d :: ds) = averaged m ds := List.filter_cons_of_neg (by simpa using hbelow)
      rw [if_neg hbelow, hcons]
      exact ih hds hsum hcount

/-- **The correction**, for the upper median `m` of the deltas. -/
lemma getCorrectedDelta_eq {t : TimeSyncor} (hlength : 2 < t.deltas.length) (hds : ∀ d ∈ t.deltas, 0 ≤ d)
    (hm : IsUpperMedian t.deltas m) : Prod.snd <$> t.getCorrectedDelta =
      if (averaged m t.deltas).sum < 2 ^ 31 ∧ (averaged m t.deltas).length < 2 ^ 31 then
        if averaged m t.deltas = [] then .error .divideByZero else .ok (UInt32.ofInt (mean (averaged m t.deltas)))
      else .error .intOverflow := by
  have hne : t.deltas ≠ [] := by
    rintro h
    simp [h] at hlength
  obtain ⟨m', hget, hm'⟩ := exists_isUpperMedian hne
  obtain rfl := hm.unique hm'
  set ds := t.deltas.insertionSort (· ≤ ·) with hsorted
  have hperm : ds.Perm t.deltas := List.perm_insertionSort (· ≤ ·) t.deltas
  have hzero : (0 : ℤ) ≤ 0 ∧ (0 : ℤ) < 2 ^ 31 := by decide
  have hloop := foldlM_accumulate (m := m) (fun d hd => hds d (hperm.mem_iff.1 hd)) hzero hzero
  rw [zero_add, zero_add, (averaged_perm hperm).sum_eq, (averaged_perm hperm).length_eq] at hloop
  have hcast : ((averaged m t.deltas).length : ℤ) < 2 ^ 31 ↔ (averaged m t.deltas).length < 2 ^ 31 := by omega
  simp only [hcast] at hloop
  rw [getCorrectedDelta, if_neg (not_not.2 hlength)]
  simp only [← hsorted, hperm.length_eq, hget, hloop]
  by_cases hfits : (averaged m t.deltas).sum < 2 ^ 31 ∧ (averaged m t.deltas).length < 2 ^ 31
  · rw [if_pos hfits, if_pos hfits]
    by_cases hnone : averaged m t.deltas = []
    · simp [hnone]
    · simp [hnone, mean, pure, Except.pure]
  · rw [if_neg hfits, if_neg hfits]
    rfl

end TimeSyncor

end Zutils
