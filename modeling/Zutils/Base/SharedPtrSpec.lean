import Zutils.Base.SharedPtr
import Mathlib.Tactic.Common

/-!
# Shared pointers delete what they share, once

Any interleaving of the steps of any threads.

`refcount_` is the number of `shared_ptr`s. `weak_count_` is the number of `weak_ptr`s and one more, which the
`shared_ptr`s own together and which the one that goes last gives up after it has deleted the object (`owners`). So
there is never more than one thread that deletes the object, and whoever takes `weak_count_` to 0 is the only one that
deletes the control block (`Counted`). An object that was deleted is not locked again, since `lock()` replaces no 0.
-/

namespace Zutils

open Zutils.Lib

namespace SharedObject

variable {s s' : SharedObject} {c : PtrCall}

/-- The one that the `shared_ptr`s own of `weak_count_`, until it is given up. -/
def owners (s : SharedObject) : ℕ :=
  (if 0 < s.shared then 1 else 0) + s.calls.count .deleteObject + s.calls.count .dropWeakThis +
    s.calls.count .dropWeakCount

/-- `weak_this_`, until it is destroyed. -/
def thisWeak (s : SharedObject) : ℕ :=
  if s.hasWeakThis then (if 0 < s.shared then 1 else 0) + s.calls.count .deleteObject + s.calls.count .dropWeakThis
  else 0

/-- The counters count, but for something that is still to be taken from `weak_count_`, and what has been deleted is not
used. -/
structure CountedBut (rest : ℕ) (s : SharedObject) : Prop where
  refcount : s.refcount = s.shared
  weakCount : s.weakCount = (s.weak + s.owners + s.thisWeak + rest : ℕ)
  shared_lt : s.shared < 2 ^ 31
  weak_lt : s.weak + 3 < 2 ^ 31
  object : s.objectDeletes + (if 0 < s.shared then 1 else 0) + s.calls.count .deleteObject = 1
  owners_le : s.owners ≤ 1
  block : s.blockDeletes + s.calls.count (.deleteControlBlock false) = if s.weakCount = 0 then 1 else 0
  this : s.hasWeakThis = false → s.calls.count .dropWeakThis = 0
  blockThis : s.calls.count (.deleteControlBlock true) = 0
  lockWeak : ∀ c ∈ s.calls, c.isLock false = true → 0 < s.weak
  lockThis : ∀ c ∈ s.calls, c.isLock true = true → 0 < s.shared
  lock_ne : ∀ t old, .lock t (some old) ∈ s.calls → old ≠ 0
  fault : s.fault = false

/-- The counters count. -/
abbrev Counted (s : SharedObject) : Prop := s.CountedBut 0

lemma wrap_eq {n : ℤ} (h : -2 ^ 31 ≤ n) (h' : n < 2 ^ 31) : n.bmod (2 ^ 32) = n := by
  refine Int.bmod_eq_of_le ?_ ?_ <;> omega

lemma counted_new (hasWeakThis : Bool) : (new hasWeakThis).Counted := by
  cases hasWeakThis <;> constructor <;> simp [new, owners, thisWeak]

lemma Counted.touch_eq (h : s.Counted) (hpos : 0 < s.weak + s.owners) : s.touch = s := by
  have hblock := h.block
  have hweak := h.weakCount
  rw [if_neg (by omega)] at hblock
  have hzero : s.blockDeletes = 0 := by omega
  have hfault : (s.fault || decide (0 < s.blockDeletes)) = s.fault := by simp [hzero]
  rw [touch, hfault]

lemma owners_pos (h : 0 < s.shared) : 0 < s.owners := by
  unfold owners
  rw [if_pos h]
  omega

lemma Counted.incRefcount (h : s.Counted) (hpos : 0 < s.shared) (hlt : s.shared + 1 < 2 ^ 31) :
    s.incRefcount.Counted := by
  have hrefcount := h.refcount
  unfold SharedObject.incRefcount
  rw [h.touch_eq (Nat.lt_of_lt_of_le (owners_pos hpos) (Nat.le_add_left _ _)), wrap_eq (by omega) (by omega)]
  refine ⟨?_, ?_, hlt, h.weak_lt, ?_, ?_, h.block, h.this, h.blockThis, h.lockWeak, ?_, h.lock_ne, h.fault⟩
  · show s.refcount + 1 = ((s.shared + 1 : ℕ) : ℤ)
    omega
  · simpa [owners, thisWeak, hpos] using h.weakCount
  · simpa [hpos] using h.object
  · simpa [owners, hpos] using h.owners_le
  · exact fun _ _ _ => Nat.succ_pos _

lemma Counted.incWeakCount (h : s.Counted) (hpos : 0 < s.weak + s.owners) (hlt : s.weak + 4 < 2 ^ 31) :
    s.incWeakCount.Counted := by
  have hweak := h.weakCount
  have howners := h.owners_le
  have hthis : s.thisWeak ≤ s.owners := by
    unfold thisWeak owners
    split <;> omega
  have hblock := h.block
  unfold SharedObject.incWeakCount
  rw [h.touch_eq hpos, wrap_eq (by omega) (by omega)]
  rw [if_neg (by omega)] at hblock
  refine ⟨h.refcount, ?_, h.shared_lt, hlt, h.object, h.owners_le, ?_, h.this, h.blockThis, ?_, h.lockThis, h.lock_ne,
    h.fault⟩
  · show s.weakCount + 1 = ((s.weak + 1 + s.owners + s.thisWeak : ℕ) : ℤ)
    omega
  · show s.blockDeletes + s.calls.count (.deleteControlBlock false) = if s.weakCount + 1 = 0 then 1 else 0
    rw [if_neg (by omega), hblock]
  · exact fun _ _ _ => Nat.succ_pos _

lemma Counted.endLock (h : s.Counted) (t : Bool) (old : Option ℤ) :
    Counted { s with calls := s.calls.erase (.lock t old) } := by
  have hcount : ∀ x : PtrCall, x.isLock false = false → x.isLock true = false →
      (s.calls.erase (.lock t old)).count x = s.calls.count x := by
    intro x hf ht
    refine List.count_erase_of_ne ?_
    rintro rfl
    cases t <;> simp [PtrCall.isLock] at hf ht
  have hmem : ∀ x, x ∈ s.calls.erase (.lock t old) → x ∈ s.calls := fun x hx => List.mem_of_mem_erase hx
  refine ⟨h.refcount, ?_, h.shared_lt, h.weak_lt, ?_, ?_, ?_, ?_, ?_, fun c hc => h.lockWeak c (hmem c hc),
    fun c hc => h.lockThis c (hmem c hc), fun t old hc => h.lock_ne t old (hmem _ hc), h.fault⟩
  · simpa [owners, thisWeak, hcount, PtrCall.isLock] using h.weakCount
  · simpa [hcount, PtrCall.isLock] using h.object
  · simpa [owners, hcount, PtrCall.isLock] using h.owners_le
  · simpa [hcount, PtrCall.isLock] using h.block
  · simpa [hcount, PtrCall.isLock] using h.this
  · simpa [hcount, PtrCall.isLock] using h.blockThis

lemma Counted.addLock (h : s.Counted) (t : Bool) (old : Option ℤ) (hpos : if t then 0 < s.shared else 0 < s.weak)
    (hne : old ≠ some 0) : Counted { s with calls := .lock t old :: s.calls } := by
  refine ⟨h.refcount, ?_, h.shared_lt, h.weak_lt, ?_, ?_, ?_, ?_, ?_, ?_, ?_, ?_, h.fault⟩
  · simpa [owners, thisWeak] using h.weakCount
  · simpa using h.object
  · simpa [owners] using h.owners_le
  · simpa using h.block
  · simpa using h.this
  · simpa using h.blockThis
  · intro c hc hlock
    rcases List.mem_cons.1 hc with rfl | hc
    · cases t with
      | false => exact hpos
      | true => cases hlock
    · exact h.lockWeak c hc hlock
  · intro c hc hlock
    rcases List.mem_cons.1 hc with rfl | hc
    · cases t with
      | false => cases hlock
      | true => exact hpos
    · exact h.lockThis c hc hlock
  · intro t' old' hc
    rcases List.mem_cons.1 hc with heq | hc
    · obtain ⟨-, rfl⟩ := PtrCall.lock.inj heq
      exact fun h0 => hne (h0 ▸ rfl)
    · exact h.lock_ne t' old' hc

/-- **A step of `lock()`**, once it is not among the calls. -/
lemma Counted.advanceLock (h : s.Counted) {t : Bool} {old : Option ℤ} (hpos : if t then 0 < s.shared else 0 < s.weak)
    (hold : ∀ n, old = some n → n ≠ 0) (hlt : s.shared + 1 < 2 ^ 31) : (s.advance (.lock t old)).Counted := by
  have hused : 0 < s.weak + s.owners := by
    cases t with
    | false => exact Nat.lt_of_lt_of_le hpos (Nat.le_add_right _ _)
    | true => exact Nat.lt_of_lt_of_le (owners_pos hpos) (Nat.le_add_left _ _)
  have htouch := h.touch_eq hused
  cases old with
  | none =>
    by_cases hzero : s.refcount = 0
    · rw [advance, if_pos hzero, htouch]
      exact h
    · rw [advance, if_neg hzero, htouch]
      exact h.addLock t _ hpos fun h0 => hzero (Option.some.inj h0)
  | some old =>
    by_cases heq : s.refcount = old
    · -- what was read is not 0, so that there is a `shared_ptr`
      have hne := hold old rfl
      have hrefcount := h.refcount
      rw [advance, if_pos heq]
      exact h.incRefcount (by omega) hlt
    · rw [advance, if_neg heq, htouch]
      exact h.addLock t _ hpos (by simp)

/-! ### Counting down -/

/-- `~shared_ptr` up to its first step: the last one goes on to delete the object. -/
lemma Counted.dropShared (h : s.Counted) (hpos : 0 < s.shared)
    (hlock : s.shared = 1 → ∀ c ∈ s.calls, c.isLock true = false) : s.dropShared.Counted := by
  have hrefcount := h.refcount
  have hlt := h.shared_lt
  have howners := h.owners_le
  have hobject := h.object
  have hweak := h.weakCount
  unfold owners at howners
  unfold owners thisWeak at hweak
  rw [if_pos hpos] at howners hobject hweak
  unfold SharedObject.dropShared
  rw [h.touch_eq (Nat.lt_of_lt_of_le (owners_pos hpos) (Nat.le_add_left _ _)), wrap_eq (by omega) (by omega)]
  have hlocks : ∀ c ∈ s.calls, c.isLock true = true → 0 < s.shared - 1 := by
    intro c hc hthis
    by_contra hlast
    have hfalse := hlock (by omega) c hc
    rw [hthis] at hfalse
    cases hfalse
  by_cases hlast : s.shared = 1
  · dsimp only
    rw [if_pos (by omega)]
    refine ⟨?_, ?_, by show s.shared - 1 < _; omega, h.weak_lt, ?_, ?_, ?_, ?_, ?_, ?_, ?_, ?_, h.fault⟩
    · show s.refcount - 1 = ((s.shared - 1 : ℕ) : ℤ)
      omega
    · cases hthis : s.hasWeakThis <;> simp [owners, thisWeak, hlast, hthis] at hweak ⊢ <;> omega
    · simp [hlast]
      omega
    · simp [owners, hlast]
      omega
    · simpa using h.block
    · simpa using h.this
    · simpa using h.blockThis
    · intro c hc hl
      rcases List.mem_cons.1 hc with rfl | hc
      · cases hl
      · exact h.lockWeak c hc hl
    · intro c hc hl
      rcases List.mem_cons.1 hc with rfl | hc
      · cases hl
      · exact hlocks c hc hl
    · intro t old hc
      rcases List.mem_cons.1 hc with heq | hc
      · cases heq
      · exact h.lock_ne t old hc
  · dsimp only
    have hmore : 0 < s.shared - 1 := by omega
    rw [if_neg (by omega)]
    refine ⟨?_, ?_, by show s.shared - 1 < _; omega, h.weak_lt, ?_, ?_, h.block, h.this, h.blockThis, h.lockWeak, hlocks,
      h.lock_ne, h.fault⟩
    · show s.refcount - 1 = ((s.shared - 1 : ℕ) : ℤ)
      omega
    · simp only [owners, thisWeak, if_pos hmore]
      exact hweak
    · simp only [if_pos hmore]
      exact hobject
    · simp only [owners, if_pos hmore]
      exact howners

lemma decWeakCount_eq (hblock : s.blockDeletes = 0) (hpos : 0 < s.weakCount) (hlt : s.weakCount < 2 ^ 31)
    (next : List PtrCall) (ofThis : Bool) : s.decWeakCount next ofThis =
      { s with
        weakCount := s.weakCount - 1
        calls := if s.weakCount = 1 then .deleteControlBlock ofThis :: s.calls else next ++ s.calls } := by
  have htouch : s.touch = s := by
    have hfault : (s.fault || decide (0 < s.blockDeletes)) = s.fault := by simp [hblock]
    rw [touch, hfault]
  have hiff : s.weakCount - 1 = 0 ↔ s.weakCount = 1 := by omega
  unfold decWeakCount
  dsimp only
  rw [htouch, wrap_eq (by omega) (by omega), if_congr hiff rfl rfl]

lemma Counted.block_zero (h : s.Counted) (hpos : 0 < s.weak + s.owners) :
    s.blockDeletes = 0 ∧ s.calls.count (.deleteControlBlock false) = 0 ∧ 0 < s.weakCount ∧ s.weakCount < 2 ^ 31 := by
  have hblock := h.block
  have hweak := h.weakCount
  have howners := h.owners_le
  have hlt := h.weak_lt
  have hthis : s.thisWeak ≤ s.owners := by
    unfold thisWeak owners
    split <;> omega
  rw [if_neg (by omega)] at hblock
  omega

/-- **Something is taken from `weak_count_`**; whoever takes the last goes on to delete the control block. -/
lemma CountedBut.decWeakCount (h : s.CountedBut 1) : (s.decWeakCount [] false).Counted := by
  have hweak := h.weakCount
  have hblock := h.block
  have howners := h.owners_le
  have hlt := h.weak_lt
  have hthis : s.thisWeak ≤ s.owners := by
    unfold thisWeak owners
    split <;> omega
  rw [if_neg (by omega)] at hblock
  rw [decWeakCount_eq (by omega) (by omega) (by omega)]
  by_cases hone : s.weakCount = 1
  · rw [if_pos hone]
    refine ⟨h.refcount, ?_, h.shared_lt, hlt, ?_, ?_, ?_, ?_, ?_, ?_, ?_, ?_, h.fault⟩
    · show s.weakCount - 1 = ((s.weak + s.owners + s.thisWeak + 0 : ℕ) : ℤ)
      omega
    · simpa using h.object
    · simpa [owners] using howners
    · simp [hone]
      omega
    · simpa using h.this
    · simpa using h.blockThis
    · intro c hc hl
      rcases List.mem_cons.1 hc with rfl | hc
      · cases hl
      · exact h.lockWeak c hc hl
    · intro c hc hl
      rcases List.mem_cons.1 hc with rfl | hc
      · cases hl
      · exact h.lockThis c hc hl
    · intro t old hc
      rcases List.mem_cons.1 hc with heq | hc
      · cases heq
      · exact h.lock_ne t old hc
  · rw [if_neg hone]
    refine ⟨h.refcount, ?_, h.shared_lt, hlt, h.object, howners, ?_, h.this, h.blockThis, h.lockWeak, h.lockThis,
      h.lock_ne, h.fault⟩
    · show s.weakCount - 1 = ((s.weak + s.owners + s.thisWeak + 0 : ℕ) : ℤ)
      omega
    · show s.blockDeletes + _ = if s.weakCount - 1 = 0 then 1 else 0
      rw [if_neg (by omega), List.nil_append, hblock]

lemma Counted.dropWeak (h : s.Counted) (hpos : 0 < s.weak)
    (hlock : s.weak = 1 → ∀ c ∈ s.calls, c.isLock false = false) : CountedBut 1 { s with weak := s.weak - 1 } := by
  have hweak := h.weakCount
  have hlt := h.weak_lt
  refine ⟨h.refcount, ?_, h.shared_lt, by show s.weak - 1 + 3 < _; omega, h.object, h.owners_le, h.block, h.this,
    h.blockThis, ?_, h.lockThis, h.lock_ne, h.fault⟩
  · simp only [owners, thisWeak] at hweak ⊢
    omega
  · intro c hc hl
    by_contra hlast
    have hlast' : ¬ 0 < s.weak - 1 := hlast
    have hfalse := hlock (by omega) c hc
    rw [hl] at hfalse
    cases hfalse

/-- `~shared_ptr` gives up what the `shared_ptr`s own of `weak_count_`. -/
lemma Counted.dropWeakCount (h : s.Counted) (hmem : .dropWeakCount ∈ s.calls) :
    CountedBut 1 { s with calls := s.calls.erase .dropWeakCount } := by
  have hweak := h.weakCount
  have howners := h.owners_le
  have hcount := List.count_pos_iff.2 hmem
  refine ⟨h.refcount, ?_, h.shared_lt, h.weak_lt, ?_, ?_, ?_, ?_, ?_, ?_, ?_, ?_, h.fault⟩
  · simp [owners, thisWeak] at hweak ⊢
    omega
  · simpa [List.count_erase] using h.object
  · simp [owners] at howners ⊢
    omega
  · simpa [List.count_erase] using h.block
  · simpa [List.count_erase] using h.this
  · simpa [List.count_erase] using h.blockThis
  · exact fun c hc => h.lockWeak c (List.mem_of_mem_erase hc)
  · exact fun c hc => h.lockThis c (List.mem_of_mem_erase hc)
  · exact fun t old hc => h.lock_ne t old (List.mem_of_mem_erase hc)

/-- `weak_this_` is destroyed while the `shared_ptr`s still own something of `weak_count_`, so that there is more. -/
lemma Counted.dropWeakThis (h : s.Counted) (hmem : .dropWeakThis ∈ s.calls) :
    ({ s with calls := s.calls.erase .dropWeakThis }.decWeakCount [.dropWeakCount] true).Counted := by
  have hweak := h.weakCount
  have howners := h.owners_le
  have hobject := h.object
  have hlt := h.weak_lt
  have hcount := List.count_pos_iff.2 hmem
  have hthis : s.hasWeakThis = true := by
    by_contra hno
    have hzero := h.this (eq_false_of_ne_true hno)
    omega
  have hused : 0 < s.owners := by
    unfold owners
    omega
  obtain ⟨hblock, hnone, hwpos, hwlt⟩ := h.block_zero (Nat.lt_of_lt_of_le hused (Nat.le_add_left _ _))
  unfold owners at howners
  simp only [owners, thisWeak, hthis, if_true] at hweak
  rw [decWeakCount_eq (by exact hblock) (by exact hwpos) (by exact hwlt)]
  dsimp only
  rw [if_neg (by omega)]
  have hdelete : ([PtrCall.dropWeakCount] ++ s.calls.erase .dropWeakThis).count PtrCall.deleteObject =
      s.calls.count .deleteObject := by simp
  have hdropThis : ([PtrCall.dropWeakCount] ++ s.calls.erase .dropWeakThis).count PtrCall.dropWeakThis =
      s.calls.count .dropWeakThis - 1 := by simp
  have hdrop : ([PtrCall.dropWeakCount] ++ s.calls.erase .dropWeakThis).count PtrCall.dropWeakCount =
      s.calls.count .dropWeakCount + 1 := by simp
  refine ⟨h.refcount, ?_, h.shared_lt, hlt, ?_, ?_, ?_, ?_, ?_, ?_, ?_, ?_, h.fault⟩
  · simp only [owners, thisWeak, hthis, if_true, hdelete, hdropThis, hdrop]
    omega
  · simpa using hobject
  · simp only [owners, hdelete, hdropThis, hdrop]
    omega
  · simp [hblock, hnone]
    omega
  · exact fun hno => by simp [hthis] at hno
  · simpa using h.blockThis
  · intro c hc hl
    rcases List.mem_cons.1 hc with rfl | hc
    · cases hl
    · exact h.lockWeak c (List.mem_of_mem_erase hc) hl
  · intro c hc hl
    rcases List.mem_cons.1 hc with rfl | hc
    · cases hl
    · exact h.lockThis c (List.mem_of_mem_erase hc) hl
  · intro t old hc
    rcases List.mem_cons.1 hc with heq | hc
    · cases heq
    · exact h.lock_ne t old (List.mem_of_mem_erase hc)

/-- The object is deleted by one thread, after the last `shared_ptr` has gone. -/
lemma Counted.deleteObject (h : s.Counted) (hmem : .deleteObject ∈ s.calls) :
    ({ s with calls := s.calls.erase .deleteObject }.advance .deleteObject).Counted := by
  have hweak := h.weakCount
  have howners := h.owners_le
  have hobject := h.object
  have hcount := List.count_pos_iff.2 hmem
  unfold owners at howners
  simp only [owners, thisWeak] at hweak
  have hshared : s.shared = 0 := by
    by_contra hpos
    rw [if_pos (Nat.pos_of_ne_zero hpos)] at hobject
    omega
  have hdeletes : s.objectDeletes = 0 := by omega
  unfold advance
  dsimp only
  refine ⟨h.refcount, ?_, h.shared_lt, h.weak_lt, ?_, ?_, ?_, ?_, ?_, ?_, ?_, ?_, ?_⟩
  · cases hthis : s.hasWeakThis <;> simp [owners, thisWeak, hthis, hshared] at hweak ⊢ <;> omega
  · cases hthis : s.hasWeakThis <;> simp [hshared, hdeletes] at hobject ⊢ <;> omega
  · cases hthis : s.hasWeakThis <;> simp [owners, hshared] at howners ⊢ <;> omega
  · cases hthis : s.hasWeakThis <;> simpa using h.block
  · intro hthis
    have hzero := h.this hthis
    have hthis' : s.hasWeakThis = false := hthis
    simp [hthis', hzero]
  · cases hthis : s.hasWeakThis <;> simpa using h.blockThis
  · intro c hc hl
    rcases List.mem_cons.1 hc with rfl | hc
    · cases hthis : s.hasWeakThis <;> simp [hthis, PtrCall.isLock] at hl
    · exact h.lockWeak c (List.mem_of_mem_erase hc) hl
  · intro c hc hl
    rcases List.mem_cons.1 hc with rfl | hc
    · cases hthis : s.hasWeakThis <;> simp [hthis, PtrCall.isLock] at hl
    · exact h.lockThis c (List.mem_of_mem_erase hc) hl
  · intro t old hc
    rcases List.mem_cons.1 hc with heq | hc
    · cases hthis : s.hasWeakThis <;> simp [hthis] at heq
    · exact h.lock_ne t old (List.mem_of_mem_erase hc)
  · simp [hdeletes, h.fault]

/-- The control block is deleted by one thread, after the last pointer has gone. -/
lemma Counted.deleteControlBlock (h : s.Counted) {ofThis : Bool} (hmem : .deleteControlBlock ofThis ∈ s.calls) :
    ({ s with calls := s.calls.erase (.deleteControlBlock ofThis) }.advance (.deleteControlBlock ofThis)).Counted := by
  have hblock := h.block
  have hcount := List.count_pos_iff.2 hmem
  cases ofThis with
  | true =>
    rw [h.blockThis] at hcount
    cases hcount
  | false =>
    have hdeletes : s.blockDeletes = 0 := by
      split at hblock <;> omega
    unfold advance
    dsimp only
    rw [if_neg Bool.false_ne_true]
    refine ⟨h.refcount, ?_, h.shared_lt, h.weak_lt, ?_, ?_, ?_, ?_, ?_, ?_, ?_, ?_, ?_⟩
    · simpa [owners, thisWeak] using h.weakCount
    · simpa using h.object
    · simpa [owners] using h.owners_le
    · simp
      omega
    · simpa using h.this
    · simpa using h.blockThis
    · exact fun c hc => h.lockWeak c (List.mem_of_mem_erase hc)
    · exact fun c hc => h.lockThis c (List.mem_of_mem_erase hc)
    · exact fun t old hc => h.lock_ne t old (List.mem_of_mem_erase hc)
    · simp [hdeletes, h.fault]

/-- **Every step** keeps the counts. -/
theorem Counted.exec (h : s.Counted) {e : PtrEvent} (he : e.exec s = some s') : s'.Counted := by
  cases e with
  | copyShared =>
    obtain ⟨⟨hpos, hlt⟩, he⟩ := Option.ite_none_right_eq_some.1 he
    obtain rfl := Option.some.inj he
    exact h.incRefcount hpos hlt
  | dropShared =>
    obtain ⟨⟨hpos, hlock⟩, he⟩ := Option.ite_none_right_eq_some.1 he
    obtain rfl := Option.some.inj he
    exact h.dropShared hpos hlock
  | weakOfShared =>
    obtain ⟨⟨hpos, hlt⟩, he⟩ := Option.ite_none_right_eq_some.1 he
    obtain rfl := Option.some.inj he
    exact h.incWeakCount (Nat.lt_of_lt_of_le (owners_pos hpos) (Nat.le_add_left _ _)) hlt
  | copyWeak =>
    obtain ⟨⟨hpos, hlt⟩, he⟩ := Option.ite_none_right_eq_some.1 he
    obtain rfl := Option.some.inj he
    exact h.incWeakCount (Nat.lt_of_lt_of_le hpos (Nat.le_add_right _ _)) hlt
  | dropWeak =>
    obtain ⟨⟨hpos, hlock⟩, he⟩ := Option.ite_none_right_eq_some.1 he
    obtain rfl := Option.some.inj he
    exact (h.dropWeak hpos hlock).decWeakCount
  | beginLock ofThis =>
    cases ofThis with
    | false =>
      obtain ⟨hpos, he⟩ := Option.ite_none_right_eq_some.1 he
      obtain rfl := Option.some.inj he
      exact h.addLock false none hpos (by simp)
    | true =>
      obtain ⟨⟨hpos, -⟩, he⟩ := Option.ite_none_right_eq_some.1 he
      obtain rfl := Option.some.inj he
      have hrefcount := h.refcount
      have hcheck : (s.fault || decide (s.refcount = 0)) = s.fault := by
        simp
        omega
      have hbegin : s.beginLock true = { s with calls := .lock true none :: s.calls } := by
        unfold beginLock
        rw [if_pos rfl, h.touch_eq (Nat.lt_of_lt_of_le (owners_pos hpos) (Nat.le_add_left _ _)), hcheck]
      rw [hbegin]
      exact h.addLock true none hpos (by simp)
  | advance call =>
    obtain ⟨⟨hmem, hlt⟩, he⟩ := Option.ite_none_right_eq_some.1 he
    obtain rfl := Option.some.inj he
    cases call with
    | deleteObject => exact h.deleteObject hmem
    | dropWeakThis => exact h.dropWeakThis hmem
    | dropWeakCount => exact (h.dropWeakCount hmem).decWeakCount
    | deleteControlBlock ofThis => exact h.deleteControlBlock hmem
    | lock t old =>
      refine (h.endLock t old).advanceLock ?_ ?_ hlt
      · cases t with
        | false => exact h.lockWeak _ hmem rfl
        | true => exact h.lockThis _ hmem rfl
      · rintro n rfl
        exact h.lock_ne t n hmem

lemma Counted.shared_zero (h : s.Counted) {e : PtrEvent} (he : e.exec s = some s') (hzero : s.shared = 0) :
    s'.shared = 0 := by
  cases e with
  | copyShared | dropShared | weakOfShared =>
    obtain ⟨⟨hpos, -⟩, -⟩ := Option.ite_none_right_eq_some.1 he
    omega
  | copyWeak | dropWeak =>
    obtain ⟨-, he⟩ := Option.ite_none_right_eq_some.1 he
    obtain rfl := Option.some.inj he
    exact hzero
  | beginLock ofThis =>
    cases ofThis with
    | false =>
      obtain ⟨-, he⟩ := Option.ite_none_right_eq_some.1 he
      obtain rfl := Option.some.inj he
      exact hzero
    | true =>
      obtain ⟨⟨hpos, -⟩, -⟩ := Option.ite_none_right_eq_some.1 he
      omega
  | advance call =>
    obtain ⟨⟨hmem, -⟩, he⟩ := Option.ite_none_right_eq_some.1 he
    obtain rfl := Option.some.inj he
    cases call with
    | deleteObject | dropWeakThis | dropWeakCount | deleteControlBlock => exact hzero
    | lock t old =>
      cases old with
      | none =>
        rw [advance]
        split
        · exact hzero
        · exact hzero
      | some n =>
        -- `lock()` has not read 0
        have hne := h.lock_ne t n hmem
        have hrefcount := h.refcount
        have hold : s.refcount ≠ n := by omega
        rw [advance, if_neg hold]
        exact hzero

/-! ### Runs -/

lemma counted_of_run {hasWeakThis : Bool} {es : List PtrEvent} (h : Run TakesStep (new hasWeakThis) es s) :
    s.Counted :=
  h.inv (P := fun _ s => s.Counted) (counted_new hasWeakThis) fun _ _ _ _ hs he => hs.exec he

/-- **Nothing is used after it has been deleted**, in any interleaving of any threads, and nothing is deleted twice: the
object is there while there is a `shared_ptr`, the control block is there while there is a pointer of either kind, and
`refcount_` is the number of the `shared_ptr`s. No `CHECK` of `shared_from_this` fails. -/
theorem no_use_after_delete {hasWeakThis : Bool} {es : List PtrEvent} (h : Run TakesStep (new hasWeakThis) es s) :
    s.fault = false ∧ s.objectDeletes ≤ 1 ∧ s.blockDeletes ≤ 1 ∧ (0 < s.shared → s.objectDeletes = 0) ∧
      (0 < s.shared ∨ 0 < s.weak → s.blockDeletes = 0) ∧ s.refcount = s.shared := by
  have hs := counted_of_run h
  have hobject := hs.object
  have hblock := hs.block
  refine ⟨hs.fault, by omega, ?_, fun hpos => ?_, fun hpos => ?_, hs.refcount⟩
  · split at hblock <;> omega
  · rw [if_pos hpos] at hobject
    omega
  · refine (hs.block_zero ?_).1
    rcases hpos with hpos | hpos
    · exact Nat.lt_of_lt_of_le (owners_pos hpos) (Nat.le_add_left _ _)
    · exact Nat.lt_of_lt_of_le hpos (Nat.le_add_right _ _)

/-- A pointer is locked while the last `shared_ptr` goes: what `lock()` has read is not there any more. -/
theorem no_use_after_delete_run : ∃ s : SharedObject,
    Run TakesStep (new false) [.weakOfShared, .beginLock false, .advance (.lock false none), .dropShared,
      .advance .deleteObject, .advance (.lock false (some 1)), .advance .dropWeakCount, .advance (.lock false none)] s ∧
    s.fault = false := by
  have h : Run TakesStep (new false) [.weakOfShared, .beginLock false, .advance (.lock false none), .dropShared,
      .advance .deleteObject, .advance (.lock false (some 1)), .advance .dropWeakCount, .advance (.lock false none)]
      ⟨0, 1, 0, 1, false, [], 1, 0, false⟩ :=
    Run.of_foldlM (f := fun s e => PtrEvent.exec e s) (fun _ _ _ he => he) (by decide)
  exact ⟨_, h, (no_use_after_delete h).1⟩

/-- **What is shared is deleted**, and for good: once there is no `shared_ptr`, none comes back, whatever threads do with
the `weak_ptr`s; when all calls have returned the object has been deleted, once, and the control block too if there is
no `weak_ptr` either. -/
theorem deleted_for_good {hasWeakThis : Bool} {es es' : List PtrEvent} (h : Run TakesStep (new hasWeakThis) es s)
    (hzero : s.shared = 0) (h' : Run TakesStep s es' s') :
    s'.shared = 0 ∧ (s'.calls = [] → s'.objectDeletes = 1 ∧ (s'.weak = 0 → s'.blockDeletes = 1)) := by
  obtain ⟨hs, hzero'⟩ := h'.inv (P := fun _ s => s.Counted ∧ s.shared = 0) ⟨counted_of_run h, hzero⟩
    fun _ _ _ _ hs he => ⟨hs.1.exec he, hs.1.shared_zero he hs.2⟩
  refine ⟨hzero', fun hcalls => ?_⟩
  have hobject := hs.object
  have hblock := hs.block
  have hweak := hs.weakCount
  simp only [owners, thisWeak, hcalls, hzero', List.count_nil] at hobject hblock hweak
  refine ⟨by simpa using hobject, fun hnone => ?_⟩
  rw [hnone] at hweak
  have hcount : s'.weakCount = 0 := by simpa using hweak
  simpa [hcount] using hblock

theorem deleted_for_good_run : ∃ s s' : SharedObject,
    Run TakesStep (new true) [.weakOfShared, .dropShared] s ∧
    Run TakesStep s [.advance .deleteObject, .advance .dropWeakThis, .advance .dropWeakCount, .dropWeak,
      .advance (.deleteControlBlock false)] s' ∧ s'.objectDeletes = 1 ∧ s'.blockDeletes = 1 := by
  have h : Run TakesStep (new true) [.weakOfShared, .dropShared]
      ⟨0, 3, 0, 1, true, [.deleteObject], 0, 0, false⟩ :=
    Run.of_foldlM (f := fun s e => PtrEvent.exec e s) (fun _ _ _ he => he) (by decide)
  have h' : Run TakesStep ⟨0, 3, 0, 1, true, [.deleteObject], 0, 0, false⟩
      [.advance .deleteObject, .advance .dropWeakThis, .advance .dropWeakCount, .dropWeak,
        .advance (.deleteControlBlock false)]
      ⟨0, 0, 0, 0, true, [], 1, 1, false⟩ :=
    Run.of_foldlM (f := fun s e => PtrEvent.exec e s) (fun _ _ _ he => he) (by decide)
  have hdeleted := (deleted_for_good h rfl h').2 rfl
  exact ⟨_, _, h, h', hdeleted.1, hdeleted.2 rfl⟩

end SharedObject

end Zutils
