import Mathlib.Data.Int.Notation
import Mathlib.Data.Nat.ModEq
import Mathlib.Tactic.Common
import Mathlib.Tactic.Ring

/-!
# Unsigned integers of 128 bits (`base2/int128.h`)

A `uint128` is two words of 64 bits. The operators carry from one word to the other by comparing a sum with one of its
terms, and multiply by halves of words. They are those of the 128-bit numbers (`operators_bitvec`).

A shift of a word by 64 or more, or by a negative amount, is undefined, so that the shifts have cases. Of the four
shifts one has its two assignments in the wrong order: `operator>>=` clears `hi_` before it reads it. It loses the
number for an amount from 64 to 127, and agrees with `operator>>` for these only where that gives zero
(`shifts_bitvec`).
-/

namespace Zutils

/-- `class uint128`. -/
structure Uint128 where
  lo : UInt64
  hi : UInt64
  deriving DecidableEq, Repr

namespace Uint128

/-- `uint128(top, bottom)`. -/
def mk2 (top bottom : UInt64) : Uint128 := ⟨bottom, top⟩

/-- `uint128(uint64)`; `uint128(uint32)` is the same on the widened number. -/
def ofUInt64 (bottom : UInt64) : Uint128 := ⟨bottom, 0⟩

/-- `uint128(int)`. -/
def ofInt (bottom : Int32) : Uint128 :=
  let x : Uint128 := ⟨UInt64.ofInt bottom.toInt, 0⟩
  if bottom < 0 then { x with hi := x.hi - 1 } else x

/-! ### Comparison -/

def eq (lhs rhs : Uint128) : Bool := lhs.lo = rhs.lo && lhs.hi = rhs.hi

def ne (lhs rhs : Uint128) : Bool := !eq lhs rhs

/-- `CMP128(op)`. -/
def cmp128 (op : UInt64 → UInt64 → Bool) (lhs rhs : Uint128) : Bool :=
  if lhs.hi = rhs.hi then op lhs.lo rhs.lo else op lhs.hi rhs.hi

def lt : Uint128 → Uint128 → Bool := cmp128 fun x y => x < y
def gt : Uint128 → Uint128 → Bool := cmp128 fun x y => x > y
def ge : Uint128 → Uint128 → Bool := cmp128 fun x y => x ≥ y
def le : Uint128 → Uint128 → Bool := cmp128 fun x y => x ≤ y

/-! ### Unary and logical operators -/

def neg (val : Uint128) : Uint128 :=
  let hiFlip := ~~~val.hi
  let loFlip := ~~~val.lo
  let loAdd := loFlip + 1
  if loAdd < loFlip then mk2 (hiFlip + 1) loAdd else mk2 hiFlip loAdd

/-- `operator!`. -/
def isZero (val : Uint128) : Bool := val.hi = 0 && val.lo = 0

def not (val : Uint128) : Uint128 := mk2 (~~~val.hi) (~~~val.lo)

/-- `LOGIC128(op)`. -/
def logic128 (op : UInt64 → UInt64 → UInt64) (lhs rhs : Uint128) : Uint128 :=
  mk2 (op lhs.hi rhs.hi) (op lhs.lo rhs.lo)

def or : Uint128 → Uint128 → Uint128 := logic128 fun x y => x ||| y
def and : Uint128 → Uint128 → Uint128 := logic128 fun x y => x &&& y
def xor : Uint128 → Uint128 → Uint128 := logic128 fun x y => x ^^^ y

/-- `LOGICASSIGN128(op)`. -/
def logicAssign128 (op : UInt64 → UInt64 → UInt64) (x other : Uint128) : Uint128 :=
  let x := { x with hi := op x.hi other.hi }
  { x with lo := op x.lo other.lo }

def orAssign : Uint128 → Uint128 → Uint128 := logicAssign128 fun x y => x ||| y
def andAssign : Uint128 → Uint128 → Uint128 := logicAssign128 fun x y => x &&& y
def xorAssign : Uint128 → Uint128 → Uint128 := logicAssign128 fun x y => x ^^^ y

/-! ### Shifts -/

/-- `x << amount` of a word, where it is defined. -/
def shiftLeft64 (x : UInt64) (amount : ℤ) : Option UInt64 :=
  if 0 ≤ amount ∧ amount < 64 then some (x <<< UInt64.ofNat amount.toNat) else none

/-- `x >> amount` of a word, where it is defined. -/
def shiftRight64 (x : UInt64) (amount : ℤ) : Option UInt64 :=
  if 0 ≤ amount ∧ amount < 64 then some (x >>> UInt64.ofNat amount.toNat) else none

/-- `operator<<`. -/
def shiftLeft (val : Uint128) (amount : ℤ) : Option Uint128 := do
  if amount < 64 then
    if amount = 0 then
      return val
    let newHi := (← shiftLeft64 val.hi amount) ||| (← shiftRight64 val.lo (64 - amount))
    let newLo ← shiftLeft64 val.lo amount
    return mk2 newHi newLo
  else if amount < 128 then
    return mk2 (← shiftLeft64 val.lo (amount - 64)) 0
  else
    return mk2 0 0

/-- `operator>>`. -/
def shiftRight (val : Uint128) (amount : ℤ) : Option Uint128 := do
  if amount < 64 then
    if amount = 0 then
      return val
    let newHi ← shiftRight64 val.hi amount
    let newLo := (← shiftRight64 val.lo amount) ||| (← shiftLeft64 val.hi (64 - amount))
    return mk2 newHi newLo
  else if amount < 128 then
    return mk2 0 (← shiftRight64 val.hi (amount - 64))
  else
    return mk2 0 0

/-- `operator<<=`. -/
def shiftLeftAssign (x : Uint128) (amount : ℤ) : Option Uint128 := do
  if amount < 64 then
    if amount ≠ 0 then
      let x := { x with hi := (← shiftLeft64 x.hi amount) ||| (← shiftRight64 x.lo (64 - amount)) }
      return { x with lo := ← shiftLeft64 x.lo amount }
    else
      return x
  else if amount < 128 then
    let x := { x with hi := ← shiftLeft64 x.lo (amount - 64) }
    return { x with lo := 0 }
  else
    let x := { x with hi := 0 }
    return { x with lo := 0 }

/-- `operator>>=`. -/
def shiftRightAssign (x : Uint128) (amount : ℤ) : Option Uint128 := do
  if amount < 64 then
    if amount ≠ 0 then
      let x := { x with lo := (← shiftRight64 x.lo amount) ||| (← shiftLeft64 x.hi (64 - amount)) }
      return { x with hi := ← shiftRight64 x.hi amount }
    else
      return x
  else if amount < 128 then
    -- `hi_` is zero when it is shifted
    let x := { x with hi := 0 }
    return { x with lo := ← shiftRight64 x.hi (amount - 64) }
  else
    let x := { x with hi := 0 }
    return { x with lo := 0 }

/-! ### Arithmetic -/

/-- `operator+=`. -/
def addAssign (x b : Uint128) : Uint128 :=
  let x := { x with hi := x.hi + b.hi }
  let lolo := x.lo + b.lo
  let x := if lolo < x.lo then { x with hi := x.hi + 1 } else x
  { x with lo := lolo }

/-- `operator-=`. -/
def subAssign (x b : Uint128) : Uint128 :=
  let x := { x with hi := x.hi - b.hi }
  let x := if b.lo > x.lo then { x with hi := x.hi - 1 } else x
  { x with lo := x.lo - b.lo }

/-- `operator*=`. The shifts by 32 are defined. -/
def mulAssign (x b : Uint128) : Option Uint128 := do
  let a96 := x.hi >>> 32
  let a64 := x.hi &&& 0xffffffff
  let a32 := x.lo >>> 32
  let a00 := x.lo &&& 0xffffffff
  let b96 := b.hi >>> 32
  let b64 := b.hi &&& 0xffffffff
  let b32 := b.lo >>> 32
  let b00 := b.lo &&& 0xffffffff
  let c96 := a96 * b00 + a64 * b32 + a32 * b64 + a00 * b96
  let c64 := a64 * b00 + a32 * b32 + a00 * b64
  let x : Uint128 := ⟨0, (c96 <<< 32) + c64⟩
  let x := x.addAssign (← shiftLeft (ofUInt64 (a32 * b00)) 32)
  let x := x.addAssign (← shiftLeft (ofUInt64 (a00 * b32)) 32)
  return x.addAssign (ofUInt64 (a00 * b00))

/-- `operator+`. -/
def add (lhs rhs : Uint128) : Uint128 := lhs.addAssign rhs

/-- `operator-`. -/
def sub (lhs rhs : Uint128) : Uint128 := lhs.subAssign rhs

/-- `operator*`. -/
def mul (lhs rhs : Uint128) : Option Uint128 := lhs.mulAssign rhs

/-- `++x`. -/
def inc (x : Uint128) : Uint128 := x.addAssign (ofInt 1)

/-- `--x`. -/
def dec (x : Uint128) : Uint128 := x.subAssign (ofInt 1)

/-- `x++`: the old value, and the new `x`. -/
def postInc (x : Uint128) : Uint128 × Uint128 := (x, x.addAssign (ofInt 1))

/-- `x--`. -/
def postDec (x : Uint128) : Uint128 × Uint128 := (x, x.subAssign (ofInt 1))

/-! ### The number -/

/-- The number of 128 bits. -/
def toBitVec (x : Uint128) : BitVec 128 := x.hi.toBitVec ++ x.lo.toBitVec

section Number

variable {a b : Uint128} {x y : UInt64} {n : ℕ}

lemma toNat_toBitVec (a : Uint128) : a.toBitVec.toNat = a.hi.toNat * 2 ^ 64 + a.lo.toNat := by
  have hlo := a.lo.toNat_lt
  rw [toBitVec, BitVec.toNat_append, UInt64.toNat_toBitVec, UInt64.toNat_toBitVec,
    ← Nat.shiftLeft_add_eq_or_of_lt hlo, Nat.shiftLeft_eq]

lemma getLsbD_toBitVec (a : Uint128) (i : ℕ) : a.toBitVec.getLsbD i =
    if i < 64 then a.lo.toBitVec.getLsbD i else a.hi.toBitVec.getLsbD (i - 64) := by
  rw [toBitVec, BitVec.getLsbD_append]

lemma toBitVec_inj : a.toBitVec = b.toBitVec ↔ a = b := by
  refine ⟨fun h => ?_, fun h => by rw [h]⟩
  have ha := a.lo.toNat_lt
  have hb := b.lo.toNat_lt
  have hnat := congrArg BitVec.toNat h
  rw [toNat_toBitVec, toNat_toBitVec] at hnat
  rcases a with ⟨alo, ahi⟩
  rcases b with ⟨blo, bhi⟩
  rw [mk.injEq, ← UInt64.toNat_inj, ← UInt64.toNat_inj]
  dsimp only at ha hb hnat
  omega

/-! ### Sums, differences, comparisons -/

/-- A sum of words is less than one of them exactly when it carries. -/
lemma toBitVec_addAssign (a b : Uint128) : (a.addAssign b).toBitVec = a.toBitVec + b.toBitVec := by
  have ha := a.lo.toNat_lt
  have hb := b.lo.toNat_lt
  have hcarry : a.lo + b.lo < a.lo ↔ 2 ^ 64 ≤ a.lo.toNat + b.lo.toNat := by
    rw [UInt64.lt_iff_toNat_lt, UInt64.toNat_add]
    omega
  apply BitVec.eq_of_toNat_eq
  rw [BitVec.toNat_add, toNat_toBitVec, toNat_toBitVec, toNat_toBitVec]
  unfold addAssign
  by_cases h : 2 ^ 64 ≤ a.lo.toNat + b.lo.toNat
  · simp only [hcarry, h, if_true, UInt64.toNat_add, UInt64.toNat_one]
    omega
  · simp only [hcarry, h, if_false, UInt64.toNat_add]
    omega

lemma toBitVec_subAssign (a b : Uint128) : (a.subAssign b).toBitVec = a.toBitVec - b.toBitVec := by
  have ha := a.lo.toNat_lt
  have hb := b.lo.toNat_lt
  have hb' := b.hi.toNat_lt
  apply BitVec.eq_of_toNat_eq
  rw [BitVec.toNat_sub, toNat_toBitVec, toNat_toBitVec, toNat_toBitVec]
  unfold subAssign
  by_cases hborrow : b.lo > a.lo
  · have hlt := UInt64.lt_iff_toNat_lt.1 hborrow
    simp only [hborrow, if_true, UInt64.toNat_sub, UInt64.toNat_one]
    omega
  · have hle := UInt64.le_iff_toNat_le.1 (UInt64.not_lt.1 hborrow)
    simp only [hborrow, if_false, UInt64.toNat_sub]
    omega

/-- `lo_flip + 1` wraps exactly for a number whose low word is zero. -/
lemma toBitVec_neg (a : Uint128) : a.neg.toBitVec = -a.toBitVec := by
  have ha := a.lo.toNat_lt
  have ha' := a.hi.toNat_lt
  have hflip : (~~~a.lo).toNat = 2 ^ 64 - 1 - a.lo.toNat := UInt64.toNat_not _
  have hflip' : (~~~a.hi).toNat = 2 ^ 64 - 1 - a.hi.toNat := UInt64.toNat_not _
  have hwrap : ~~~a.lo + 1 < ~~~a.lo ↔ a.lo.toNat = 0 := by
    rw [UInt64.lt_iff_toNat_lt, UInt64.toNat_add, hflip, UInt64.toNat_one]
    omega
  apply BitVec.eq_of_toNat_eq
  rw [BitVec.toNat_neg, toNat_toBitVec, toNat_toBitVec]
  unfold neg
  by_cases h : a.lo.toNat = 0
  · simp only [hwrap, h, if_true, mk2, UInt64.toNat_add, UInt64.toNat_one, hflip, hflip']
    omega
  · simp only [hwrap, h, if_false, mk2, UInt64.toNat_add, UInt64.toNat_one, hflip, hflip']
    omega

/-- A comparison of the high words, or of the low words where these are equal, compares the numbers. -/
lemma cmp128_iff {op : UInt64 → UInt64 → Bool} {rel : ℕ → ℕ → Prop}
    (hop : ∀ x y, op x y = true ↔ rel x.toNat y.toNat)
    (hlow : ∀ h l l', rel (h * 2 ^ 64 + l) (h * 2 ^ 64 + l') ↔ rel l l')
    (hhigh : ∀ h h' l l', h ≠ h' → l < 2 ^ 64 → l' < 2 ^ 64 →
      (rel (h * 2 ^ 64 + l) (h' * 2 ^ 64 + l') ↔ rel h h')) :
    cmp128 op a b = true ↔ rel a.toBitVec.toNat b.toBitVec.toNat := by
  rw [toNat_toBitVec, toNat_toBitVec]
  unfold cmp128
  by_cases h : a.hi = b.hi
  · rw [if_pos h, hop, h, hlow]
  · rw [if_neg h, hop, hhigh _ _ _ _ (mt UInt64.toNat_inj.1 h) a.lo.toNat_lt b.lo.toNat_lt]

lemma lt_iff : a.lt b = true ↔ a.toBitVec.toNat < b.toBitVec.toNat :=
  cmp128_iff (by simp [UInt64.lt_iff_toNat_lt]) (by omega) (by omega)

lemma gt_iff : a.gt b = true ↔ a.toBitVec.toNat > b.toBitVec.toNat :=
  cmp128_iff (by simp [UInt64.lt_iff_toNat_lt]) (by omega) (by omega)

lemma le_iff : a.le b = true ↔ a.toBitVec.toNat ≤ b.toBitVec.toNat :=
  cmp128_iff (by simp [UInt64.le_iff_toNat_le]) (by omega) (by omega)

lemma ge_iff : a.ge b = true ↔ a.toBitVec.toNat ≥ b.toBitVec.toNat :=
  cmp128_iff (by simp [UInt64.le_iff_toNat_le]) (by omega) (by omega)

lemma eq_iff : a.eq b = true ↔ a = b := by
  rcases a with ⟨alo, ahi⟩
  rcases b with ⟨blo, bhi⟩
  simp [eq]

lemma getLsbD_logic128 {op : UInt64 → UInt64 → UInt64} {bit : Bool → Bool → Bool}
    (hop : ∀ x y i, (op x y).toBitVec.getLsbD i = bit (x.toBitVec.getLsbD i) (y.toBitVec.getLsbD i)) (i : ℕ) :
    (a.logic128 op b).toBitVec.getLsbD i = bit (a.toBitVec.getLsbD i) (b.toBitVec.getLsbD i) := by
  rw [getLsbD_toBitVec, getLsbD_toBitVec, getLsbD_toBitVec, logic128, mk2]
  split
  · exact hop _ _ _
  · exact hop _ _ _

lemma toBitVec_ofInt (bottom : Int32) : (ofInt bottom).toBitVec = BitVec.ofInt 128 bottom.toInt := by
  have hmin := bottom.le_toInt
  have hmax := bottom.toInt_lt
  have hlo : (UInt64.ofInt bottom.toInt).toNat = (bottom.toInt % 2 ^ 64).toNat := by
    rw [UInt64.ofInt, UInt64.toNat_ofNat']
    omega
  have hsign : bottom < 0 ↔ bottom.toInt < 0 := Int32.lt_iff_toInt_lt
  apply BitVec.eq_of_toNat_eq
  rw [BitVec.toNat_ofInt, toNat_toBitVec]
  unfold ofInt
  by_cases h : bottom.toInt < 0
  · simp only [hsign, h, if_true, hlo, UInt64.toNat_sub, UInt64.toNat_one, UInt64.toNat_zero]
    omega
  · simp only [hsign, h, if_false, hlo, UInt64.toNat_zero]
    omega

/-! ### Shifts -/

lemma shift_mod (h : n < 64) : (UInt64.ofNat n).toBitVec % 64 = BitVec.ofNat 64 n := by
  apply BitVec.eq_of_toNat_eq
  simp
  omega

lemma shiftLeft64_of_lt (x : UInt64) (h : n < 64) :
    ∃ y, shiftLeft64 x n = some y ∧ y.toBitVec = x.toBitVec <<< n := by
  refine ⟨_, if_pos ⟨Int.natCast_nonneg n, by exact_mod_cast h⟩, ?_⟩
  rw [UInt64.toBitVec_shiftLeft, Int.toNat_natCast, shift_mod h, BitVec.shiftLeft_eq', BitVec.toNat_ofNat,
    Nat.mod_eq_of_lt (by omega)]

lemma shiftRight64_of_lt (x : UInt64) (h : n < 64) :
    ∃ y, shiftRight64 x n = some y ∧ y.toBitVec = x.toBitVec >>> n := by
  refine ⟨_, if_pos ⟨Int.natCast_nonneg n, by exact_mod_cast h⟩, ?_⟩
  rw [UInt64.toBitVec_shiftRight, Int.toNat_natCast, shift_mod h, BitVec.ushiftRight_eq', BitVec.toNat_ofNat,
    Nat.mod_eq_of_lt (by omega)]

/-- The bits of the low word that leave it enter the high word. -/
lemma shiftLeft_small (a : Uint128) (h0 : 0 < n) (h : n < 64) :
    ∃ r, a.shiftLeft n = some r ∧ r.toBitVec = a.toBitVec <<< n := by
  obtain ⟨hi, hhi, hhi'⟩ := shiftLeft64_of_lt a.hi h
  obtain ⟨lo, hlo, hlo'⟩ := shiftLeft64_of_lt a.lo h
  obtain ⟨carry, hc, hc'⟩ := @shiftRight64_of_lt (64 - n) a.lo (by omega)
  have hcast : ((64 - n : ℕ) : ℤ) = 64 - n := by omega
  rw [hcast] at hc
  refine ⟨mk2 (hi ||| carry) lo, ?_, BitVec.eq_of_getLsbD_eq fun i hi => ?_⟩
  · rw [shiftLeft, if_pos (by omega), if_neg (by omega), hhi, hc, hlo]
    rfl
  · rw [getLsbD_toBitVec, BitVec.getLsbD_shiftLeft, getLsbD_toBitVec, mk2, UInt64.toBitVec_or, BitVec.getLsbD_or, hhi',
      hlo', hc', BitVec.getLsbD_shiftLeft, BitVec.getLsbD_ushiftRight, BitVec.getLsbD_shiftLeft]
    by_cases hin : i < n
    · have h64 : i < 64 := by omega
      simp [hin, hi, h64]
    by_cases h64 : i < 64
    · have hw : i - n < 64 := by omega
      simp [h64, hin, hi, hw]
    by_cases hmid : i < 64 + n
    · have hw : i - n < 64 := by omega
      have hw' : i - 64 < n := by omega
      have hidx : 64 - n + (i - 64) = i - n := by omega
      simp [h64, hin, hi, hw, hw', hidx]
    · have hw : ¬ i - n < 64 := by omega
      have hw' : ¬ i - 64 < n := by omega
      have hw'' : i - 64 < 64 := by omega
      have hidx : i - n - 64 = i - 64 - n := by omega
      have hzero : a.lo.toBitVec.getLsbD (64 - n + (i - 64)) = false := BitVec.getLsbD_of_ge _ _ (by omega)
      simp [h64, hin, hi, hw, hw', hw'', hidx, hzero]

/-- The bits of the high word that leave it enter the low word. -/
lemma shiftRight_small (a : Uint128) (h0 : 0 < n) (h : n < 64) :
    ∃ r, a.shiftRight n = some r ∧ r.toBitVec = a.toBitVec >>> n := by
  obtain ⟨hi, hhi, hhi'⟩ := shiftRight64_of_lt a.hi h
  obtain ⟨lo, hlo, hlo'⟩ := shiftRight64_of_lt a.lo h
  obtain ⟨carry, hc, hc'⟩ := @shiftLeft64_of_lt (64 - n) a.hi (by omega)
  have hcast : ((64 - n : ℕ) : ℤ) = 64 - n := by omega
  rw [hcast] at hc
  refine ⟨mk2 hi (lo ||| carry), ?_, BitVec.eq_of_getLsbD_eq fun i hi => ?_⟩
  · rw [shiftRight, if_pos (by omega), if_neg (by omega), hhi, hc, hlo]
    rfl
  · rw [getLsbD_toBitVec, BitVec.getLsbD_ushiftRight, getLsbD_toBitVec, mk2, UInt64.toBitVec_or, BitVec.getLsbD_or, hhi',
      hlo', hc', BitVec.getLsbD_ushiftRight, BitVec.getLsbD_ushiftRight, BitVec.getLsbD_shiftLeft]
    by_cases hlow : n + i < 64
    · have h64 : i < 64 := by omega
      have hw : i < 64 - n := by omega
      simp [hlow, h64, hw]
    by_cases h64 : i < 64
    · have hw : ¬ i < 64 - n := by omega
      have hidx : n + i - 64 = i - (64 - n) := by omega
      have hzero : a.lo.toBitVec.getLsbD (n + i) = false := BitVec.getLsbD_of_ge _ _ (by omega)
      simp [hlow, h64, hw, hidx, hzero]
    · have hidx : n + i - 64 = n + (i - 64) := by omega
      simp [hlow, h64, hidx]

lemma shiftLeft_large (a : Uint128) (h : 64 ≤ n) (hn : n < 128) :
    ∃ r, a.shiftLeft n = some r ∧ r.toBitVec = a.toBitVec <<< n := by
  obtain ⟨hi, hhi, hhi'⟩ := @shiftLeft64_of_lt (n - 64) a.lo (by omega)
  have hcast : ((n - 64 : ℕ) : ℤ) = n - 64 := by omega
  rw [hcast] at hhi
  refine ⟨mk2 hi 0, ?_, BitVec.eq_of_getLsbD_eq fun i hi => ?_⟩
  · rw [shiftLeft, if_neg (by omega), if_pos (by omega), hhi]
    rfl
  · rw [getLsbD_toBitVec, BitVec.getLsbD_shiftLeft, getLsbD_toBitVec, mk2, hhi', BitVec.getLsbD_shiftLeft]
    by_cases h64 : i < 64
    · have hin : i < n := by omega
      simp [h64, hin]
    by_cases hin : i < n
    · have hw : i - 64 < n - 64 := by omega
      simp [h64, hin, hw]
    · have hw : ¬ i - 64 < n - 64 := by omega
      have hw' : i - 64 < 64 := by omega
      have hw'' : i - n < 64 := by omega
      have hidx : i - 64 - (n - 64) = i - n := by omega
      simp [h64, hin, hi, hw, hw', hw'', hidx]

lemma shiftRight_large (a : Uint128) (h : 64 ≤ n) (hn : n < 128) :
    ∃ r, a.shiftRight n = some r ∧ r.toBitVec = a.toBitVec >>> n := by
  obtain ⟨lo, hlo, hlo'⟩ := @shiftRight64_of_lt (n - 64) a.hi (by omega)
  have hcast : ((n - 64 : ℕ) : ℤ) = n - 64 := by omega
  rw [hcast] at hlo
  refine ⟨mk2 0 lo, ?_, BitVec.eq_of_getLsbD_eq fun i hi => ?_⟩
  · rw [shiftRight, if_neg (by omega), if_pos (by omega), hlo]
    rfl
  · rw [getLsbD_toBitVec, BitVec.getLsbD_ushiftRight, getLsbD_toBitVec, mk2, hlo', BitVec.getLsbD_ushiftRight]
    have hw : ¬ n + i < 64 := by omega
    by_cases h64 : i < 64
    · have hidx : n - 64 + i = n + i - 64 := by omega
      simp [h64, hw, hidx]
    · have hzero : a.hi.toBitVec.getLsbD (n + i - 64) = false := BitVec.getLsbD_of_ge _ _ (by omega)
      simp [h64, hw, hzero]

/-- **`operator<<` is defined** for the amounts from zero on, and shifts the number. -/
lemma shiftLeft_spec (a : Uint128) (n : ℕ) : ∃ r, a.shiftLeft n = some r ∧ r.toBitVec = a.toBitVec <<< n := by
  by_cases h0 : n = 0
  · subst h0
    exact ⟨a, rfl, by simp⟩
  by_cases h : n < 64
  · exact a.shiftLeft_small (by omega) h
  by_cases hn : n < 128
  · exact a.shiftLeft_large (by omega) hn
  · refine ⟨mk2 0 0, ?_, ?_⟩
    · rw [shiftLeft, if_neg (by omega), if_neg (by omega)]
      rfl
    · rw [BitVec.shiftLeft_eq_zero (by omega)]
      rfl

lemma shiftRight_spec (a : Uint128) (n : ℕ) : ∃ r, a.shiftRight n = some r ∧ r.toBitVec = a.toBitVec >>> n := by
  by_cases h0 : n = 0
  · subst h0
    exact ⟨a, rfl, by simp⟩
  by_cases h : n < 64
  · exact a.shiftRight_small (by omega) h
  by_cases hn : n < 128
  · exact a.shiftRight_large (by omega) hn
  · refine ⟨mk2 0 0, ?_, ?_⟩
    · rw [shiftRight, if_neg (by omega), if_neg (by omega)]
      rfl
    · rw [BitVec.ushiftRight_eq_zero (by omega)]
      rfl

lemma shiftLeft_of_neg {amount : ℤ} (a : Uint128) (h : amount < 0) : a.shiftLeft amount = none := by
  rw [shiftLeft, if_pos (by omega), if_neg (by omega), shiftLeft64, if_neg (by omega)]
  rfl

lemma shiftRight_of_neg {amount : ℤ} (a : Uint128) (h : amount < 0) : a.shiftRight amount = none := by
  rw [shiftRight, if_pos (by omega), if_neg (by omega), shiftRight64, if_neg (by omega)]
  rfl

lemma shiftLeftAssign_eq (a : Uint128) (amount : ℤ) : a.shiftLeftAssign amount = a.shiftLeft amount := by
  unfold shiftLeftAssign shiftLeft
  by_cases h : amount < 64
  · rw [if_pos h, if_pos h]
    by_cases h0 : amount = 0
    · rw [if_pos h0, if_neg (not_not.2 h0)]
    · rw [if_neg h0, if_pos h0]
      rfl
  · rw [if_neg h, if_neg h]
    rfl

lemma shiftRightAssign_small {amount : ℤ} (a : Uint128) (h : amount < 64) :
    a.shiftRightAssign amount = a.shiftRight amount := by
  unfold shiftRightAssign shiftRight
  rw [if_pos h, if_pos h]
  by_cases h0 : amount = 0
  · rw [if_pos h0, if_neg (not_not.2 h0)]
  rw [if_neg h0, if_pos h0]
  by_cases hneg : amount < 0
  · have hhi : shiftRight64 a.hi amount = none := if_neg (by omega)
    have hlo : shiftRight64 a.lo amount = none := if_neg (by omega)
    rw [hhi, hlo]
    rfl
  · obtain ⟨n, rfl⟩ := Int.eq_ofNat_of_zero_le (Int.not_lt.1 hneg)
    obtain ⟨hi, hhi, -⟩ := @shiftRight64_of_lt n a.hi (by omega)
    obtain ⟨lo, hlo, -⟩ := @shiftRight64_of_lt n a.lo (by omega)
    obtain ⟨carry, hc, -⟩ := @shiftLeft64_of_lt (64 - n) a.hi (by omega)
    rw [show ((64 - n : ℕ) : ℤ) = 64 - n by omega] at hc
    simp only [hhi, hlo, hc]
    rfl

lemma shiftRightAssign_large (a : Uint128) (h : 64 ≤ n) : a.shiftRightAssign n = some ⟨0, 0⟩ := by
  unfold shiftRightAssign
  rw [if_neg (by omega)]
  by_cases hn : (n : ℤ) < 128
  · rw [if_pos hn]
    show (shiftRight64 0 ((n : ℤ) - 64) >>= fun lo => some (Uint128.mk lo 0)) = _
    rw [shiftRight64, if_pos (by omega), UInt64.zero_shiftRight]
    rfl
  · rw [if_neg hn]
    rfl

/-! ### Products -/

lemma product_mod {w a₀ a₁ a₂ a₃ b₀ b₁ b₂ b₃ : ℕ} :
    (a₃ * w ^ 3 + a₂ * w ^ 2 + a₁ * w + a₀) * (b₃ * w ^ 3 + b₂ * w ^ 2 + b₁ * w + b₀) ≡
      ((a₃ * b₀ + a₂ * b₁ + a₁ * b₂ + a₀ * b₃) * w + (a₂ * b₀ + a₁ * b₁ + a₀ * b₂)) * w ^ 2 + a₁ * b₀ * w +
        a₀ * b₁ * w + a₀ * b₀ [MOD w ^ 4] := by
  have hsplit : (a₃ * w ^ 3 + a₂ * w ^ 2 + a₁ * w + a₀) * (b₃ * w ^ 3 + b₂ * w ^ 2 + b₁ * w + b₀) =
      ((a₃ * b₀ + a₂ * b₁ + a₁ * b₂ + a₀ * b₃) * w + (a₂ * b₀ + a₁ * b₁ + a₀ * b₂)) * w ^ 2 + a₁ * b₀ * w +
        a₀ * b₁ * w + a₀ * b₀ +
        w ^ 4 * (a₃ * b₁ + a₂ * b₂ + a₁ * b₃ + (a₃ * b₂ + a₂ * b₃) * w + a₃ * b₃ * w ^ 2) := by
    ring
  rw [hsplit]
  exact Nat.add_mul_mod_self_left _ _ _

section Words

lemma toNat_highHalf (x : UInt64) : (x >>> 32).toNat = x.toNat / 2 ^ 32 := by
  rw [UInt64.toNat_shiftRight, Nat.shiftRight_eq_div_pow]
  rfl

lemma toNat_lowHalf (x : UInt64) : (x &&& 0xffffffff).toNat = x.toNat % 2 ^ 32 := by
  rw [UInt64.toNat_and]
  exact Nat.and_two_pow_sub_one_eq_mod x.toNat 32

lemma toNat_mul_halves (hx : x.toNat < 2 ^ 32) (hy : y.toNat < 2 ^ 32) : (x * y).toNat = x.toNat * y.toNat := by
  have hlt : x.toNat * y.toNat < 2 ^ 32 * 2 ^ 32 := Nat.mul_lt_mul'' hx hy
  rw [UInt64.toNat_mul]
  exact Nat.mod_eq_of_lt hlt

lemma toNat_add_modEq {k l : ℕ} (hx : x.toNat ≡ k [MOD 2 ^ 64]) (hy : y.toNat ≡ l [MOD 2 ^ 64]) :
    (x + y).toNat ≡ k + l [MOD 2 ^ 64] := by
  rw [UInt64.toNat_add]
  exact (Nat.mod_modEq _ _).trans (hx.add hy)

lemma toNat_mul_modEq (x y : UInt64) : (x * y).toNat ≡ x.toNat * y.toNat [MOD 2 ^ 64] := by
  rw [UInt64.toNat_mul]
  exact Nat.mod_modEq _ _

lemma toNat_shiftLeft_modEq {k : ℕ} (hx : x.toNat ≡ k [MOD 2 ^ 64]) : (x <<< 32).toNat ≡ k * 2 ^ 32 [MOD 2 ^ 64] := by
  rw [UInt64.toNat_shiftLeft, Nat.shiftLeft_eq]
  exact (Nat.mod_modEq _ _).trans (hx.mul_right _)

end Words

lemma toBitVec_ofUInt64 (x : UInt64) : (ofUInt64 x).toBitVec = BitVec.ofNat 128 x.toNat := by
  have hx := x.toNat_lt
  apply BitVec.eq_of_toNat_eq
  rw [toNat_toBitVec, BitVec.toNat_ofNat, Nat.mod_eq_of_lt (by omega)]
  show 0 * 2 ^ 64 + x.toNat = _
  omega

lemma ofNat_shiftLeft (k : ℕ) : BitVec.ofNat 128 k <<< 32 = BitVec.ofNat 128 (k * 2 ^ 32) := by
  apply BitVec.eq_of_toNat_eq
  rw [BitVec.toNat_shiftLeft, BitVec.toNat_ofNat, BitVec.toNat_ofNat, Nat.shiftLeft_eq, Nat.mod_mul_mod]

lemma toBitVec_eq_digits (a : Uint128) : a.toBitVec = BitVec.ofNat 128
    ((a.hi >>> 32).toNat * (2 ^ 32) ^ 3 + (a.hi &&& 0xffffffff).toNat * (2 ^ 32) ^ 2 +
      (a.lo >>> 32).toNat * 2 ^ 32 + (a.lo &&& 0xffffffff).toNat) := by
  have hlo := a.lo.toNat_lt
  have hhi := a.hi.toNat_lt
  apply BitVec.eq_of_toNat_eq
  rw [toNat_toBitVec, BitVec.toNat_ofNat, toNat_highHalf, toNat_highHalf, toNat_lowHalf, toNat_lowHalf]
  omega

/-- The terms of the product, of which the two high ones may wrap in their word. -/
lemma product_words {a₀ a₁ a₂ a₃ b₀ b₁ b₂ b₃ : UInt64} {r₁ r₂ : Uint128} (ha₀ : a₀.toNat < 2 ^ 32)
    (ha₁ : a₁.toNat < 2 ^ 32) (hb₀ : b₀.toNat < 2 ^ 32) (hb₁ : b₁.toNat < 2 ^ 32)
    (h₁ : r₁.toBitVec = (ofUInt64 (a₁ * b₀)).toBitVec <<< 32)
    (h₂ : r₂.toBitVec = (ofUInt64 (a₀ * b₁)).toBitVec <<< 32) :
    ((((Uint128.mk 0 (((a₃ * b₀ + a₂ * b₁ + a₁ * b₂ + a₀ * b₃) <<< 32) + (a₂ * b₀ + a₁ * b₁ + a₀ * b₂))).addAssign
      r₁).addAssign r₂).addAssign (ofUInt64 (a₀ * b₀))).toBitVec = BitVec.ofNat 128
        ((a₃.toNat * (2 ^ 32) ^ 3 + a₂.toNat * (2 ^ 32) ^ 2 + a₁.toNat * 2 ^ 32 + a₀.toNat) *
          (b₃.toNat * (2 ^ 32) ^ 3 + b₂.toNat * (2 ^ 32) ^ 2 + b₁.toNat * 2 ^ 32 + b₀.toNat)) := by
  set high := ((a₃ * b₀ + a₂ * b₁ + a₁ * b₂ + a₀ * b₃) <<< 32) + (a₂ * b₀ + a₁ * b₁ + a₀ * b₂) with hhigh
  have hmod : high.toNat ≡ (a₃.toNat * b₀.toNat + a₂.toNat * b₁.toNat + a₁.toNat * b₂.toNat + a₀.toNat * b₃.toNat) *
      2 ^ 32 + (a₂.toNat * b₀.toNat + a₁.toNat * b₁.toNat + a₀.toNat * b₂.toNat) [MOD 2 ^ 64] := by
    apply toNat_add_modEq
    · apply toNat_shiftLeft_modEq
      exact toNat_add_modEq (toNat_add_modEq (toNat_add_modEq (toNat_mul_modEq _ _) (toNat_mul_modEq _ _))
        (toNat_mul_modEq _ _)) (toNat_mul_modEq _ _)
    · exact toNat_add_modEq (toNat_add_modEq (toNat_mul_modEq _ _) (toNat_mul_modEq _ _)) (toNat_mul_modEq _ _)
  have hword : (Uint128.mk 0 high).toBitVec = BitVec.ofNat 128 (high.toNat * 2 ^ 64) := by
    have hlt := high.toNat_lt
    apply BitVec.eq_of_toNat_eq
    rw [toNat_toBitVec, BitVec.toNat_ofNat, UInt64.toNat_zero, Nat.add_zero, Nat.mod_eq_of_lt (by omega)]
  rw [toBitVec_addAssign, toBitVec_addAssign, toBitVec_addAssign, h₁, h₂, hword, toBitVec_ofUInt64, toBitVec_ofUInt64,
    toBitVec_ofUInt64, ofNat_shiftLeft, ofNat_shiftLeft, toNat_mul_halves ha₁ hb₀, toNat_mul_halves ha₀ hb₁,
    toNat_mul_halves ha₀ hb₀, ← BitVec.ofNat_add, ← BitVec.ofNat_add, ← BitVec.ofNat_add]
  apply BitVec.eq_of_toNat_eq
  rw [BitVec.toNat_ofNat, BitVec.toNat_ofNat]
  have hterms := (((hmod.mul_right' (2 ^ 64)).add_right (a₁.toNat * b₀.toNat * 2 ^ 32)).add_right
    (a₀.toNat * b₁.toNat * 2 ^ 32)).add_right (a₀.toNat * b₀.toNat)
  exact hterms.trans product_mod.symm

/-- **`operator*=`** multiplies. -/
lemma mulAssign_spec (a b : Uint128) : ∃ r, a.mulAssign b = some r ∧ r.toBitVec = a.toBitVec * b.toBitVec := by
  obtain ⟨r₁, h₁, h₁'⟩ := shiftLeft_spec (ofUInt64 ((a.lo >>> 32) * (b.lo &&& (0xffffffff : UInt64)))) 32
  obtain ⟨r₂, h₂, h₂'⟩ := shiftLeft_spec (ofUInt64 ((a.lo &&& (0xffffffff : UInt64)) * (b.lo >>> 32))) 32
  have hhalf : ∀ x : UInt64, (x >>> 32).toNat < 2 ^ 32 ∧ (x &&& 0xffffffff).toNat < 2 ^ 32 := by
    intro x
    have hx := x.toNat_lt
    rw [toNat_highHalf, toNat_lowHalf]
    omega
  have hprod := @product_words _ _ (a.hi &&& 0xffffffff) (a.hi >>> 32) _ _ (b.hi &&& 0xffffffff) (b.hi >>> 32) _ _
    (hhalf a.lo).2 (hhalf a.lo).1 (hhalf b.lo).2 (hhalf b.lo).1 h₁' h₂'
  rw [BitVec.ofNat_mul, ← toBitVec_eq_digits, ← toBitVec_eq_digits] at hprod
  refine ⟨_, ?_, hprod⟩
  unfold mulAssign
  simp only [show ((32 : ℤ)) = ((32 : ℕ) : ℤ) from rfl, h₁, h₂]
  rfl

lemma toBitVec_not (a : Uint128) : a.not.toBitVec = ~~~a.toBitVec := by
  apply BitVec.eq_of_getLsbD_eq
  intro i hi
  rw [BitVec.getLsbD_not, getLsbD_toBitVec, getLsbD_toBitVec, not, mk2]
  by_cases h : i < 64
  · simp [h, hi]
  · have hw : i - 64 < 64 := by omega
    simp [h, hi, hw]

lemma toBitVec_or (a b : Uint128) : (a.or b).toBitVec = a.toBitVec ||| b.toBitVec := by
  apply BitVec.eq_of_getLsbD_eq
  intro i _
  rw [or, @getLsbD_logic128 a b _ Bool.or fun _ _ _ => by simp, BitVec.getLsbD_or]

lemma toBitVec_and (a b : Uint128) : (a.and b).toBitVec = a.toBitVec &&& b.toBitVec := by
  apply BitVec.eq_of_getLsbD_eq
  intro i _
  rw [and, @getLsbD_logic128 a b _ Bool.and fun _ _ _ => by simp, BitVec.getLsbD_and]

lemma toBitVec_xor (a b : Uint128) : (a.xor b).toBitVec = a.toBitVec ^^^ b.toBitVec := by
  apply BitVec.eq_of_getLsbD_eq
  intro i _
  rw [xor, @getLsbD_logic128 a b _ Bool.xor fun _ _ _ => by simp, BitVec.getLsbD_xor]

lemma toBitVec_inc (a : Uint128) : a.inc.toBitVec = a.toBitVec + 1 := by
  have hone : (ofInt 1).toBitVec = 1 := toBitVec_ofInt 1
  rw [inc, toBitVec_addAssign, hone]

lemma toBitVec_dec (a : Uint128) : a.dec.toBitVec = a.toBitVec - 1 := by
  have hone : (ofInt 1).toBitVec = 1 := toBitVec_ofInt 1
  rw [dec, toBitVec_subAssign, hone]

lemma ne_iff : a.ne b = true ↔ a ≠ b := by
  rw [ne, Bool.not_eq_true', Bool.eq_false_iff]
  exact not_congr eq_iff

lemma isZero_iff : a.isZero = true ↔ a.toBitVec = 0 := by
  have hzero : (⟨0, 0⟩ : Uint128).toBitVec = 0 := rfl
  rw [← hzero, toBitVec_inj]
  rcases a with ⟨lo, hi⟩
  simp [isZero, and_comm]

/-! ### All operators -/

/-- **`uint128` is the type of the numbers of 128 bits**: every operator that does not shift is the one of `BitVec 128`,
`x++` and `x--` give the old number, and an `int` keeps its sign. -/
theorem operators_bitvec (a b : Uint128) :
    (a.add b).toBitVec = a.toBitVec + b.toBitVec ∧ a.addAssign b = a.add b ∧
    (a.sub b).toBitVec = a.toBitVec - b.toBitVec ∧ a.subAssign b = a.sub b ∧
    (∃ r, a.mul b = some r ∧ r.toBitVec = a.toBitVec * b.toBitVec) ∧ a.mulAssign b = a.mul b ∧
    (a.neg.toBitVec = -a.toBitVec ∧ a.not.toBitVec = ~~~a.toBitVec ∧ (a.isZero = true ↔ a.toBitVec = 0)) ∧
    (a.or b).toBitVec = a.toBitVec ||| b.toBitVec ∧ a.orAssign b = a.or b ∧
    (a.and b).toBitVec = a.toBitVec &&& b.toBitVec ∧ a.andAssign b = a.and b ∧
    (a.xor b).toBitVec = a.toBitVec ^^^ b.toBitVec ∧ a.xorAssign b = a.xor b ∧
    (a.inc.toBitVec = a.toBitVec + 1 ∧ a.postInc.1 = a ∧ a.postInc.2.toBitVec = a.toBitVec + 1) ∧
    (a.dec.toBitVec = a.toBitVec - 1 ∧ a.postDec.1 = a ∧ a.postDec.2.toBitVec = a.toBitVec - 1) ∧
    (a.lt b = true ↔ a.toBitVec < b.toBitVec) ∧ (a.gt b = true ↔ b.toBitVec < a.toBitVec) ∧
    (a.le b = true ↔ a.toBitVec ≤ b.toBitVec) ∧ (a.ge b = true ↔ b.toBitVec ≤ a.toBitVec) ∧
    (a.eq b = true ↔ a.toBitVec = b.toBitVec) ∧ (a.ne b = true ↔ a.toBitVec ≠ b.toBitVec) ∧
    ∀ bottom : Int32, (ofInt bottom).toBitVec = BitVec.ofInt 128 bottom.toInt :=
  ⟨toBitVec_addAssign a b, rfl, toBitVec_subAssign a b, rfl, mulAssign_spec a b, rfl,
    ⟨toBitVec_neg a, toBitVec_not a, isZero_iff⟩, toBitVec_or a b, rfl, toBitVec_and a b, rfl, toBitVec_xor a b, rfl,
    ⟨toBitVec_inc a, rfl, toBitVec_inc a⟩, ⟨toBitVec_dec a, rfl, toBitVec_dec a⟩, lt_iff, gt_iff, le_iff, ge_iff,
    eq_iff.trans toBitVec_inj.symm, ne_iff.trans (not_congr toBitVec_inj.symm), toBitVec_ofInt⟩

/-- **The shifts** are undefined for negative amounts only, and shift the number for all others, but for `operator>>=`:
it agrees with `operator>>` exactly for the amounts below 64 and for those that leave nothing. -/
theorem shifts_bitvec (a : Uint128) (amount : ℤ) :
    (a.shiftLeft amount = none ↔ amount < 0) ∧ (a.shiftRight amount = none ↔ amount < 0) ∧
    (∀ n : ℕ, ∃ r, a.shiftLeft n = some r ∧ r.toBitVec = a.toBitVec <<< n) ∧
    (∀ n : ℕ, ∃ r, a.shiftRight n = some r ∧ r.toBitVec = a.toBitVec >>> n) ∧
    a.shiftLeftAssign amount = a.shiftLeft amount ∧
    (a.shiftRightAssign amount = a.shiftRight amount ↔ amount < 64 ∨ a.toBitVec.toNat < 2 ^ amount.toNat) := by
  refine ⟨?_, ?_, shiftLeft_spec a, shiftRight_spec a, shiftLeftAssign_eq a amount, ?_⟩
  · refine ⟨fun h => ?_, shiftLeft_of_neg a⟩
    by_contra hneg
    obtain ⟨n, rfl⟩ := Int.eq_ofNat_of_zero_le (Int.not_lt.1 hneg)
    obtain ⟨r, hr, -⟩ := shiftLeft_spec a n
    rw [hr] at h
    cases h
  · refine ⟨fun h => ?_, shiftRight_of_neg a⟩
    by_contra hneg
    obtain ⟨n, rfl⟩ := Int.eq_ofNat_of_zero_le (Int.not_lt.1 hneg)
    obtain ⟨r, hr, -⟩ := shiftRight_spec a n
    rw [hr] at h
    cases h
  · by_cases hsmall : amount < 64
    · exact iff_of_true (shiftRightAssign_small a hsmall) (.inl hsmall)
    obtain ⟨n, rfl⟩ := Int.eq_ofNat_of_zero_le (show 0 ≤ amount by omega)
    obtain ⟨r, hr, hnum⟩ := shiftRight_spec a n
    have hzero : r = ⟨0, 0⟩ ↔ a.toBitVec.toNat < 2 ^ n := by
      rw [← toBitVec_inj, hnum, ← BitVec.toNat_inj, BitVec.toNat_ushiftRight, Nat.shiftRight_eq_div_pow]
      exact Nat.div_eq_zero_iff_lt (Nat.two_pow_pos n)
    rw [shiftRightAssign_large a (by omega), hr, Option.some.injEq, eq_comm, hzero, Int.toNat_natCast]
    exact ⟨.inr, fun h => h.resolve_left hsmall⟩

/-- `5 * 2 ^ 64` is lost by a shift of 65. -/
example : shiftRight ⟨0, 5⟩ 65 = some ⟨2, 0⟩ ∧ shiftRightAssign ⟨0, 5⟩ 65 = some ⟨0, 0⟩ := by decide

end Number

end Uint128

end Zutils
