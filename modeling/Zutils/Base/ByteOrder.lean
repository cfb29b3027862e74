import Mathlib.Data.Nat.Digits.Defs

/-!
# Integers in network byte order

The shifts and masks with which the packet headers are read and written, and with them `NetToHost32` after a
`memcpy`. `beNat` is what they are about: the number of which some bytes are the digits, the most significant one
first. Reading gives this number (`get32_toNat`, `get16_toNat`), and reading what was written gives it back.
-/

namespace Zutils

/-- The number with the base 256 digits `bs`, the most significant one first. -/
def beNat (bs : List UInt8) : ℕ := Nat.ofDigits 256 (bs.reverse.map UInt8.toNat)

/-- `(d[i] & 0xFF) << 24 | (d[i+1] & 0xFF) << 16 | (d[i+2] & 0xFF) << 8 | (d[i+3] & 0xFF)`. -/
def get32 (d : List UInt8) (i : ℕ) : UInt32 :=
  (d.getD i 0).toUInt32 <<< 24 ||| (d.getD (i + 1) 0).toUInt32 <<< 16 ||| (d.getD (i + 2) 0).toUInt32 <<< 8 |||
    (d.getD (i + 3) 0).toUInt32

/-- `(uint16)d[i] << 8 | d[i+1]`. -/
def get16 (d : List UInt8) (i : ℕ) : UInt16 :=
  (d.getD i 0).toUInt16 <<< 8 ||| (d.getD (i + 1) 0).toUInt16

/-- The four stores of `(v >> 24) & 0xFF` and so on. -/
def put32 (v : UInt32) : List UInt8 :=
  [(v >>> 24 &&& 0xFF).toUInt8, (v >>> 16 &&& 0xFF).toUInt8, (v >>> 8 &&& 0xFF).toUInt8, (v &&& 0xFF).toUInt8]

/-- The two stores of `(v >> 8) & 0xFF` and `v & 0xFF`. -/
def put16 (v : UInt16) : List UInt8 := [(v >>> 8 &&& 0xFF).toUInt8, (v &&& 0xFF).toUInt8]

/-! ### Shifting is multiplying -/

lemma shiftLeft_or_byte (a : ℕ) (b : UInt8) : a <<< 8 ||| b.toNat = 256 * a + b.toNat := by
  rw [← Nat.shiftLeft_add_eq_or_of_lt b.toNat_lt, Nat.shiftLeft_eq, Nat.mul_comm]

lemma and_byte (n : ℕ) : n &&& 255 = n % 256 := Nat.and_two_pow_sub_one_eq_mod n 8

lemma beNat_four (a b c d : UInt8) :
    beNat [a, b, c, d] = 256 * (256 * (256 * a.toNat + b.toNat) + c.toNat) + d.toNat := by
  simp [beNat, Nat.ofDigits]
  omega

lemma beNat_two (a b : UInt8) : beNat [a, b] = 256 * a.toNat + b.toNat := by
  simp [beNat, Nat.ofDigits]
  omega

section Bytes

variable {d : List UInt8} {i : ℕ}

lemma take_drop_succ {k : ℕ} (h : i < d.length) :
    (d.drop i).take (k + 1) = d.getD i 0 :: (d.drop (i + 1)).take k := by
  rw [List.drop_eq_getElem_cons h, List.take_succ_cons]
  simp [List.getD_eq_getElem?_getD, h]

/-- **Reading four bytes** gives their number. -/
theorem get32_toNat (h : i + 4 ≤ d.length) : (get32 d i).toNat = beNat ((d.drop i).take 4) := by
  rw [take_drop_succ (by omega), take_drop_succ (by omega), take_drop_succ (by omega),
    take_drop_succ (by omega), List.take_zero, beNat_four, get32]
  generalize d.getD i 0 = a
  generalize d.getD (i + 1) 0 = b
  generalize d.getD (i + 2) 0 = c
  generalize d.getD (i + 3) 0 = e
  have ha := a.toNat_lt
  have hb := b.toNat_lt
  have hc := c.toNat_lt
  have hshift : ∀ x k : ℕ, x * 2 ^ k < 2 ^ 32 → x <<< k % 2 ^ 32 = x <<< k := fun x k hx => by
    rw [Nat.shiftLeft_eq, Nat.mod_eq_of_lt hx]
  simp only [UInt32.toNat_or, UInt32.toNat_shiftLeft, UInt8.toNat_toUInt32, UInt32.reduceToNat, Nat.reduceMod]
  rw [hshift _ _ (by omega), hshift _ _ (by omega), hshift _ _ (by omega),
    Nat.shiftLeft_add _ 8 16, ← Nat.shiftLeft_or_distrib, shiftLeft_or_byte,
    Nat.shiftLeft_add _ 8 8, ← Nat.shiftLeft_or_distrib, shiftLeft_or_byte, shiftLeft_or_byte]

/-- **Reading two bytes** gives their number. -/
theorem get16_toNat (h : i + 2 ≤ d.length) : (get16 d i).toNat = beNat ((d.drop i).take 2) := by
  rw [take_drop_succ (by omega), take_drop_succ (by omega), List.take_zero, beNat_two, get16]
  generalize d.getD i 0 = a
  generalize d.getD (i + 1) 0 = b
  have ha := a.toNat_lt
  simp only [UInt16.toNat_or, UInt16.toNat_shiftLeft, UInt8.toNat_toUInt16, UInt16.reduceToNat, Nat.reduceMod]
  rw [Nat.mod_eq_of_lt (by rw [Nat.shiftLeft_eq]; omega), shiftLeft_or_byte]

/-- **What four stores wrote is read back.** -/
theorem get32_put32 (pre post : List UInt8) (v : UInt32) : get32 (pre ++ put32 v ++ post) pre.length = v := by
  apply UInt32.toNat_inj.1
  have hv := v.toNat_lt
  rw [get32_toNat (by simp [put32]), List.append_assoc, List.drop_left' rfl,
    List.take_append_of_le_length (by simp [put32]), put32, List.take_of_length_le (by simp), beNat_four]
  simp only [UInt32.toNat_toUInt8, UInt32.toNat_and, UInt32.toNat_shiftRight, UInt32.reduceToNat, Nat.reduceMod,
    and_byte, Nat.shiftRight_eq_div_pow]
  omega

/-- **What two stores wrote is read back.** -/
theorem get16_put16 (pre post : List UInt8) (v : UInt16) : get16 (pre ++ put16 v ++ post) pre.length = v := by
  apply UInt16.toNat_inj.1
  have hv := v.toNat_lt
  rw [get16_toNat (by simp [put16]), List.append_assoc, List.drop_left' rfl,
    List.take_append_of_le_length (by simp [put16]), put16, List.take_of_length_le (by simp), beNat_two]
  simp only [UInt16.toNat_toUInt8, UInt16.toNat_and, UInt16.toNat_shiftRight, UInt16.reduceToNat, Nat.reduceMod,
    and_byte, Nat.shiftRight_eq_div_pow]
  omega

/-- **Storing what was read** gives the four bytes back. -/
theorem put32_get32 (h : i + 4 ≤ d.length) : put32 (get32 d i) = (d.drop i).take 4 := by
  have hget := get32_toNat h
  rw [take_drop_succ (by omega), take_drop_succ (by omega), take_drop_succ (by omega), take_drop_succ (by omega),
    List.take_zero] at hget ⊢
  rw [beNat_four] at hget
  generalize get32 d i = v at hget ⊢
  have ha := (d.getD i 0).toNat_lt
  have hb := (d.getD (i + 1) 0).toNat_lt
  have hc := (d.getD (i + 1 + 1) 0).toNat_lt
  have he := (d.getD (i + 1 + 1 + 1) 0).toNat_lt
  simp only [put32, List.cons.injEq, and_true, ← UInt8.toNat_inj, UInt32.toNat_toUInt8, UInt32.toNat_and,
    UInt32.toNat_shiftRight, UInt32.reduceToNat, Nat.reduceMod, and_byte, Nat.shiftRight_eq_div_pow, hget]
  omega

/-- **Storing what was read** gives the two bytes back. -/
theorem put16_get16 (h : i + 2 ≤ d.length) : put16 (get16 d i) = (d.drop i).take 2 := by
  have hget := get16_toNat h
  rw [take_drop_succ (by omega), take_drop_succ (by omega), List.take_zero] at hget ⊢
  rw [beNat_two] at hget
  generalize get16 d i = v at hget ⊢
  have ha := (d.getD i 0).toNat_lt
  have hb := (d.getD (i + 1) 0).toNat_lt
  simp only [put16, List.cons.injEq, and_true, ← UInt8.toNat_inj, UInt16.toNat_toUInt8, UInt16.toNat_and,
    UInt16.toNat_shiftRight, UInt16.reduceToNat, Nat.reduceMod, and_byte, Nat.shiftRight_eq_div_pow, hget]
  omega

end Bytes

end Zutils
