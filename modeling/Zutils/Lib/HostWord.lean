import Mathlib.Data.Nat.Bitwise
import Mathlib.Data.Nat.Digits.Defs

/-!
# Words in the memory of a host

The bytes of a number, the least significant one first, and the number that some bytes are. A host has the bytes of a
word in this order or in the other one. `Word` is a type of words with a swap of their bytes, which is given by where
each bit comes from. So a word is brought into either order on either host: what is stored then does not depend on the
host, and neither does what is loaded.
-/

namespace Zutils.Lib

/-- The last `k` bytes of a number, the least significant one first. -/
def leBytes : ℕ → ℕ → List UInt8
  | 0, _ => []
  | k + 1, n => UInt8.ofNat n :: leBytes k (n / 256)

/-- The number with these bytes, the least significant one first. -/
def leNat (bs : List UInt8) : ℕ := Nat.ofDigits 256 (bs.map UInt8.toNat)

section Bytes

variable {k x y : ℕ}

lemma leNat_cons (b : UInt8) (bs : List UInt8) : leNat (b :: bs) = b.toNat + 256 * leNat bs :=
  Nat.ofDigits_cons ..

@[simp] lemma leBytes_length (k n : ℕ) : (leBytes k n).length = k := by
  induction k generalizing n with
  | zero => rfl
  | succ k ih => rw [leBytes, List.length_cons, ih]

lemma leNat_leBytes {n : ℕ} (h : n < 256 ^ k) : leNat (leBytes k n) = n := by
  induction k generalizing n with
  | zero =>
    rw [Nat.pow_zero, Nat.lt_one_iff] at h
    rw [h]
    rfl
  | succ k ih =>
    have hdiv : n / 256 < 256 ^ k := by
      rw [Nat.pow_succ] at h
      exact Nat.div_lt_of_lt_mul (by rwa [Nat.mul_comm] at h)
    rw [leBytes, leNat_cons, ih hdiv, UInt8.toNat_ofNat']
    omega

lemma leBytes_leNat (bs : List UInt8) : leBytes bs.length (leNat bs) = bs := by
  induction bs with
  | nil => rfl
  | cons b bs ih =>
    have hb := b.toNat_lt
    have hdiv : (b.toNat + 256 * leNat bs) / 256 = leNat bs := by omega
    rw [leNat_cons, List.length_cons, leBytes, hdiv, ih]
    congr 1
    apply UInt8.toNat_inj.1
    rw [UInt8.toNat_ofNat']
    omega

lemma leNat_lt (bs : List UInt8) : leNat bs < 256 ^ bs.length := by
  induction bs with
  | nil => exact Nat.one_pos
  | cons b bs ih =>
    have hb := b.toNat_lt
    rw [leNat_cons, List.length_cons, Nat.pow_succ]
    omega

lemma leBytes_getElem (n : ℕ) {i : ℕ} (hi : i < (leBytes k n).length) :
    (leBytes k n)[i] = UInt8.ofNat (n / 256 ^ i) := by
  induction k generalizing n i with
  | zero => cases hi
  | succ k ih =>
    cases i with
    | zero => simp [leBytes]
    | succ i =>
      rw [leBytes, List.length_cons, Nat.add_lt_add_iff_right] at hi
      have hih := ih (n / 256) hi
      rw [Nat.div_div_eq_div_mul, Nat.mul_comm, ← Nat.pow_succ] at hih
      simpa [leBytes] using hih

/-- Each bit of `y` comes from the byte of `x` at the other end. -/
def SwapsBytes (k x y : ℕ) : Prop := ∀ i < 8 * k, y.testBit i = x.testBit (8 * (k - 1 - i / 8) + i % 8)

lemma testBit_byte (n i : ℕ) {j : ℕ} (hj : j < 8) : (n / 256 ^ i % 256).testBit j = n.testBit (8 * i + j) := by
  have hpow : 256 ^ i = 2 ^ (8 * i) := by
    rw [Nat.pow_mul]
  rw [hpow, show 256 = 2 ^ 8 by rfl, Nat.testBit_mod_two_pow, Nat.testBit_div_two_pow]
  simp [hj, Nat.add_comm]

/-- **A swap reverses the bytes.** -/
theorem SwapsBytes.leBytes (h : SwapsBytes k x y) : leBytes k y = (leBytes k x).reverse := by
  apply List.ext_getElem
  · simp
  intro i hi _
  rw [List.getElem_reverse, leBytes_getElem, leBytes_getElem]
  rw [leBytes_length] at hi
  apply UInt8.toNat_inj.1
  rw [UInt8.toNat_ofNat', UInt8.toNat_ofNat', leBytes_length]
  apply Nat.eq_of_testBit_eq
  intro j
  by_cases hj : j < 8
  · have hswap := h (8 * i + j) (by omega)
    rw [show (8 * i + j) / 8 = i by omega, show (8 * i + j) % 8 = j by omega] at hswap
    rw [testBit_byte y i hj, testBit_byte x _ hj, hswap]
  · -- neither byte has a bit there
    have hbit : ∀ n : ℕ, (n % 256).testBit j = false := by
      intro n
      rw [show 256 = 2 ^ 8 by rfl, Nat.testBit_mod_two_pow]
      simp [hj]
    rw [hbit, hbit]

end Bytes

/-- The order in which a host has the bytes of a word. -/
inductive Host where
  | littleEndian
  | bigEndian
  deriving DecidableEq, Repr

/-- The bytes of a word, the least significant one first, as the host has them, and back. -/
def Host.order : Host → List UInt8 → List UInt8
  | .littleEndian, bs => bs
  | .bigEndian, bs => bs.reverse

/-- A type of words of `size` bytes: the numbers below `256 ^ size`, with the swap of their bytes. -/
class Word (W : Type) where
  size : ℕ
  toNat : W → ℕ
  ofNat : ℕ → W
  byteSwap : W → W
  toNat_lt : ∀ x, toNat x < 256 ^ size
  ofNat_toNat : ∀ x, ofNat (toNat x) = x
  toNat_ofNat : ∀ n < 256 ^ size, toNat (ofNat n) = n
  swaps : ∀ x, SwapsBytes size (toNat x) (toNat (byteSwap x))

namespace Host

variable {W : Type} [Word W] (host : Host)

/-- The bytes of a word in the memory of the host. -/
def store (x : W) : List UInt8 := host.order (leBytes (Word.size W) (Word.toNat x))

/-- The word that some bytes in the memory of the host are. -/
def load (bs : List UInt8) : W := Word.ofNat (leNat (host.order bs))

/-- The word that has, on this host, its bytes with the least significant one first. -/
def toLittle (x : W) : W :=
  match host with
  | .littleEndian => x
  | .bigEndian => Word.byteSwap x

/-- The word that has, on this host, its bytes with the most significant one first. -/
def toBig (x : W) : W :=
  match host with
  | .littleEndian => Word.byteSwap x
  | .bigEndian => x

/-- The bytes of a word, the least significant one first. -/
def little (x : W) : List UInt8 := leBytes (Word.size W) (Word.toNat x)

/-- The bytes of a word, the most significant one first. -/
def big (x : W) : List UInt8 := (little x).reverse

@[simp] lemma little_length (x : W) : (little x).length = Word.size W := leBytes_length _ _

@[simp] lemma big_length (x : W) : (big x).length = Word.size W := by
  simp [big]

lemma little_byteSwap (x : W) : little (Word.byteSwap x) = big x := (Word.swaps x).leBytes

lemma big_byteSwap (x : W) : big (Word.byteSwap x) = little x := by
  rw [big, little_byteSwap, big, List.reverse_reverse]

/-- **What is stored of a word in little order does not depend on the host.** -/
theorem store_toLittle (x : W) : host.store (host.toLittle x) = little x := by
  cases host with
  | littleEndian => rfl
  | bigEndian => exact big_byteSwap x

theorem store_toBig (x : W) : host.store (host.toBig x) = big x := by
  cases host with
  | littleEndian => exact little_byteSwap x
  | bigEndian => rfl

lemma ofNat_little (x : W) : Word.ofNat (leNat (little x)) = x := by
  rw [little, leNat_leBytes (Word.toNat_lt x), Word.ofNat_toNat]

lemma little_ofNat {bs : List UInt8} (h : bs.length = Word.size W) :
    little (Word.ofNat (leNat bs) : W) = bs := by
  rw [little, Word.toNat_ofNat _ (h ▸ leNat_lt bs), ← h, leBytes_leNat]

lemma little_inj {x y : W} (h : little x = little y) : x = y := by
  rw [← ofNat_little x, h, ofNat_little]

/-- **A word that is loaded and brought into little order** does not depend on the host. -/
theorem toLittle_load (x : W) : host.toLittle (host.load (little x)) = x := by
  apply little_inj
  cases host with
  | littleEndian => exact congrArg little (ofNat_little x)
  | bigEndian =>
    have hlen : (little x).reverse.length = Word.size W := by simp
    rw [toLittle, little_byteSwap, load, big, order, little_ofNat hlen, List.reverse_reverse]

theorem toBig_load (x : W) : host.toBig (host.load (big x)) = x := by
  apply little_inj
  cases host with
  | littleEndian =>
    rw [toBig, little_byteSwap, load, order, big, little_ofNat (big_length x), big, List.reverse_reverse]
  | bigEndian =>
    rw [toBig, load, order, big, List.reverse_reverse, ofNat_little]

end Host

end Zutils.Lib
