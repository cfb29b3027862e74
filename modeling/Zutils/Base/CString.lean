import Zutils.Base.Checked
import Mathlib.Data.List.GetD
import Mathlib.Data.List.TakeWhile
import Mathlib.Data.Int.Notation

/-!
# Strings of bytes

A C string is a pointer to bytes and a NUL. A read of it is at an index, and one behind the NUL is a fault. Numbers are
printed by `decimal` and `decimalInt`, as `"%lu"` and `"%d"` do.
-/

namespace Zutils

/-- A string of ASCII characters. -/
def ascii (cs : List Char) : List UInt8 := cs.map fun c => UInt8.ofNat c.toNat

/-- `"%lu"`. -/
def decimal (n : ℕ) : List UInt8 := ascii (Nat.toDigits 10 n)

/-- `"%d"`. -/
def decimalInt (n : ℤ) : List UInt8 := if n < 0 then 0x2D :: decimal n.natAbs else decimal n.natAbs

/-- The bytes in front of the NUL. -/
@[ext] structure CString where
  bytes : List UInt8
  nul_free : 0 ∉ bytes
  deriving DecidableEq

namespace CString

/-- `s[i]`. -/
def get (s : CString) (i : ℕ) : Except Fault UInt8 :=
  if i ≤ s.bytes.length then .ok (s.bytes.getD i 0) else .error .outOfRange

/-- The string that begins at `s + i`. -/
def offset (s : CString) (i : ℕ) : Except Fault (List UInt8) :=
  if i ≤ s.bytes.length then .ok (s.bytes.drop i) else .error .outOfRange

/-- The bytes from `s + i` to `s + j`. -/
def slice (s : CString) (i j : ℕ) : Except Fault (List UInt8) :=
  if i ≤ j ∧ j ≤ s.bytes.length then .ok ((s.bytes.drop i).take (j - i)) else .error .outOfRange

/-- `s.c_str()` of a `std::string`, up to the first NUL. -/
def ofString (s : List UInt8) : CString :=
  ⟨s.takeWhile (· ≠ 0), fun h => by simpa using List.mem_takeWhile_imp h⟩

variable {s : CString} {i j : ℕ}

lemma ofString_bytes {l : List UInt8} (h : 0 ∉ l) : (ofString l).bytes = l :=
  List.takeWhile_eq_self_iff.2 fun _ hc => decide_eq_true fun h0 => h (h0 ▸ hc)

/-- What stands behind the first NUL does not matter. -/
lemma ofString_append_of_mem {l : List UInt8} (h : 0 ∈ l) (rest : List UInt8) :
    (ofString (l ++ rest)).bytes = (ofString l).bytes := by
  induction l with
  | nil => cases h
  | cons c l ih =>
    by_cases h0 : c = 0
    · simp [ofString, h0]
    · have hmem : 0 ∈ l := (List.mem_cons.1 h).resolve_left fun hc => h0 hc.symm
      simpa [ofString, h0] using ih hmem

lemma ofString_append_of_not_mem {l : List UInt8} (h : 0 ∉ l) (rest : List UInt8) :
    (ofString (l ++ rest)).bytes = l ++ (ofString rest).bytes :=
  List.takeWhile_append_of_pos fun _ hc => decide_eq_true fun h0 => h (h0 ▸ hc)

lemma get_of_lt (h : i < s.bytes.length) : s.get i = .ok s.bytes[i] := by
  rw [get, if_pos (Nat.le_of_lt h), List.getD_eq_getElem _ _ h]

lemma get_length : s.get s.bytes.length = .ok 0 := by
  rw [get, if_pos (Nat.le_refl _), List.getD_eq_default _ _ (Nat.le_refl _)]

lemma getElem_ne_zero (h : i < s.bytes.length) : s.bytes[i] ≠ 0 :=
  fun h0 => s.nul_free (h0 ▸ List.getElem_mem h)

lemma offset_eq (h : i ≤ s.bytes.length) : s.offset i = .ok (s.bytes.drop i) := if_pos h

lemma slice_eq (hij : i ≤ j) (hj : j ≤ s.bytes.length) : s.slice i j = .ok ((s.bytes.drop i).take (j - i)) :=
  if_pos ⟨hij, hj⟩

end CString

end Zutils
