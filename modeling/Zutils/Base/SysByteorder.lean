import Zutils.Lib.HostWord
import Mathlib.Algebra.Order.Group.Nat
import Mathlib.Tactic.IntervalCases

/-!
# The byte order of the host (`base/sys_byteorder.h`)

`ByteSwap` as the source has it, with its masks and shifts, and the proof that it is a swap of the bytes: each bit of
the result is looked up. The conversions `ByteSwapToLE`, `NetToHost` and `HostToNet` swap on one kind of host and
leave the value on the other, `ARCH_CPU_LITTLE_ENDIAN`; the two between the host and the network do the same.
-/

namespace Zutils

open Lib

/-! ### `ByteSwap` -/

def byteSwap16 (x : UInt16) : UInt16 := ((x &&& 0x00ff) <<< 8) ||| ((x &&& 0xff00) >>> 8)

def byteSwap32 (x : UInt32) : UInt32 :=
  ((x &&& 0x000000ff) <<< 24) ||| ((x &&& 0x0000ff00) <<< 8) |||
    ((x &&& 0x00ff0000) >>> 8) ||| ((x &&& 0xff000000) >>> 24)

def byteSwap64 (x : UInt64) : UInt64 :=
  ((x &&& 0x00000000000000ff) <<< 56) |||
    ((x &&& 0x000000000000ff00) <<< 40) |||
    ((x &&& 0x0000000000ff0000) <<< 24) |||
    ((x &&& 0x00000000ff000000) <<< 8) |||
    ((x &&& 0x000000ff00000000) >>> 8) |||
    ((x &&& 0x0000ff0000000000) >>> 24) |||
    ((x &&& 0x00ff000000000000) >>> 40) |||
    ((x &&& 0xff00000000000000) >>> 56)

lemma byteSwap16_swaps (x : UInt16) : SwapsBytes 2 x.toNat (byteSwap16 x).toNat := by
  intro i hi
  change (byteSwap16 x).toBitVec.getLsbD i = x.toBitVec.getLsbD _
  unfold byteSwap16
  interval_cases i <;> simp

lemma byteSwap32_swaps (x : UInt32) : SwapsBytes 4 x.toNat (byteSwap32 x).toNat := by
  intro i hi
  change (byteSwap32 x).toBitVec.getLsbD i = x.toBitVec.getLsbD _
  unfold byteSwap32
  interval_cases i <;> simp

lemma byteSwap64_swaps (x : UInt64) : SwapsBytes 8 x.toNat (byteSwap64 x).toNat := by
  intro i hi
  change (byteSwap64 x).toBitVec.getLsbD i = x.toBitVec.getLsbD _
  unfold byteSwap64
  interval_cases i <;> simp

/-! ### The words -/

/-- A byte has nothing to swap. -/
instance : Word UInt8 where
  size := 1
  toNat := UInt8.toNat
  ofNat := UInt8.ofNat
  byteSwap := id
  toNat_lt := UInt8.toNat_lt
  ofNat_toNat _ := UInt8.ofNat_toNat
  toNat_ofNat _ hn := UInt8.toNat_ofNat_of_lt' hn
  swaps x i hi := by simp [show i / 8 = 0 by omega, show i % 8 = i by omega]

instance : Word UInt16 where
  size := 2
  toNat := UInt16.toNat
  ofNat := UInt16.ofNat
  byteSwap := byteSwap16
  toNat_lt := UInt16.toNat_lt
  ofNat_toNat _ := UInt16.ofNat_toNat
  toNat_ofNat _ hn := UInt16.toNat_ofNat_of_lt' hn
  swaps := byteSwap16_swaps

instance : Word UInt32 where
  size := 4
  toNat := UInt32.toNat
  ofNat := UInt32.ofNat
  byteSwap := byteSwap32
  toNat_lt := UInt32.toNat_lt
  ofNat_toNat _ := UInt32.ofNat_toNat
  toNat_ofNat _ hn := UInt32.toNat_ofNat_of_lt' hn
  swaps := byteSwap32_swaps

instance : Word UInt64 where
  size := 8
  toNat := UInt64.toNat
  ofNat := UInt64.ofNat
  byteSwap := byteSwap64
  toNat_lt := UInt64.toNat_lt
  ofNat_toNat _ := UInt64.ofNat_toNat
  toNat_ofNat _ hn := UInt64.toNat_ofNat_of_lt' hn
  swaps := byteSwap64_swaps

/-! ### The conversions -/

section Conversions

variable (host : Host)

def byteSwapToLE16 (x : UInt16) : UInt16 := host.toLittle x
def byteSwapToLE32 (x : UInt32) : UInt32 := host.toLittle x
def byteSwapToLE64 (x : UInt64) : UInt64 := host.toLittle x

def netToHost16 (x : UInt16) : UInt16 := host.toBig x
def netToHost32 (x : UInt32) : UInt32 := host.toBig x
def netToHost64 (x : UInt64) : UInt64 := host.toBig x

def hostToNet16 (x : UInt16) : UInt16 := host.toBig x
def hostToNet32 (x : UInt32) : UInt32 := host.toBig x
def hostToNet64 (x : UInt64) : UInt64 := host.toBig x

end Conversions

end Zutils
