import Zutils.Base.ByteOrder
import Zutils.Base.Checked
import Mathlib.Data.List.TakeDrop
import Mathlib.Tactic.Common

/-!
# Compressed data with a header (`base2/zlib_compress.cc`)

`Compress` puts the length of the data before what `compress2` makes of them, or `0xFFFFFFFF` before the data themselves if
that fails. The functions of zlib are parameters (`Zlib`), with what is known of them (`Zlib.Lawful`). A `uLong` has 32
bits, as the casts of the code assume, and `new` does not fail.

`UnCompress` gives zlib `*out_len` as the length of the compressed data, and does not set it: so what was compressed comes
back, with its length, if and only if the caller has put that length there before, and the compressed data have it too
(`roundTrip_iff`).
-/

namespace Zutils

/-- `compress2` with the level 5, for data and the room of its output, and `uncompress`, for the bytes that it is given and
the room of its output; `none` is a result that is not `Z_OK`. -/
structure Zlib where
  compress2 : List UInt8 → ℕ → Option (List UInt8)
  uncompress : List UInt8 → ℕ → Option (List UInt8)

/-- What is compressed fits, and data are restored from precisely the bytes to which they were compressed. -/
structure Zlib.Lawful (zlib : Zlib) : Prop where
  fits : ∀ {data room bytes}, zlib.compress2 data room = some bytes → bytes.length ≤ room
  restores : ∀ {data room bytes}, zlib.compress2 data room = some bytes →
    ∀ src room', zlib.uncompress src room' = some data ↔ src = bytes ∧ data.length ≤ room'

namespace ZlibCompress

/-- The header of data that are stored as they are. -/
def kStored : UInt32 := 0xFFFFFFFF

/-- `in_len + (in_len / 1000) + 12`. -/
def room (inLen : ℕ) : ℕ := (inLen + inLen / 1000 + 12) % 2 ^ 32

section

variable (zlib : Zlib)

/-- `Compress1`: what `compress2` has written behind the header, and `*out_len`. After a failure that length is not used. -/
def compress1 (inData : List UInt8) : Option (List UInt8) × ℕ :=
  match zlib.compress2 inData (room inData.length) with
  | some bytes => (some bytes, (bytes.length + 4) % 2 ^ 32)
  | none => (none, (room inData.length + 4) % 2 ^ 32)

/-- `Compress`: the bytes at `*out_data`, and `*out_len`. -/
def compress (inData : List UInt8) : Except Fault (List UInt8 × ℕ) :=
  match compress1 zlib inData with
  | (some bytes, outLen) => .ok (put32 (UInt32.ofNat inData.length) ++ bytes, outLen)
  | (none, _) =>
    -- The data are copied into the room for what is compressed.
    if inData.length ≤ room inData.length then .ok (put32 kStored ++ inData, (inData.length + 4) % 2 ^ 32)
    else .error .outOfRange

/-- `UnCompress1`, for the bytes that may be read, `in_len` and `*out_len`. -/
def unCompress1 (inData : List UInt8) (inLen outLen : ℕ) : Except Fault (Option (List UInt8)) :=
  let uLen := get32 inData 0
  if uLen = kStored then
    if inLen ≤ inData.length then .ok (some ((inData.drop 4).take (inLen - 4))) else .error .outOfRange
  else if 4 + outLen ≤ inData.length then .ok (zlib.uncompress ((inData.drop 4).take outLen) uLen.toNat)
  else .error .outOfRange

/-- `UnCompress`: its result, what is at `*out_data`, and `*out_len`, which it leaves as it was. -/
def unCompress (inData : List UInt8) (inLen outLen : ℕ) : Except Fault (Bool × Option (List UInt8) × ℕ) :=
  if inLen ≥ 4 then do
    let outData ← unCompress1 zlib inData inLen outLen
    return (outData.isSome, outData, outLen)
  else .ok (false, none, outLen)

/-- **The round trip** of data, with what is in `*out_len` before. -/
def RoundTrip (data : List UInt8) (outLen : ℕ) : Prop :=
  ∃ bytes len, compress zlib data = .ok (bytes, len) ∧
    unCompress zlib bytes len outLen = .ok (true, some data, data.length)

end

variable {zlib : Zlib} {data bytes : List UInt8} {outLen : ℕ}

lemma get32_header (v : UInt32) (bytes : List UInt8) : get32 (put32 v ++ bytes) 0 = v := by
  simpa using get32_put32 [] bytes v

lemma length_header (v : UInt32) (bytes : List UInt8) : (put32 v ++ bytes).length = 4 + bytes.length := by
  simp [put32]
  omega

lemma drop_header (v : UInt32) (bytes : List UInt8) : (put32 v ++ bytes).drop 4 = bytes := rfl

/-- The length of the data is not taken for the header of stored ones. -/
lemma ofNat_ne_stored (h : data.length < 2 ^ 32 - 1) : UInt32.ofNat data.length ≠ kStored := by
  intro heq
  have hnat := congrArg UInt32.toNat heq
  rw [UInt32.toNat_ofNat_of_lt' (by simp only [UInt32.size]; omega)] at hnat
  simp [kStored] at hnat
  omega

/-- **Stored data** come back. Their length does if it was there before. -/
lemma roundTrip_stored (hlen : data.length + data.length / 1000 + 16 < 2 ^ 32)
    (hstored : zlib.compress2 data (room data.length) = none) : RoundTrip zlib data outLen ↔ outLen = data.length := by
  have hroom : data.length ≤ room data.length := by
    rw [room, Nat.mod_eq_of_lt (by omega)]
    omega
  have hcompress : compress zlib data = .ok (put32 kStored ++ data, data.length + 4) := by
    simp only [compress, compress1, hstored, hroom, if_true]
    rw [Nat.mod_eq_of_lt (by omega)]
  have hun : unCompress zlib (put32 kStored ++ data) (data.length + 4) outLen = .ok (true, some data, outLen) := by
    have hone : unCompress1 zlib (put32 kStored ++ data) (data.length + 4) outLen = .ok (some data) := by
      rw [unCompress1, get32_header, if_pos rfl, length_header, if_pos (by omega), drop_header]
      simp
    rw [unCompress, if_pos (Nat.le_add_left 4 _), hone]
    rfl
  constructor
  · rintro ⟨bytes, len, hbytes, hback⟩
    obtain ⟨rfl, rfl⟩ := Prod.mk.inj (Except.ok.inj (hcompress.symm.trans hbytes))
    exact (Prod.mk.inj (Prod.mk.inj (Except.ok.inj (hun.symm.trans hback))).2).2
  · rintro rfl
    exact ⟨_, _, hcompress, hun⟩

/-- **Compressed data** come back if zlib is given their length, which must be that of the data. -/
lemma roundTrip_compressed (hzlib : zlib.Lawful) (hlen : data.length + data.length / 1000 + 16 < 2 ^ 32)
    (hbytes : zlib.compress2 data (room data.length) = some bytes) :
    RoundTrip zlib data outLen ↔ outLen = data.length ∧ bytes.length = data.length := by
  have hfits := hzlib.fits hbytes
  rw [room, Nat.mod_eq_of_lt (by omega)] at hfits
  have hcompress : compress zlib data = .ok (put32 (UInt32.ofNat data.length) ++ bytes, bytes.length + 4) := by
    simp only [compress, compress1, hbytes]
    rw [Nat.mod_eq_of_lt (by omega)]
  have hheader : (UInt32.ofNat data.length).toNat = data.length :=
    UInt32.toNat_ofNat_of_lt' (by simp only [UInt32.size]; omega)
  have hone : unCompress1 zlib (put32 (UInt32.ofNat data.length) ++ bytes) (bytes.length + 4) outLen =
      if outLen ≤ bytes.length then .ok (zlib.uncompress (bytes.take outLen) data.length) else .error .outOfRange := by
    rw [unCompress1, get32_header, if_neg (ofNat_ne_stored (by omega)), hheader, length_header, drop_header]
    simp only [Nat.add_le_add_iff_left]
  have hrestores : zlib.uncompress (bytes.take outLen) data.length = some data ↔ bytes.length ≤ outLen := by
    rw [hzlib.restores hbytes, List.take_eq_self_iff bytes]
    simp
  have hiff : unCompress zlib (put32 (UInt32.ofNat data.length) ++ bytes) (bytes.length + 4) outLen =
      .ok (true, some data, data.length) ↔ outLen = data.length ∧ bytes.length = data.length := by
    rw [unCompress, if_pos (Nat.le_add_left 4 _), hone]
    by_cases hle : outLen ≤ bytes.length
    · rw [if_pos hle]
      constructor
      · intro heq
        obtain ⟨-, hdata, hout⟩ : _ ∧ zlib.uncompress (bytes.take outLen) data.length = some data ∧
            outLen = data.length := by
          simpa [bind, Except.bind, pure, Except.pure] using heq
        exact ⟨hout, by have := hrestores.1 hdata; omega⟩
      · rintro ⟨rfl, hbytesLen⟩
        have hdata := hrestores.2 hbytesLen.le
        simp [hdata, bind, Except.bind, pure, Except.pure]
    · rw [if_neg hle]
      refine iff_of_false (by simp [bind, Except.bind]) ?_
      omega
  constructor
  · rintro ⟨bytes', len, hbytes', hback⟩
    obtain ⟨rfl, rfl⟩ := Prod.mk.inj (Except.ok.inj (hcompress.symm.trans hbytes'))
    exact hiff.1 hback
  · intro hboth
    exact ⟨_, _, hcompress, hiff.2 hboth⟩

/-- **What was compressed comes back** if and only if the caller has put the length of the data into `*out_len` before, and
they were stored, or compressed to as many bytes. -/
theorem roundTrip_iff (hzlib : zlib.Lawful) (hlen : data.length + data.length / 1000 + 16 < 2 ^ 32) :
    RoundTrip zlib data outLen ↔
      outLen = data.length ∧ ∀ bytes, zlib.compress2 data (room data.length) = some bytes → bytes.length = data.length := by
  cases hbytes : zlib.compress2 data (room data.length) with
  | none => simpa using roundTrip_stored hlen hbytes
  | some bytes => simpa using roundTrip_compressed hzlib hlen hbytes

/-- Eleven letters, which are compressed to eleven bytes. -/
def letters : List UInt8 := List.replicate 11 0x61

def compressedLetters : List UInt8 := [120, 94, 75, 76, 132, 3, 0, 25, 13, 4, 44]

/-- What zlib does with the letters. -/
def lettersZlib : Zlib where
  compress2 data room := if data = letters ∧ 11 ≤ room then some compressedLetters else none
  uncompress src room := if src = compressedLetters ∧ 11 ≤ room then some letters else none

lemma lettersZlib_lawful : lettersZlib.Lawful where
  fits h := by
    obtain ⟨⟨-, hroom⟩, hbytes⟩ := Option.ite_none_right_eq_some.1 h
    obtain rfl := Option.some.inj hbytes
    exact hroom
  restores h := by
    obtain ⟨⟨rfl, -⟩, hbytes⟩ := Option.ite_none_right_eq_some.1 h
    obtain rfl := Option.some.inj hbytes
    intro src room
    simp only [lettersZlib, Option.ite_none_right_eq_some, and_true]
    rfl

/-- The letters come back to a caller who knows how many they are. -/
theorem roundTrip_letters : RoundTrip lettersZlib letters 11 :=
  (roundTrip_iff lettersZlib_lawful (by decide)).2 ⟨rfl, by decide⟩

/-- They do not come back to a caller who does not. -/
theorem roundTrip_fails : ¬ ∀ (zlib : Zlib) (data : List UInt8) (outLen : ℕ), zlib.Lawful →
    data.length + data.length / 1000 + 16 < 2 ^ 32 → RoundTrip zlib data outLen := by
  intro hall
  obtain ⟨bytes, len, hbytes, hback⟩ := hall lettersZlib letters 0 lettersZlib_lawful (by decide)
  obtain ⟨rfl, rfl⟩ := Prod.mk.inj (Except.ok.inj hbytes)
  revert hback
  decide

end ZlibCompress

end Zutils
