import Zutils.Base.IoBuffer2Spec
import Zutils.Lib.HostWord

/-!
# Runs of an `IOBuffer2`

`Fits` says when an operation keeps the invariant, and what has been written is kept along a run (`buffer_inv`).
-/

namespace Zutils

open Lib

namespace IOBuffer2

/-- The types of integers. -/
inductive Width where
  | w8 | w16 | w32 | w64
  deriving DecidableEq, Repr

/-- `sizeof`. -/
def Width.bytes : Width → ℕ
  | .w8 => 1
  | .w16 => 2
  | .w32 => 4
  | .w64 => 8

/-- The bytes of an integer of the type. -/
def Width.encode : Width → ℕ → List UInt8
  | .w8, val => hostBytes 1 (UInt8.ofNat val).toNat
  | .w16, val => hostBytes 2 (UInt16.ofNat val).toNat
  | .w32, val => hostBytes 4 (UInt32.ofNat val).toNat
  | .w64, val => hostBytes 8 (UInt64.ofNat val).toNat

/-- What is done to a buffer. A pointer that may be null is to an object with some contents. -/
inductive BufferOp where
  | readUint (w : Width) (val : Option (List UInt8))
  | readPeekUint (w : Width) (val : Option (List UInt8))
  | readOffsetUint (w : Width) (val : Option (List UInt8)) (offset : ℤ)
  | readString (val : Option (List UInt8))
  | readPeekString (val : Option (List UInt8))
  | readOffsetString (val : Option (List UInt8)) (offset : ℤ)
  | writeUint (w : Width) (val : ℕ)
  | writeOffsetUint (w : Width) (val : ℕ) (offset : ℤ)
  | writeString (val : List UInt8)
  | writeOffsetString (val : List UInt8) (offset : ℤ)
  | skipReadPos (size : ℤ)
  | seekReadPos (size : ℤ)
  | skipWritePos (size : ℤ)
  | seekWritePos (size : ℤ)
  | resize (size : ℤ)

section

variable (b : IOBuffer2) (mem : ℕ → UInt8)

def readUintOf : Width → Option (List UInt8) → Except BufferFault (Bool × Option (List UInt8) × IOBuffer2)
  | .w8 => b.readUint8
  | .w16 => b.readUint16
  | .w32 => b.readUint32
  | .w64 => b.readUint64

def readPeekUintOf : Width → Option (List UInt8) → Except BufferFault (Bool × Option (List UInt8) × IOBuffer2)
  | .w8 => b.readPeekUint8
  | .w16 => b.readPeekUint16
  | .w32 => b.readPeekUint32
  | .w64 => b.readPeekUint64

def readOffsetUintOf : Width → Option (List UInt8) → ℤ → Except BufferFault (Bool × Option (List UInt8))
  | .w8 => b.readOffsetUint8
  | .w16 => b.readOffsetUint16
  | .w32 => b.readOffsetUint32
  | .w64 => b.readOffsetUint64

def writeUintOf (val : ℕ) : Width → Except BufferFault IOBuffer2
  | .w8 => b.writeUint8 mem (UInt8.ofNat val)
  | .w16 => b.writeUint16 mem (UInt16.ofNat val)
  | .w32 => b.writeUint32 mem (UInt32.ofNat val)
  | .w64 => b.writeUint64 mem (UInt64.ofNat val)

def writeOffsetUintOf (val : ℕ) (offset : ℤ) : Width → Except BufferFault IOBuffer2
  | .w8 => b.writeOffsetUint8 mem (UInt8.ofNat val) offset
  | .w16 => b.writeOffsetUint16 mem (UInt16.ofNat val) offset
  | .w32 => b.writeOffsetUint32 mem (UInt32.ofNat val) offset
  | .w64 => b.writeOffsetUint64 mem (UInt64.ofNat val) offset

/-- The buffer after an operation. -/
def exec : BufferOp → Except BufferFault IOBuffer2
  | .readUint w val => do
    let (_, _, b) ← b.readUintOf w val
    return b
  | .readPeekUint w val => do
    let (_, _, b) ← b.readPeekUintOf w val
    return b
  | .readOffsetUint w val offset => do
    let _ ← b.readOffsetUintOf w val offset
    return b
  | .readString val => do
    let (_, _, b) ← b.readString val
    return b
  | .readPeekString val => do
    let _ ← b.readPeekString val
    return b
  | .readOffsetString val offset => do
    let _ ← b.readOffsetString val offset
    return b
  | .writeUint w val => b.writeUintOf mem val w
  | .writeOffsetUint w val offset => b.writeOffsetUintOf mem val offset w
  | .writeString val => b.writeString mem val
  | .writeOffsetString val offset => b.writeOffsetString mem val offset
  | .skipReadPos size => do
    let (_, b) ← b.skipReadPos size
    return b
  | .seekReadPos size => .ok (b.seekReadPos size).2
  | .skipWritePos size => do
    let (_, b) ← b.skipWritePos size
    return b
  | .seekWritePos size => .ok (b.seekWritePos size).2
  | .resize size => b.resize mem size

end

/-- The arguments are of their types, and offsets of writes are not negative. -/
def BufferOp.Allowed : BufferOp → Prop
  | .readUint w val | .readPeekUint w val => ∀ buf, val = some buf → buf.length = w.bytes
  | .readOffsetUint w val offset => (∀ buf, val = some buf → buf.length = w.bytes) ∧ IsInt offset
  | .readOffsetString _ offset => IsInt offset
  | .writeOffsetUint _ _ offset | .writeOffsetString _ offset => 0 ≤ offset ∧ IsInt offset
  | .skipReadPos size | .seekReadPos size | .skipWritePos size | .seekWritePos size | .resize size => IsInt size
  | .readString _ | .readPeekString _ | .writeUint _ _ | .writeString _ => True

/-- What has been written after an operation. A string is written behind its length. -/
def record (m : ℕ → Option UInt8) (b : IOBuffer2) : BufferOp → ℕ → Option UInt8
  | .writeUint w val => store m b.writePos.toNat (w.encode val)
  | .writeOffsetUint w val offset => store m (b.writePos + offset).toNat (w.encode val)
  | .writeString val =>
    store (store m b.writePos.toNat (hostBytes 4 (stringSize val).toNat)) (b.writePos + 4).toNat
      ((val ++ [0]).take (stringSize val).toNat)
  | .writeOffsetString val offset =>
    store (store m (b.writePos + offset).toNat (hostBytes 4 (stringSize val).toNat)) (b.writePos + (offset + 4)).toNat
      ((val ++ [0]).take (stringSize val).toNat)
  | _ => m

/-- **When an operation keeps the invariant**: sums are `int`s, a cursor is not set to a negative position, an integer
that is read at an offset has at least as many bytes as the offset says, and where a write makes room, the write cursor
is in the first half of the block. -/
def Fits (b : IOBuffer2) : BufferOp → Prop
  | .skipReadPos size => IsInt (size + b.readPos)
  | .skipWritePos size => IsInt (size + b.writePos)
  | .seekReadPos size | .seekWritePos size => 0 ≤ size
  | .readOffsetUint w val offset =>
    val = none ∨ ¬ (0 ≤ offset + w.bytes ∧ offset + w.bytes ≤ b.readableSize) ∨ 0 ≤ offset ∧ offset ≤ w.bytes
  | .writeUint w _ => RoomFits b.size b.writePos w.bytes 0
  | .writeOffsetUint w _ offset => RoomFits b.size b.writePos w.bytes offset
  | .writeString val => RoomFits b.size b.writePos 4 0 ∧
    RoomFits (grown b.size b.writePos 4) (b.writePos + 4) (toInt32 (stringSize val).toNat) 0
  | .writeOffsetString val offset => RoomFits b.size b.writePos 4 offset ∧
    RoomFits (grown b.size b.writePos (4 + offset)) b.writePos (toInt32 (stringSize val).toNat) (offset + 4)
  | _ => True

/-- What the operation should do. -/
def Keeps (m : ℕ → Option UInt8) (r : Except BufferFault IOBuffer2) : Prop := ∃ b', r = .ok b' ∧ Inv m b'

section Read

variable {m : ℕ → Option UInt8} {b : IOBuffer2}

lemma Inv.toSizeT_readableSize (h : Inv m b) : toSizeT b.readableSize = b.readableSize := by
  have hr := h.readPos_nonneg
  have hr' := h.readPos_le
  have hs := h.size_lt
  exact toSizeT_eq (by rw [readableSize]; omega) (by rw [readableSize]; omega)

lemma Inv.withReadPos (h : Inv m b) {x : ℤ} (h0 : 0 ≤ x) (hle : x ≤ b.size) : Inv m { b with readPos := x } :=
  ⟨h0, hle, h.writePos_nonneg, h.writePos_le, h.size_lt, h.size_le, h.agrees, h.below⟩

lemma Inv.withWritePos (h : Inv m b) {x : ℤ} (h0 : 0 ≤ x) (hle : x ≤ b.size) : Inv m { b with writePos := x } :=
  ⟨h.readPos_nonneg, h.readPos_le, h0, hle, h.size_lt, h.size_le, h.agrees, h.below⟩

lemma Inv.memcpy (h : Inv m b) (buf : List UInt8) {i n : ℤ} (hn : 0 ≤ n) (hi : 0 ≤ i) (hle : i + n ≤ b.readableSize)
    (hbuf : n ≤ buf.length) : ∃ data, Zutils.memcpy buf 0 b.data (b.readPos + i) n = .ok data ∧
      data.length = buf.length := by
  have hr := h.readPos_nonneg
  have hs := h.size_le
  rw [readableSize] at hle
  have hcopy : Zutils.memcpy buf 0 b.data (b.readPos + i) n = _ :=
    memcpy_eq hn le_rfl (by omega) (by omega) (by omega)
  exact ⟨_, hcopy, (memcpy_ok hcopy).2⟩

lemma Inv.readUint (h : Inv m b) {k : ℕ} {val : Option (List UInt8)} (hval : ∀ buf, val = some buf → buf.length = k)
    (isPeek : Bool) : ∃ ret val' b', b.readUint k isPeek val = .ok (ret, val', b') ∧ Inv m b' ∧
      ∀ buf, val' = some buf → buf.length = k := by
  have hr := h.readPos_nonneg
  have hr' := h.readPos_le
  have hlt := h.size_lt
  cases val with
  | none => exact ⟨false, none, b, rfl, h, by simp⟩
  | some buf =>
    have hlen := hval buf rfl
    rw [IOBuffer2.readUint, h.toSizeT_readableSize]
    dsimp only
    by_cases hk : (k : ℤ) > b.readableSize
    · exact ⟨false, some buf, b, if_pos hk, h, hval⟩
    · obtain ⟨data, hcopy, hdata⟩ := h.memcpy buf (Int.natCast_nonneg k) le_rfl (by omega) (by omega)
      rw [Int.add_zero] at hcopy
      rw [if_neg hk, readRaw, hcopy, ok_bind]
      rw [readableSize] at hk
      cases isPeek with
      | true =>
        refine ⟨true, some data, b, rfl, h, ?_⟩
        rintro _ ⟨⟩
        rw [hdata, hlen]
      | false =>
        refine ⟨true, some data, { b with readPos := b.readPos + k }, ?_, ?_, ?_⟩
        · rw [int_eq ⟨by omega, by omega⟩]
          rfl
        · exact h.withReadPos (by omega) (by omega)
        · rintro _ ⟨⟩
          rw [hdata, hlen]

/-- The host is a little-endian one. -/
lemma hostNat_eq_leNat (bs : List UInt8) : hostNat bs = leNat bs := by
  induction bs with
  | nil => rfl
  | cons c cs ih => rw [hostNat, leNat_cons, ih]

lemma hostNat_lt (bs : List UInt8) : hostNat bs < 256 ^ bs.length := by
  rw [hostNat_eq_leNat]
  exact leNat_lt bs

lemma Inv.peekStringSize (h : Inv m b) : ∃ n, b.peekStringSize = .ok n ∧ n < 2 ^ 32 := by
  obtain ⟨ret, val, b', hread, -, hval⟩ : ∃ ret val b', b.readUint 4 true (some (hostBytes 4 0)) = .ok (ret, val, b') ∧
      Inv m b' ∧ ∀ buf, val = some buf → buf.length = 4 :=
    h.readUint (by rintro _ ⟨⟩; exact hostBytes_length 4 0) true
  rw [IOBuffer2.peekStringSize, readPeekUint32, hread, ok_bind]
  refine ⟨_, rfl, ?_⟩
  cases val with
  | none => decide
  | some buf =>
    have hlt := hostNat_lt buf
    rw [hval buf rfl] at hlt
    exact hlt

lemma resize_length (val : List UInt8) (n : ℕ) : (Zutils.resize val n).length = n := by
  rw [Zutils.resize, List.length_append, List.length_take, List.length_replicate]
  omega

lemma Inv.readText (h : Inv m b) {n : ℕ} {i : ℤ} (hi : 0 ≤ i) (hle : n + i ≤ b.readableSize) (val : List UInt8) :
    ∃ data, b.readOffsetRaw (Zutils.resize val n) i (toInt32 n) = .ok data := by
  have hr := h.readPos_nonneg
  have hlt := h.size_lt
  have hn : (n : ℤ) < 2 ^ 31 := by
    rw [readableSize] at hle
    omega
  rw [toInt32_eq ⟨by omega, hn⟩, readOffsetRaw]
  have hbuf : (n : ℤ) ≤ (Zutils.resize val n).length := by rw [resize_length]
  obtain ⟨data, hcopy, -⟩ := h.memcpy _ (Int.natCast_nonneg n) hi (by omega) hbuf
  exact ⟨data, hcopy⟩

lemma Inv.readPeekString (h : Inv m b) (val : Option (List UInt8)) : ∃ r, b.readPeekString val = .ok r := by
  cases val with
  | none => exact ⟨_, rfl⟩
  | some val =>
    obtain ⟨n, hn, hlt⟩ := h.peekStringSize
    rw [IOBuffer2.readPeekString, h.toSizeT_readableSize, hn]
    split
    · exact ⟨_, rfl⟩
    · rw [ok_bind, toSizeT_eq (by omega) (by omega)]
      split
      · exact ⟨_, rfl⟩
      · obtain ⟨data, hread⟩ := h.readText (n := n) (show (0 : ℤ) ≤ 4 by decide) (by omega) val
        rw [hread]
        exact ⟨_, rfl⟩

lemma Inv.skipReadPos (h : Inv m b) {n : ℤ} (hn : IsInt (n + b.readPos)) :
    ∃ ret b', b.skipReadPos n = .ok (ret, b') ∧ Inv m b' := by
  rw [IOBuffer2.skipReadPos, int_eq hn, ok_bind]
  split
  · exact ⟨_, _, rfl, h⟩
  · exact ⟨_, _, rfl, h.withReadPos (by omega) (by omega)⟩

lemma Inv.readString (h : Inv m b) (val : Option (List UInt8)) :
    ∃ ret val' b', b.readString val = .ok (ret, val', b') ∧ Inv m b' := by
  cases val with
  | none => exact ⟨_, _, _, rfl, h⟩
  | some val =>
    obtain ⟨n, hn, hlt⟩ := h.peekStringSize
    rw [IOBuffer2.readString, h.toSizeT_readableSize, hn]
    split
    · exact ⟨_, _, _, rfl, h⟩
    · rw [ok_bind, toSizeT_eq (by omega) (by omega)]
      split
      · exact ⟨_, _, _, rfl, h⟩
      · obtain ⟨data, hread⟩ := h.readText (n := n) (show (0 : ℤ) ≤ 4 by decide) (by omega) val
        have hr := h.readPos_nonneg
        have hr' := h.readPos_le
        have hs := h.size_lt
        have hle : (n : ℤ) + 4 ≤ b.size - b.readPos := by rename_i hnot; rw [← readableSize]; omega
        obtain ⟨ret, b', hskip, hinv⟩ := h.skipReadPos (n := n + 4) ⟨by omega, by omega⟩
        rw [hread, ok_bind, toInt32_eq ⟨by omega, by omega⟩, hskip]
        exact ⟨_, _, _, rfl, hinv⟩

/-- With an offset the sum is compared in 64 bits, where a negative one is too large. -/
lemma Inv.toSizeT_le (h : Inv m b) {x : ℤ} (hlow : -2 ^ 32 ≤ x) (hhigh : x < 2 ^ 63) :
    ¬ toSizeT x > toSizeT b.readableSize ↔ 0 ≤ x ∧ x ≤ b.readableSize := by
  have hr := h.readPos_nonneg
  have hlt := h.size_lt
  rw [h.toSizeT_readableSize, readableSize]
  by_cases h0 : 0 ≤ x
  · rw [toSizeT_eq h0 (by omega)]
    omega
  · have hneg := toSizeT_neg (by omega) hlow
    omega

lemma Inv.readOffsetString (h : Inv m b) (val : Option (List UInt8)) {offset : ℤ} (hoffset : IsInt offset) :
    ∃ r, b.readOffsetString val offset = .ok r := by
  obtain ⟨hlow, hhigh⟩ := hoffset
  cases val with
  | none => exact ⟨_, rfl⟩
  | some val =>
    obtain ⟨n, hn, hlt⟩ := h.peekStringSize
    rw [IOBuffer2.readOffsetString, hn]
    split
    · exact ⟨_, rfl⟩
    · rename_i hfirst
      obtain ⟨h0, hle⟩ := (h.toSizeT_le (by omega) (by omega)).1 hfirst
      rw [ok_bind]
      split
      · exact ⟨_, rfl⟩
      · rename_i hsecond
        obtain ⟨-, hle'⟩ := (h.toSizeT_le (by omega) (by omega)).1 hsecond
        have hr := h.readPos_nonneg
        have hs := h.size_lt
        rw [readableSize] at hle
        obtain ⟨data, hread⟩ := h.readText (n := n) (i := 4 + offset) h0 (by omega) val
        rw [toSizeT_eq h0 (by omega), toInt32_eq ⟨by omega, by omega⟩, hread]
        exact ⟨_, rfl⟩

/-- **Reading an integer at an offset** stays in the block and in the integer if and only if it is refused, or the
offset is not larger than the integer. -/
lemma Inv.readOffsetUint (h : Inv m b) {k : ℕ} (hk : k ≤ 8) {val : Option (List UInt8)}
    (hval : ∀ buf, val = some buf → buf.length = k) {offset : ℤ} (hoffset : IsInt offset) :
    (∃ r, b.readOffsetUint k val offset = .ok r) ↔
      val = none ∨ ¬ (0 ≤ offset + k ∧ offset + k ≤ b.readableSize) ∨ 0 ≤ offset ∧ offset ≤ k := by
  obtain ⟨hlow, hhigh⟩ := hoffset
  cases val with
  | none => exact iff_of_true ⟨_, rfl⟩ (.inl rfl)
  | some buf =>
    have hlen := hval buf rfl
    have hcheck := h.toSizeT_le (show -2 ^ 32 ≤ offset + k by omega) (by omega)
    rw [IOBuffer2.readOffsetUint]
    by_cases hin : 0 ≤ offset + k ∧ offset + k ≤ b.readableSize
    · rw [if_neg (hcheck.2 hin), readOffsetRaw]
      constructor
      · rintro ⟨r, hr⟩
        obtain ⟨data, hcopy, -⟩ := bind_eq_ok.1 hr
        obtain ⟨⟨h0, -, hle, -, -⟩, -⟩ := memcpy_ok hcopy
        exact .inr (.inr ⟨h0, by omega⟩)
      · rintro (hnone | hnot | ⟨h0, hle⟩)
        · cases hnone
        · exact absurd hin hnot
        · have hbuf : offset ≤ buf.length := by omega
          obtain ⟨data, hcopy, -⟩ := h.memcpy _ h0 (Int.natCast_nonneg k) (by omega) hbuf
          rw [hcopy]
          exact ⟨_, rfl⟩
    · rw [if_pos (by by_contra hnot; exact hin (hcheck.1 hnot))]
      exact iff_of_true ⟨_, rfl⟩ (.inr (.inl hin))

end Read

section Write

variable {m : ℕ → Option UInt8} {b b' : IOBuffer2} {mem : ℕ → UInt8} {val : List UInt8} {offset : ℤ}

lemma toInt32_nonneg {n : ℕ} (hn : n < 2 ^ 32) (h : 0 ≤ toInt32 n) : toInt32 n = n := by
  apply toInt32_eq
  refine ⟨by omega, ?_⟩
  by_contra hge
  rw [toInt32, Int.bmod_def] at h
  have hmod : (n : ℤ) % (2 ^ 32 : ℕ) = n := Int.emod_eq_of_lt (by omega) (by exact_mod_cast hn)
  rw [hmod] at h
  split at h <;> omega

lemma stringSize_spec (h : 0 ≤ toInt32 (stringSize val).toNat) :
    toInt32 (stringSize val).toNat = ((stringSize val).toNat : ℤ) ∧
      (stringSize val).toNat ≤ (val ++ [0]).length := by
  refine ⟨toInt32_nonneg (stringSize val).toNat_lt h, ?_⟩
  rw [stringSize, UInt32.toNat_ofNat', List.length_append]
  exact Nat.mod_le _ _

lemma le_hostBytes_length (v : ℕ) : (4 : ℤ) ≤ (hostBytes 4 v).length := by
  rw [hostBytes_length]
  rfl

lemma Inv.writeString (h : Inv m b) (hfits : Fits b (.writeString val)) (mem : ℕ → UInt8) :
    Keeps (record m b (.writeString val)) (b.writeString mem val) := by
  obtain ⟨hfirst, hsecond⟩ := hfits
  obtain ⟨hn, hbuf⟩ := stringSize_spec hsecond.1
  obtain ⟨b₁, hwrite, hinv, hsize, hpos⟩ := h.writeRaw hfirst (le_hostBytes_length (stringSize val).toNat) mem
  rw [← hsize, ← hpos] at hsecond
  obtain ⟨b₂, hwrite', hinv', -, -⟩ := hinv.writeRaw hsecond (by rw [hn]; exact_mod_cast hbuf) mem
  refine ⟨b₂, ?_, ?_⟩
  · rw [IOBuffer2.writeString, writeUint32, hwrite, ok_bind, hwrite']
  · rw [hpos, hn, Int.toNat_natCast] at hinv'
    exact hinv'

lemma writeString_ok (h : Inv m b) (hok : b.writeString mem val = .ok b') : Fits b (.writeString val) := by
  obtain ⟨b₁, hwrite, hwrite'⟩ := bind_eq_ok.1 hok
  have hfirst := writeRaw_ok h hwrite
  obtain ⟨b₂, hwrite₂, hinv, hsize, hpos⟩ := h.writeRaw hfirst (le_hostBytes_length (stringSize val).toNat) mem
  obtain rfl : b₁ = b₂ := Except.ok.inj (hwrite.symm.trans hwrite₂)
  have hsecond := writeRaw_ok hinv hwrite'
  rw [hsize, hpos] at hsecond
  exact ⟨hfirst, hsecond⟩

lemma toInt32_offset (h0 : 0 ≤ offset) (hlt : 4 + offset < 2 ^ 31) :
    toInt32 (toSizeT (offset + 4)) = offset + 4 := by
  rw [toSizeT_eq (by omega) (by omega), toInt32_eq ⟨by omega, by omega⟩]

lemma Inv.writeOffsetString (h : Inv m b) (h0 : 0 ≤ offset) (hfits : Fits b (.writeOffsetString val offset))
    (mem : ℕ → UInt8) : Keeps (record m b (.writeOffsetString val offset)) (b.writeOffsetString mem val offset) := by
  obtain ⟨hfirst, hsecond⟩ := hfits
  obtain ⟨hn, hbuf⟩ := stringSize_spec hsecond.1
  obtain ⟨b₁, hwrite, hinv, hsize, hpos⟩ := h.writeOffsetRaw h0 hfirst (le_hostBytes_length (stringSize val).toNat) mem
  rw [← hsize, ← hpos] at hsecond
  obtain ⟨b₂, hwrite', hinv', -, -⟩ := hinv.writeOffsetRaw (show 0 ≤ offset + 4 by omega) hsecond
    (by rw [hn]; exact_mod_cast hbuf) mem
  refine ⟨b₂, ?_, ?_⟩
  · rw [IOBuffer2.writeOffsetString, writeOffsetUint32, hwrite, ok_bind, toInt32_offset h0 hfirst.2.1, hwrite']
  · rw [hpos, hn, Int.toNat_natCast] at hinv'
    exact hinv'

lemma writeOffsetString_ok (h : Inv m b) (h0 : 0 ≤ offset) (hok : b.writeOffsetString mem val offset = .ok b') :
    Fits b (.writeOffsetString val offset) := by
  obtain ⟨b₁, hwrite, hwrite'⟩ := bind_eq_ok.1 hok
  have hfirst := writeOffsetRaw_ok h hwrite
  obtain ⟨b₂, hwrite₂, hinv, hsize, hpos⟩ := h.writeOffsetRaw h0 hfirst (le_hostBytes_length (stringSize val).toNat) mem
  obtain rfl : b₁ = b₂ := Except.ok.inj (hwrite.symm.trans hwrite₂)
  rw [toInt32_offset h0 hfirst.2.1] at hwrite'
  have hsecond := writeOffsetRaw_ok hinv hwrite'
  rw [hsize, hpos] at hsecond
  exact ⟨hfirst, hsecond⟩

lemma encode_length (w : Width) (v : ℕ) : (w.encode v).length = w.bytes := by
  cases w <;> exact hostBytes_length _ _

lemma le_encode_length (w : Width) (v : ℕ) : (w.bytes : ℤ) ≤ (w.encode v).length := by
  rw [encode_length]

lemma take_encode (w : Width) (v : ℕ) : (w.encode v).take (w.bytes : ℤ).toNat = w.encode v := by
  rw [List.take_of_length_le]
  rw [encode_length, Int.toNat_natCast]

lemma writeUintOf_eq (w : Width) (v : ℕ) : b.writeUintOf mem v w = b.writeRaw mem (w.encode v) w.bytes := by
  cases w <;> rfl

lemma writeOffsetUintOf_eq (w : Width) (v : ℕ) :
    b.writeOffsetUintOf mem v offset w = b.writeOffsetRaw mem (w.encode v) w.bytes offset := by
  cases w <;> rfl

lemma readUintOf_eq (w : Width) (buf : Option (List UInt8)) : b.readUintOf w buf = b.readUint w.bytes false buf := by
  cases w <;> rfl

lemma readPeekUintOf_eq (w : Width) (buf : Option (List UInt8)) :
    b.readPeekUintOf w buf = b.readUint w.bytes true buf := by
  cases w <;> rfl

lemma readOffsetUintOf_eq (w : Width) (buf : Option (List UInt8)) :
    b.readOffsetUintOf w buf offset = b.readOffsetUint w.bytes buf offset := by
  cases w <;> rfl

lemma Width.bytes_le (w : Width) : w.bytes ≤ 8 := by
  cases w <;> decide

lemma Inv.seek (h : Inv m b) {size : ℤ} (h0 : 0 ≤ size) :
    Inv m (b.seekReadPos size).2 ∧ Inv m (b.seekWritePos size).2 := by
  rw [seekReadPos, seekWritePos]
  split
  · exact ⟨h, h⟩
  · rename_i hnot
    have hle : size ≤ b.size := by omega
    exact ⟨h.withReadPos h0 hle, h.withWritePos h0 hle⟩

/-- A negative position is not refused. -/
lemma Inv.seek_neg (h : Inv m b) {size : ℤ} (h0 : size < 0) :
    (b.seekReadPos size).2.readPos = size ∧ (b.seekWritePos size).2.writePos = size := by
  have hr := h.readPos_nonneg
  have hr' := h.readPos_le
  have hnot : ¬ (b.size < 0 ∨ size ≥ b.size) := by omega
  rw [seekReadPos, seekWritePos, if_neg hnot, if_neg hnot]
  exact ⟨rfl, rfl⟩

lemma Inv.skipWritePos (h : Inv m b) {n : ℤ} (hn : IsInt (n + b.writePos)) :
    ∃ ret b', b.skipWritePos n = .ok (ret, b') ∧ Inv m b' := by
  rw [IOBuffer2.skipWritePos, int_eq hn, ok_bind]
  split
  · exact ⟨_, _, rfl, h⟩
  · exact ⟨_, _, rfl, h.withWritePos (by omega) (by omega)⟩

lemma skipReadPos_ok {n : ℤ} {r : Bool × IOBuffer2} (hok : b.skipReadPos n = .ok r) : IsInt (n + b.readPos) := by
  obtain ⟨pos, hint, -⟩ := bind_eq_ok.1 hok
  exact (int_ok hint).1

lemma skipWritePos_ok {n : ℤ} {r : Bool × IOBuffer2} (hok : b.skipWritePos n = .ok r) : IsInt (n + b.writePos) := by
  obtain ⟨pos, hint, -⟩ := bind_eq_ok.1 hok
  exact (int_ok hint).1

/-- **An operation keeps the invariant** if and only if it fits. -/
theorem exec_iff (h : Inv m b) (mem : ℕ → UInt8) (op : BufferOp) (hop : op.Allowed) :
    Keeps (record m b op) (b.exec mem op) ↔ Fits b op := by
  cases op with
  | readUint w val =>
    obtain ⟨_, _, b', hread, hinv, -⟩ := h.readUint hop false
    refine iff_of_true ⟨b', ?_, hinv⟩ trivial
    rw [exec, readUintOf_eq, hread]
    rfl
  | readPeekUint w val =>
    obtain ⟨_, _, b', hread, hinv, -⟩ := h.readUint hop true
    refine iff_of_true ⟨b', ?_, hinv⟩ trivial
    rw [exec, readPeekUintOf_eq, hread]
    rfl
  | readOffsetUint w val offset =>
    refine Iff.trans ?_ (h.readOffsetUint w.bytes_le hop.1 hop.2)
    rw [exec, readOffsetUintOf_eq]
    constructor
    · rintro ⟨b', hexec, -⟩
      obtain ⟨r, hread, -⟩ := bind_eq_ok.1 hexec
      exact ⟨r, hread⟩
    · rintro ⟨r, hread⟩
      refine ⟨b, ?_, h⟩
      rw [hread]
      rfl
  | readString val =>
    obtain ⟨_, _, b', hread, hinv⟩ := h.readString val
    refine iff_of_true ⟨b', ?_, hinv⟩ trivial
    rw [exec, hread]
    rfl
  | readPeekString val =>
    obtain ⟨r, hread⟩ := h.readPeekString val
    refine iff_of_true ⟨b, ?_, h⟩ trivial
    rw [exec, hread]
    rfl
  | readOffsetString val offset =>
    obtain ⟨r, hread⟩ := h.readOffsetString val hop
    refine iff_of_true ⟨b, ?_, h⟩ trivial
    rw [exec, hread]
    rfl
  | writeUint w val =>
    rw [exec, writeUintOf_eq]
    constructor
    · rintro ⟨b', hok, -⟩
      exact writeRaw_ok h hok
    · intro hfits
      obtain ⟨b', hwrite, hinv, -, -⟩ := h.writeRaw hfits (le_encode_length w val) mem
      rw [take_encode] at hinv
      exact ⟨b', hwrite, hinv⟩
  | writeOffsetUint w val offset =>
    rw [exec, writeOffsetUintOf_eq]
    constructor
    · rintro ⟨b', hok, -⟩
      exact writeOffsetRaw_ok h hok
    · intro hfits
      obtain ⟨b', hwrite, hinv, -, -⟩ := h.writeOffsetRaw hop.1 hfits (le_encode_length w val) mem
      rw [take_encode] at hinv
      exact ⟨b', hwrite, hinv⟩
  | writeString val =>
    constructor
    · rintro ⟨b', hok, -⟩
      exact writeString_ok h hok
    · intro hfits
      exact h.writeString hfits mem
  | writeOffsetString val offset =>
    constructor
    · rintro ⟨b', hok, -⟩
      exact writeOffsetString_ok h hop.1 hok
    · intro hfits
      exact h.writeOffsetString hop.1 hfits mem
  | skipReadPos size =>
    constructor
    · rintro ⟨b', hexec, -⟩
      obtain ⟨r, hskip, -⟩ := bind_eq_ok.1 hexec
      exact skipReadPos_ok hskip
    · intro hfits
      obtain ⟨ret, b', hskip, hinv⟩ := h.skipReadPos hfits
      refine ⟨b', ?_, hinv⟩
      rw [exec, hskip]
      rfl
  | seekReadPos size =>
    constructor
    · rintro ⟨b', hexec, hinv⟩
      by_contra hneg
      rw [← Except.ok.inj hexec] at hinv
      have hpos := hinv.readPos_nonneg
      rw [(h.seek_neg (Int.not_le.1 hneg)).1] at hpos
      exact hneg hpos
    · intro h0
      exact ⟨_, rfl, (h.seek h0).1⟩
  | skipWritePos size =>
    constructor
    · rintro ⟨b', hexec, -⟩
      obtain ⟨r, hskip, -⟩ := bind_eq_ok.1 hexec
      exact skipWritePos_ok hskip
    · intro hfits
      obtain ⟨ret, b', hskip, hinv⟩ := h.skipWritePos hfits
      refine ⟨b', ?_, hinv⟩
      rw [exec, hskip]
      rfl
  | seekWritePos size =>
    constructor
    · rintro ⟨b', hexec, hinv⟩
      by_contra hneg
      rw [← Except.ok.inj hexec] at hinv
      have hpos := hinv.writePos_nonneg
      rw [(h.seek_neg (Int.not_le.1 hneg)).2] at hpos
      exact hneg hpos
    · intro h0
      exact ⟨_, rfl, (h.seek h0).2⟩
  | resize size =>
    refine iff_of_true ?_ trivial
    rw [exec, IOBuffer2.resize]
    split
    · rename_i hlt
      obtain ⟨b', hmove, hinv, -⟩ := h.move (Int.le_of_lt hlt) hop.2 mem true
      exact ⟨b', hmove, hinv⟩
    · exact ⟨b, rfl, h⟩

end Write

/-! ### Runs -/

/-- A buffer after its constructor, with what it has been given. -/
inductive Created : IOBuffer2 → (ℕ → Option UInt8) → Prop
  | new (mem : ℕ → UInt8) : Created (.new mem) fun _ => none
  | ofSize (mem : ℕ → UInt8) {size : ℕ} : 0 < size → size < 2 ^ 31 → Created (.ofSize mem size) fun _ => none
  | ofData {data : List UInt8} {size : ℕ} : size ≤ data.length → size < 2 ^ 31 →
      Created (.ofData data size) fun i => (data.take size)[i]?

/-- An operation that fits, with what fresh memory holds. -/
def FitStep : IOBuffer2 × (ℕ → Option UInt8) → BufferOp × (ℕ → UInt8) → IOBuffer2 × (ℕ → Option UInt8) → Prop :=
  fun s a s' => a.1.Allowed ∧ Fits s.1 a.1 ∧ s.1.exec a.2 a.1 = .ok s'.1 ∧ s'.2 = record s.2 s.1 a.1

lemma Created.inv {b : IOBuffer2} {m : ℕ → Option UInt8} (h : Created b m) : Inv m b := by
  have hagrees : ∀ l : List UInt8, AgreesWith (fun _ => none) l := fun l i b h => by cases h
  have hbelow : ∀ n, StoredBelow (fun _ => (none : Option UInt8)) n := fun n i b h => by cases h
  cases h with
  | new mem =>
    have hlt : ((kDefaultIOBufferSize : ℕ) : ℤ) < 2 ^ 31 := by decide
    exact ⟨le_rfl, Int.natCast_nonneg _, le_rfl, Int.natCast_nonneg _, hlt, by rw [IOBuffer2.new, fresh_length],
      hagrees _, hbelow _⟩
  | ofSize mem h0 hlt =>
    rename_i size
    exact ⟨le_rfl, Int.natCast_nonneg size, le_rfl, Int.natCast_nonneg size, by show (size : ℤ) < 2 ^ 31; omega,
      by rw [IOBuffer2.ofSize, fresh_length], hagrees _, hbelow _⟩
  | ofData hle hlt =>
    rename_i data size
    exact ⟨le_rfl, Int.natCast_nonneg size, le_rfl, Int.natCast_nonneg size, by show (size : ℤ) < 2 ^ 31; omega,
      by show (size : ℤ) ≤ data.length; omega, agreesWith_prefix data size, storedBelow_prefix data size⟩

/-- **Along a run of operations that fit** the cursors stay in the block, and it has what has been written; and the next
operation keeps this if and only if it fits. -/
theorem buffer_inv {b₀ : IOBuffer2} {m₀ : ℕ → Option UInt8} (h₀ : Created b₀ m₀) {as : List (BufferOp × (ℕ → UInt8))}
    {b : IOBuffer2} {m : ℕ → Option UInt8} (hrun : Run FitStep (b₀, m₀) as (b, m)) :
    Inv m b ∧ ∀ op mem, op.Allowed → (Keeps (record m b op) (b.exec mem op) ↔ Fits b op) := by
  have hinv : Inv m b := by
    refine hrun.inv (P := fun _ s => Inv s.2 s.1) h₀.inv ?_
    rintro - ⟨b, m⟩ ⟨op, mem⟩ ⟨b', m'⟩ hinv ⟨hop, hfits, hexec, rfl⟩
    obtain ⟨b'', hexec', hinv'⟩ := (exec_iff hinv mem op hop).2 hfits
    obtain rfl : b' = b'' := Except.ok.inj (hexec.symm.trans hexec')
    exact hinv'
  exact ⟨hinv, fun op mem hop => exec_iff hinv mem op hop⟩

/-- The buffer of somebody else's two bytes grows when an integer is written. -/
theorem buffer_inv_grown : ∃ b m, Run FitStep (ofData [1, 2] 2, fun i => ([1, 2] : List UInt8)[i]?)
      [(.writeUint .w32 7, fun _ => 0)] (b, m) ∧ b.data = [7, 0, 0, 0, 0, 0] ∧
    Inv m b ∧ ∀ op mem, op.Allowed → (Keeps (record m b op) (b.exec mem op) ↔ Fits b op) := by
  have hfits : Fits (ofData [1, 2] 2) (.writeUint .w32 7) := ⟨by decide, by decide, fun _ => ⟨by decide, by decide⟩⟩
  have hrun : Run FitStep (ofData [1, 2] 2, fun i => ([1, 2] : List UInt8)[i]?) [(.writeUint .w32 7, fun _ => 0)]
      (⟨[7, 0, 0, 0, 0, 0], 6, 0, 4, true⟩, _) := Run.nil.snoc ⟨trivial, hfits, rfl, rfl⟩
  exact ⟨_, _, hrun, rfl, buffer_inv (.ofData le_rfl (by decide)) hrun⟩

/-- A block of eight bytes that is full: the new size is that of what is to be written. -/
theorem growth_outside : Created (ofSize (fun _ => 0) 8) (fun _ => none) ∧
    (BufferOp.writeUint .w64 1).Allowed ∧ (BufferOp.writeUint .w8 2).Allowed ∧
    ((ofSize (fun _ => 0) 8).exec (fun _ => 0) (.writeUint .w64 1) >>= fun b => b.exec (fun _ => 0) (.writeUint .w8 2)) =
      .error .outOfBlock :=
  ⟨.ofSize _ (by decide) (by decide), trivial, trivial, rfl⟩

end IOBuffer2

end Zutils
