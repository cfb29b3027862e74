import Zutils.Base.ByteStreamBounds
import Zutils.Base.ByteStreamChecks
import Zutils.Base.ByteStreamMemory
import Zutils.Lib.Run

/-!
# What an operation on a byte stream can do

Any operation on a stream that returns, whether it succeeds or not. A read moves the cursor, at most to `max_len_`, and
sets or keeps `failed_` (`Moves`); the memory and the lengths stay. What `WriteRawData` does is one of four things
(`writeRawData_cases`), and a property that its own step keeps is kept by every write (`writePieces_keeps`).
-/

namespace Zutils.ByteStream

open Zutils.Lib

/-- What is done to a stream. -/
inductive StreamOp where
  | insert (v : Value)
  | writeString (str : List UInt8)
  | writeRawData (data : List UInt8) (dataLen : UInt32)
  | read (op : ReadOp)
  | readCString (str : List UInt8) (dataLen : UInt32)

/-- The stream after an operation. -/
def StreamOp.exec (alloc : Alloc) (s : ByteStream) : StreamOp → Except StreamFault ByteStream
  | insert v => s.insert alloc v
  | writeString str => do
    let (_, s) ← s.writeString alloc str
    return s
  | writeRawData data dataLen => do
    let (_, s) ← s.writeRawData alloc data dataLen
    return s
  | read op => s.exec op
  | readCString str dataLen => do
    let (_, _, s) ← s.readCString str dataLen
    return s

/-- An operation with the memory that it meets. -/
def Operates (alloc : Heap → Alloc) (s : ByteStream) (op : Heap × StreamOp) (s' : ByteStream) : Prop :=
  op.2.exec (alloc op.1) s = .ok s'

/-! ### Reads -/

/-- The cursor has moved, but not beyond `max_len_`. -/
def Moves (s s' : ByteStream) : Prop :=
  ∃ pos failed, s' = { s with currentPos := pos, failed := failed } ∧ (pos = s.currentPos ∨ pos.toNat ≤ s.maxLen.toNat)

section Reads

variable {s s' s'' : ByteStream} {n : UInt32} {r : Option (List UInt8)}

lemma Moves.refl (s : ByteStream) : Moves s s := ⟨s.currentPos, s.failed, rfl, .inl rfl⟩

lemma Moves.fail (s : ByteStream) : Moves s { s with failed := true } := ⟨s.currentPos, true, rfl, .inl rfl⟩

lemma Moves.trans (h : Moves s s') (h' : Moves s' s'') : Moves s s'' := by
  obtain ⟨pos, failed, rfl, hpos⟩ := h
  obtain ⟨pos', failed', rfl, hpos'⟩ := h'
  refine ⟨pos', failed', rfl, ?_⟩
  rcases hpos' with rfl | hle
  · exact hpos
  · exact .inr hle

lemma Moves.advance (h : ¬ s.Rejects n) : Moves s (s.advance n) := by
  refine ⟨s.currentPos + n, s.failed, rfl, .inr ?_⟩
  unfold Rejects at h
  rw [gt_iff_lt, UInt32.lt_iff_toNat_lt] at h
  omega

lemma moves_of_readRawData (h : s.readRawData n = .ok (r, s')) : Moves s s' := by
  rcases hf : s.failed with _ | _
  · rw [readRawData_eq hf] at h
    split at h
    · obtain ⟨-, rfl⟩ := Prod.mk.inj (Except.ok.inj h)
      exact Moves.fail s
    · rename_i hrej
      split at h
      · obtain ⟨-, rfl⟩ := Prod.mk.inj (Except.ok.inj h)
        exact Moves.refl s
      · obtain ⟨data, -, h⟩ := bind_eq_ok.1 h
        obtain ⟨-, rfl⟩ := Prod.mk.inj (Except.ok.inj h)
        exact Moves.advance hrej
  · rw [readRawData_failed hf] at h
    obtain ⟨-, rfl⟩ := Prod.mk.inj (Except.ok.inj h)
    exact Moves.refl s

lemma moves_of_readByte {c : Option UInt8} (h : s.readByte = .ok (c, s')) : Moves s s' := by
  rw [readByte_eq] at h
  split at h
  · obtain ⟨-, rfl⟩ := Prod.mk.inj (Except.ok.inj h)
    exact Moves.fail s
  · rename_i hrej
    obtain ⟨data, -, h⟩ := bind_eq_ok.1 h
    obtain ⟨-, rfl⟩ := Prod.mk.inj (Except.ok.inj h)
    refine ⟨s.currentPos + 1, s.failed, rfl, .inr ?_⟩
    unfold RejectsByte at hrej
    have hmax := s.maxLen.toNat_lt
    rw [toNat_add_of_lt (show s.currentPos.toNat + (1 : UInt32).toNat < 2 ^ 32 by rw [UInt32.toNat_one]; omega),
      UInt32.toNat_one]
    omega

lemma moves_of_readString (h : s.readString = .ok (r, s')) : Moves s s' := by
  unfold readString at h
  obtain ⟨⟨ch, s₁⟩, hlen, h⟩ := bind_eq_ok.1 h
  have hmove := moves_of_readRawData hlen
  cases ch with
  | none =>
    obtain ⟨-, rfl⟩ := Prod.mk.inj (Except.ok.inj h)
    exact hmove
  | some ch =>
    refine hmove.trans ?_
    dsimp only at h
    rw [readChars_eq_ite] at h
    split at h
    · obtain ⟨-, rfl⟩ := Prod.mk.inj (Except.ok.inj h)
      exact Moves.fail s₁
    · rename_i hrej
      obtain ⟨data, -, h⟩ := bind_eq_ok.1 h
      obtain ⟨-, rfl⟩ := Prod.mk.inj (Except.ok.inj h)
      exact Moves.advance hrej

lemma moves_of_readInto {str str' : List UInt8} {ok : Bool} (h : s.readInto str n = .ok (ok, str', s')) :
    Moves s s' := by
  unfold readInto at h
  obtain ⟨⟨data, s₁⟩, hread, h⟩ := bind_eq_ok.1 h
  have hmove := moves_of_readRawData hread
  cases data with
  | none =>
    obtain ⟨-, h⟩ := Prod.mk.inj (Except.ok.inj h)
    obtain ⟨-, rfl⟩ := Prod.mk.inj h
    exact hmove
  | some data =>
    dsimp only at h
    split at h
    · obtain ⟨-, h⟩ := Prod.mk.inj (Except.ok.inj h)
      obtain ⟨-, rfl⟩ := Prod.mk.inj h
      exact hmove
    · cases h

lemma moves_of_readCString {str str' : List UInt8} {ok : Bool} (h : s.readCString str n = .ok (ok, str', s')) :
    Moves s s' := by
  unfold readCString at h
  obtain ⟨⟨ch, s₁⟩, hlen, h⟩ := bind_eq_ok.1 h
  have hmove := moves_of_readRawData hlen
  cases ch with
  | none =>
    obtain ⟨-, h⟩ := Prod.mk.inj (Except.ok.inj h)
    obtain ⟨-, rfl⟩ := Prod.mk.inj h
    exact hmove
  | some ch =>
    refine hmove.trans ?_
    dsimp only at h
    split at h
    · split at h
      · exact moves_of_readInto h
      · cases h
    · exact moves_of_readInto h

lemma moves_of_extract {dest v : Value} (h : s.extract dest = .ok (v, s')) : Moves s s' := by
  rw [extract_eq] at h
  obtain ⟨⟨r, s₁⟩, hfetch, h⟩ := bind_eq_ok.1 h
  obtain ⟨-, rfl⟩ := Prod.mk.inj (Except.ok.inj h)
  rcases dest.1.cases with ht | ⟨n, ht⟩ | ht
  · rw [fetch_byte ht] at hfetch
    obtain ⟨⟨c, s₂⟩, hbyte, hfetch⟩ := bind_eq_ok.1 hfetch
    obtain ⟨-, rfl⟩ := Prod.mk.inj (Except.ok.inj hfetch)
    exact moves_of_readByte hbyte
  · rw [fetch_raw ht] at hfetch
    exact moves_of_readRawData hfetch
  · rw [ht] at hfetch
    exact moves_of_readString hfetch

/-- **A read only moves the cursor.** -/
theorem moves_of_exec {op : ReadOp} (h : s.exec op = .ok s') : Moves s s' := by
  cases op with
  | extract dest =>
    obtain ⟨⟨v, s₁⟩, hex, h⟩ := bind_eq_ok.1 h
    obtain rfl := Except.ok.inj h
    exact moves_of_extract hex
  | readRawData n =>
    obtain ⟨⟨r, s₁⟩, hread, h⟩ := bind_eq_ok.1 h
    obtain rfl := Except.ok.inj h
    exact moves_of_readRawData hread
  | readString =>
    obtain ⟨⟨r, s₁⟩, hread, h⟩ := bind_eq_ok.1 h
    obtain rfl := Except.ok.inj h
    exact moves_of_readString hread
  | seek pos =>
    obtain rfl := Except.ok.inj h
    unfold ByteStream.seek
    split
    · exact Moves.refl s
    · rename_i hle
      rw [gt_iff_lt, UInt32.lt_iff_toNat_lt] at hle
      exact ⟨pos, false, rfl, .inr (by omega)⟩
  | skip pos =>
    obtain rfl := Except.ok.inj h
    unfold ByteStream.skip
    split
    · exact Moves.refl s
    · rename_i hle
      rw [gt_iff_lt, UInt32.lt_iff_toNat_lt] at hle
      exact ⟨s.currentPos + pos, false, rfl, .inr (by omega)⟩

end Reads

/-! ### Writes -/

section Writes

variable {alloc : Alloc} {s s' : ByteStream} {data : List UInt8} {n : UInt32} {ok : Bool}

/-- **What `WriteRawData` can do**: nothing, a `memcpy` to the buffer it has, one to the buffer that `Alloc` has made,
or what `Alloc` does when it fails. -/
theorem writeRawData_cases (h : s.writeRawData alloc data n = .ok (ok, s')) :
    s' = s ∨
    s.failed = false ∧ n ≠ 0 ∧ ¬ s.Rejects n ∧ s.putRawData data n = .ok (ok, s') ∨
    ∃ p s₁, s.failed = false ∧ n ≠ 0 ∧ s.Rejects n ∧ s.isNew = true ∧ alloc s (s.currentPos + n) = .ok (p, s₁) ∧
      (p = true ∧ s₁.putRawData data n = .ok (ok, s') ∨ p = false ∧ s' = s₁) := by
  unfold writeRawData at h
  split at h
  · obtain ⟨-, rfl⟩ := Prod.mk.inj (Except.ok.inj h)
    exact .inl rfl
  rename_i hf
  split at h
  · obtain ⟨-, rfl⟩ := Prod.mk.inj (Except.ok.inj h)
    exact .inl rfl
  rename_i h0
  have hf : s.failed = false := Bool.eq_false_iff.2 hf
  split at h
  · rename_i hrej
    split at h
    · rename_i hnew
      obtain ⟨⟨p, s₁⟩, halloc, h⟩ := bind_eq_ok.1 h
      refine .inr (.inr ⟨p, s₁, hf, h0, hrej, hnew, halloc, ?_⟩)
      cases p with
      | true => exact .inl ⟨rfl, h⟩
      | false =>
        obtain ⟨-, rfl⟩ := Prod.mk.inj (Except.ok.inj h)
        exact .inr ⟨rfl, rfl⟩
    · obtain ⟨-, rfl⟩ := Prod.mk.inj (Except.ok.inj h)
      exact .inl rfl
  · rename_i hrej
    exact .inr (.inl ⟨hf, h0, hrej, h⟩)

lemma writePieces_keeps (inv : ByteStream → Prop)
    (hraw : ∀ s s' data n ok, inv s → s.writeRawData alloc data n = .ok (ok, s') → inv s') (ds : List (List UInt8)) :
    ∀ s s' ok, inv s → s.writePieces alloc ds = .ok (ok, s') → inv s' := by
  induction ds with
  | nil =>
    intro s s' ok hs h
    obtain ⟨-, rfl⟩ := Prod.mk.inj (Except.ok.inj h)
    exact hs
  | cons data ds ih =>
    intro s s' ok hs h
    unfold writePieces at h
    obtain ⟨⟨ok₁, s₁⟩, hwrite, h⟩ := bind_eq_ok.1 h
    have hs₁ := hraw _ _ _ _ _ hs hwrite
    cases ok₁ with
    | true => exact ih s₁ s' ok hs₁ h
    | false =>
      obtain ⟨-, rfl⟩ := Prod.mk.inj (Except.ok.inj h)
      exact hs₁

/-- **A property that reads and the step of `WriteRawData` keep** is kept by every operation. -/
theorem exec_keeps {inv : ByteStream → Prop}
    (hraw : ∀ s s' data n ok, inv s → s.writeRawData alloc data n = .ok (ok, s') → inv s')
    (hread : ∀ s s', inv s → Moves s s' → inv s') {op : StreamOp} (hs : inv s) (h : op.exec alloc s = .ok s') :
    inv s' := by
  cases op with
  | insert v =>
    rw [StreamOp.exec, insert_eq] at h
    obtain ⟨⟨ok, s₁⟩, hwrite, h⟩ := bind_eq_ok.1 h
    obtain rfl := Except.ok.inj h
    exact writePieces_keeps inv hraw _ _ _ _ hs hwrite
  | writeString str =>
    rw [StreamOp.exec, writeString_eq] at h
    obtain ⟨⟨ok, s₁⟩, hwrite, h⟩ := bind_eq_ok.1 h
    obtain rfl := Except.ok.inj h
    exact writePieces_keeps inv hraw _ _ _ _ hs hwrite
  | writeRawData data n =>
    obtain ⟨⟨ok, s₁⟩, hwrite, h⟩ := bind_eq_ok.1 h
    obtain rfl := Except.ok.inj h
    exact hraw _ _ _ _ _ hs hwrite
  | read op => exact hread _ _ hs (moves_of_exec h)
  | readCString str n =>
    obtain ⟨⟨ok, str', s₁⟩, hread', h⟩ := bind_eq_ok.1 h
    obtain rfl := Except.ok.inj h
    exact hread _ _ hs (moves_of_readCString hread')

end Writes

end Zutils.ByteStream
