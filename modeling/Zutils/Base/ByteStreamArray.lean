import Zutils.Base.ByteStreamMemory
import Zutils.Lib.Run

/-!
# A stream that grows is an array with a cursor

A stream that allocates its buffer, written to, moved about in and read, where every read is of what has been written.
It simulates a `Tape` (`Represents`): the reallocations, the capacity behind the data and the parts of it that have
not been written do not show. What shows is that a `Seek` or a `Skip` beyond the capacity is rejected; then nothing
changes.

The positions stay below `2 ^ 32 - 4096`, and each write gets the memory that it asks for (`ArrayOp.Assumed`).
-/

namespace Zutils.ByteStream

open Zutils.Lib

/-- What is done to the stream. A write meets its own memory. -/
inductive ArrayOp where
  | writeRawData (heap : Heap) (data : List UInt8)
  | insert (heap : Heap) (v : Value)
  | seek (pos : UInt32)
  | skip (pos : UInt32)
  | readRawData (dataLen : UInt32)

namespace ArrayOp

/-- What an operation answers, and the stream after it. The answer is nothing when it returns -1, and otherwise the
bytes that it stores for its caller. -/
def exec : ArrayOp → ByteStream → Except StreamFault (Option (List UInt8) × ByteStream)
  | writeRawData heap data, s => do
    let (ok, s) ← s.writeRawData (alloc heap) data (UInt32.ofNat data.length)
    return (if ok then some [] else none, s)
  | insert heap v, s => do
    let s ← s.insert (alloc heap) v
    return (some [], s)
  | seek pos, s => .ok (if (s.seek pos).1 = -1 then none else some [], (s.seek pos).2)
  | skip pos, s => .ok (if (s.skip pos).1 = -1 then none else some [], (s.skip pos).2)
  | readRawData dataLen, s => s.readRawData dataLen

/-- There is memory, the positions stay below `2 ^ 32 - 4096`, and what is read has been written. -/
def Assumed (t : Tape UInt8) : ArrayOp → Prop
  | writeRawData heap data => Gives heap ∧ t.cursor + data.length < 2 ^ 32 - 4096
  | insert heap v => Gives heap ∧ t.cursor + v.encode.length < 2 ^ 32 - 4096
  | seek pos => pos.toNat < 2 ^ 32 - 4096
  | skip pos => t.cursor + pos.toNat < 2 ^ 32 - 4096
  | readRawData dataLen => t.Written dataLen.toNat

/-- The answers of an array with a cursor. A `Seek` and a `Skip` can be rejected. -/
def Right (t : Tape UInt8) (ans : Option (List UInt8)) : ArrayOp → Prop
  | writeRawData .. | insert .. => ans = some []
  | seek _ | skip _ => ans = some [] ∨ ans = none
  | readRawData dataLen => ∃ bytes, ans = some bytes ∧ bytes.length = dataLen.toNat ∧ t.Holds bytes

/-- The array after an operation that gave this answer. -/
def follow (t : Tape UInt8) (ans : Option (List UInt8)) : ArrayOp → Tape UInt8
  | writeRawData _ data => t.write data
  | insert _ v => t.write v.encode
  | seek pos => if ans.isSome then t.seek pos.toNat else t
  | skip pos => if ans.isSome then t.seek (t.cursor + pos.toNat) else t
  | readRawData dataLen => t.seek (t.cursor + dataLen.toNat)

end ArrayOp

/-- The stream has not failed, and has in it what has been written to the array. -/
structure Represents (t : Tape UInt8) (s : ByteStream) : Prop where
  notFailed : s.failed = false
  growable : Growable s
  backed : s.block.isSome = true ∨ s.maxLen.toNat = 0
  cursor : s.currentPos.toNat = t.cursor
  extent : Extent t.cells s.dataLen.toNat
  agrees : AgreesWith t.cells (s.block.getD [])

section Array

variable {t : Tape UInt8} {s s' : ByteStream} {heap : Heap} {data : List UInt8} {n pos : UInt32}

lemma represents_new : Represents Tape.empty new where
  notFailed := rfl
  growable := growable_new
  backed := .inr rfl
  cursor := rfl
  extent := extent_empty
  agrees := fun _ _ h => (by cases h)

lemma Represents.size (h : Represents t s) : s.size = s.maxLen.toNat := by
  rcases h.backed with hb | h0
  · exact h.growable.size hb
  · have := h.growable.size_le
    omega

lemma Represents.stored (h : Represents t s) (hs : Stored s data s') (hg : Growable s')
    (hb : s'.block.isSome = true ∨ s'.maxLen.toNat = 0) : Represents (t.write data) s' := by
  obtain ⟨extra, hmem, hfit⟩ := hs.mem
  rw [h.growable.offset, Nat.zero_add, h.cursor] at hmem hfit
  refine ⟨hs.notFailed, hg, hb, ?_, ?_, ?_⟩
  · rw [hs.pos, h.cursor]
    rfl
  · rw [hs.len, h.cursor]
    unfold Tape.write
    split
    · rename_i hnil
      rw [hnil, store_nil]
      exact h.extent
    · rename_i hne
      exact h.extent.store hne
  · rw [hmem]
    refine AgreesWith.store (fun i b hi => ?_) hfit
    have hold := h.agrees i b hi
    rw [List.getElem?_append_left (List.getElem?_eq_some_iff.1 hold).1]
    exact hold

lemma writeRawData_backed (hg : Growable s) (hf : s.failed = false)
    (hb : s.block.isSome = true ∨ s.maxLen.toNat = 0) (hheap : Gives heap)
    (hroom : s.currentPos.toNat + data.length ≤ 2 ^ 32 - 4096) :
    ∃ s', s.writeRawData (alloc heap) data (UInt32.ofNat data.length) = .ok (true, s') ∧ Stored s data s' ∧
      Growable s' ∧ (s'.block.isSome = true ∨ s'.maxLen.toNat = 0) := by
  have hpos := hg.pos
  have hsize : s.maxLen.toNat ≤ s.size := by
    rcases hb with hb | h0
    · exact (hg.size hb).ge
    · omega
  by_cases hdata : data = []
  · subst hdata
    refine ⟨s, writeRawData_zero _ hf, stored_nil hf ?_, hg, hb⟩
    rw [hg.offset, ← ByteStream.size]
    omega
  · have hlen : 0 < data.length := List.length_pos_iff.2 hdata
    obtain ⟨s', hwrite, hstored, hg', hb'⟩ := writeRawData_growable data hg hf hheap hroom
      (by
        rcases hb with hb | h0
        · exact .inr (.inr hb)
        · exact .inr (.inl (by omega)))
      (fun _ => hpos.trans hsize)
    exact ⟨s', hwrite, hstored, hg', .inl (hb' hdata)⟩

/-- **Values are stored** in the array. -/
lemma Represents.writePieces (h : Represents t s) (hheap : Gives heap) (ds : List (List UInt8))
    (hroom : t.cursor + ds.flatten.length ≤ 2 ^ 32 - 4096) :
    ∃ s', s.writePieces (alloc heap) ds = .ok (true, s') ∧ Represents (t.write ds.flatten) s' := by
  obtain ⟨s', hwrite, hstored, hg, hb⟩ := writePieces_stored (alloc heap)
    (fun s => Growable s ∧ (s.block.isSome = true ∨ s.maxLen.toNat = 0)) (2 ^ 32 - 4096)
    (by
      rintro r ⟨hg, hb⟩
      have hpos := hg.pos
      have hle := hg.size_le
      rw [hg.offset, Nat.zero_add, ← ByteStream.size]
      rcases hb with hb | h0
      · rw [hg.size hb]
        exact hpos
      · omega)
    (fun r data hr hf hfit => writeRawData_backed hr.1 hf hr.2 hheap hfit)
    ds s ⟨h.growable, h.backed⟩ h.notFailed (by rw [h.cursor]; exact hroom)
  exact ⟨s', hwrite, h.stored hstored hg hb⟩

lemma Represents.move (h : Represents t s) (hpos : pos.toNat ≤ s.maxLen.toNat) :
    Represents (t.seek pos.toNat) { s with currentPos := pos, failed := false } where
  notFailed := rfl
  growable := ⟨h.growable.isNew, h.growable.offset, h.growable.size, h.growable.dvd, hpos, h.growable.len⟩
  backed := h.backed
  cursor := rfl
  extent := h.extent
  agrees := h.agrees

lemma toInt32_ne (h : Represents t s) : s.currentPos.toInt32 ≠ -1 := by
  intro heq
  have hpos := h.growable.pos
  have hmax := s.maxLen.toNat_lt
  obtain ⟨k, hk⟩ := h.growable.dvd
  rw [eq_of_toInt32 heq] at hpos
  have : (4294967295 : UInt32).toNat = 4294967295 := rfl
  omega

lemma Represents.seek (h : Represents t s) (pos : UInt32) :
    s.seek pos = (-1, s) ∨ (s.seek pos).1 ≠ -1 ∧ Represents (t.seek pos.toNat) (s.seek pos).2 := by
  rw [ByteStream.seek]
  split
  · exact .inl rfl
  · rename_i hle
    rw [gt_iff_lt, UInt32.lt_iff_toNat_lt] at hle
    exact .inr ⟨toInt32_ne h, h.move (by omega)⟩

lemma Represents.skip (h : Represents t s) (hroom : t.cursor + pos.toNat < 2 ^ 32) :
    s.skip pos = (-1, s) ∨ (s.skip pos).1 ≠ -1 ∧ Represents (t.seek (t.cursor + pos.toNat)) (s.skip pos).2 := by
  have hadd : (s.currentPos + pos).toNat = t.cursor + pos.toNat := by
    rw [toNat_add_of_lt (by rw [h.cursor]; exact hroom), h.cursor]
  rw [ByteStream.skip]
  split
  · exact .inl rfl
  · rename_i hle
    rw [gt_iff_lt, UInt32.lt_iff_toNat_lt] at hle
    have hmove := h.move (show (s.currentPos + pos).toNat ≤ s.maxLen.toNat by omega)
    rw [hadd] at hmove
    exact .inr ⟨show (0 : Int32) ≠ -1 by decide, hmove⟩

lemma Represents.read (h : Represents t s) (hn : t.Written n.toNat) :
    ∃ bytes s', s.readRawData n = .ok (some bytes, s') ∧ bytes.length = n.toNat ∧ t.Holds bytes ∧
      Represents (t.seek (t.cursor + n.toNat)) s' := by
  obtain ⟨hlen, hholds⟩ := hn.holds h.agrees
  have hsize : (s.block.getD []).length = s.maxLen.toNat := h.size
  have hoff := h.growable.offset
  have hpos := h.growable.pos
  have hcursor := h.cursor
  have hmax := s.maxLen.toNat_lt
  have hend : s.currentPos.toNat + n.toNat ≤ s.maxLen.toNat := by
    rw [List.length_take, List.length_drop] at hlen
    omega
  have hadd : (s.currentPos + n).toNat = t.cursor + n.toNat := by
    rw [toNat_add_of_lt (by omega), hcursor]
  have hwhere : s.offset + s.currentPos.toNat = t.cursor := by omega
  have hheld : s.Holds n.toNat := by
    unfold Holds
    omega
  have hread := readRawData_of_le h.notFailed hend hheld
  rw [front, hwhere] at hread
  have hmove := h.move (show (s.currentPos + n).toNat ≤ s.maxLen.toNat by omega)
  rw [hadd, ← h.notFailed] at hmove
  exact ⟨_, _, hread, hlen, hholds, hmove⟩

/-- **One operation** answers as the array does. -/
theorem Represents.step (h : Represents t s) {op : ArrayOp} (ha : op.Assumed t) :
    ∃ ans s', op.exec s = .ok (ans, s') ∧ op.Right t ans ∧ (ans = none → s' = s) ∧
      Represents (op.follow t ans) s' := by
  cases op with
  | writeRawData heap data =>
    obtain ⟨hheap, hroom⟩ := ha
    obtain ⟨s', hwrite, hrep⟩ := h.writePieces hheap [data] (by
      rw [List.flatten_singleton]
      omega)
    rw [writePieces_singleton] at hwrite
    rw [List.flatten_singleton] at hrep
    exact ⟨some [], s', by rw [ArrayOp.exec, hwrite]; rfl, rfl, fun h => (by cases h), hrep⟩
  | insert heap v =>
    obtain ⟨hheap, hroom⟩ := ha
    obtain ⟨s', hwrite, hrep⟩ := h.writePieces hheap (pieces v) (by
      rw [flatten_pieces]
      omega)
    rw [flatten_pieces] at hrep
    exact ⟨some [], s', by rw [ArrayOp.exec, insert_eq, hwrite]; rfl, rfl, fun h => (by cases h), hrep⟩
  | seek pos =>
    rcases h.seek pos with hseek | ⟨hne, hrep⟩
    · exact ⟨none, s, by rw [ArrayOp.exec, hseek]; rfl, .inr rfl, fun _ => rfl, h⟩
    · exact ⟨some [], _, by rw [ArrayOp.exec, if_neg hne], .inl rfl, fun h => (by cases h), hrep⟩
  | skip pos =>
    have hroom : t.cursor + pos.toNat < 2 ^ 32 - 4096 := ha
    rcases h.skip (show t.cursor + pos.toNat < 2 ^ 32 by omega) with hskip | ⟨hne, hrep⟩
    · exact ⟨none, s, by rw [ArrayOp.exec, hskip]; rfl, .inr rfl, fun _ => rfl, h⟩
    · exact ⟨some [], _, by rw [ArrayOp.exec, if_neg hne], .inl rfl, fun h => (by cases h), hrep⟩
  | readRawData dataLen =>
    obtain ⟨bytes, s', hread, hlen, hholds, hrep⟩ := h.read ha
    exact ⟨some bytes, s', hread, ⟨bytes, rfl, hlen, hholds⟩, fun h => (by cases h), hrep⟩

end Array

/-! ### Runs -/

/-- An operation under the assumptions. The array follows the answers of the stream. -/
def ArrayStep (p : ByteStream × Tape UInt8) (op : ArrayOp) (p' : ByteStream × Tape UInt8) : Prop :=
  op.Assumed p.2 ∧ ∃ ans, op.exec p.1 = .ok (ans, p'.1) ∧ p'.2 = op.follow p.2 ans

lemma represents_of_run {ops : List ArrayOp} {p : ByteStream × Tape UInt8}
    (h : Run ArrayStep (new, Tape.empty) ops p) : Represents p.2 p.1 := by
  refine h.inv (P := fun _ p => Represents p.2 p.1) represents_new ?_
  rintro ops ⟨s, t⟩ op ⟨s', t'⟩ hrep ⟨ha, ans, hexec, rfl⟩
  obtain ⟨ans', s'', hexec', -, -, hrep'⟩ := hrep.step ha
  obtain ⟨rfl, rfl⟩ := Prod.mk.inj (Except.ok.inj (hexec.symm.trans hexec'))
  exact hrep'

/-- **A stream that grows is an array with a cursor.** After any run it has not failed, its cursor is that of the array,
`Length()` is one more than the highest index that has been written, or 0, and what has been written is there. Any
further operation under the assumptions returns, and answers as the array does; if it is rejected, the stream is as
before. -/
theorem grows_as_array {ops : List ArrayOp} {s : ByteStream} {t : Tape UInt8}
    (h : Run ArrayStep (new, Tape.empty) ops (s, t)) :
    s.fail = false ∧ s.tell.toNat = t.cursor ∧ Extent t.cells s.length.toNat ∧
      AgreesWith t.cells (s.block.getD []) ∧
      ∀ op : ArrayOp, op.Assumed t → ∃ ans s', op.exec s = .ok (ans, s') ∧ op.Right t ans ∧ (ans = none → s' = s) := by
  have hrep : Represents t s := represents_of_run h
  refine ⟨hrep.notFailed, hrep.cursor, hrep.extent, hrep.agrees, fun op ha => ?_⟩
  obtain ⟨ans, s', hexec, hright, hsame, -⟩ := hrep.step ha
  exact ⟨ans, s', hexec, hright, hsame⟩

/-- Memory that is always given. -/
def freshMemory : Heap := fun _ _ => some fun _ => 0xCD

/-- Two bytes are written and read. -/
theorem grows_as_array_two : ∃ s t,
    Run ArrayStep (new, Tape.empty) [.writeRawData freshMemory [1, 2], .seek 0] (s, t) ∧ s.fail = false ∧
      Extent t.cells s.length.toNat ∧
      ∃ ans s', (ArrayOp.readRawData 2).exec s = .ok (ans, s') ∧ (ArrayOp.readRawData 2).Right t ans := by
  have hwrite : (ArrayOp.writeRawData freshMemory [1, 2]).Assumed Tape.empty := ⟨fun _ _ => rfl, by decide⟩
  obtain ⟨ans, s₁, hexec, rfl, -⟩ := (grows_as_array Run.nil).2.2.2.2 _ hwrite
  have h₁ : Run ArrayStep (new, Tape.empty) [.writeRawData freshMemory [1, 2]] (s₁, Tape.empty.write [1, 2]) :=
    Run.nil.snoc ⟨hwrite, _, hexec, rfl⟩
  have htell : s₁.currentPos.toNat = 2 := (grows_as_array h₁).2.1
  have hpos : s₁.currentPos = 2 := UInt32.toNat_inj.1 htell
  have hseek : (ArrayOp.seek 0).exec s₁ = .ok (some [], { s₁ with currentPos := 0, failed := false }) := by
    have hne : (2 : UInt32).toInt32 ≠ -1 := by decide
    have haccept : s₁.seek 0 = ((2 : UInt32).toInt32, { s₁ with currentPos := 0, failed := false }) := by
      rw [ByteStream.seek, if_neg (UInt32.not_lt.2 (UInt32.zero_le)), hpos]
    rw [ArrayOp.exec, haccept, if_neg hne]
  have hlow : (ArrayOp.seek 0).Assumed (Tape.empty.write [1, 2]) := show (0 : UInt32).toNat < 2 ^ 32 - 4096 by decide
  have h₂ : Run ArrayStep (new, Tape.empty) [.writeRawData freshMemory [1, 2], .seek 0]
      ({ s₁ with currentPos := 0, failed := false }, (Tape.empty.write [1, 2]).seek 0) :=
    h₁.snoc ⟨hlow, _, hseek, rfl⟩
  obtain ⟨hfail, -, hext, -, hnext⟩ := grows_as_array h₂
  have hread : (ArrayOp.readRawData 2).Assumed ((Tape.empty.write [1, 2]).seek 0) := by
    intro k hk
    have hk : k < 2 := hk
    obtain rfl | rfl : k = 0 ∨ k = 1 := by omega
    · rfl
    · rfl
  obtain ⟨ans, s', hexec', hright, -⟩ := hnext _ hread
  exact ⟨_, _, h₂, hfail, hext, ans, s', hexec', hright⟩

end Zutils.ByteStream
