import Zutils.Net.Codec.BodyRoundTrip
import Zutils.Net.Codec.PacketReads

/-!
# The block of an `OutPacketStream`

`Alloc` remembers in `max_len_` 8 bytes less than there are behind `buffer_`, and the byte stream under it takes `max_len_`
for all that there is. So the cursor and `data_len_` may be up to 8 bytes beyond `max_len_`, and are still in the block
(`Roomy`). Every write keeps this, as long as it ends in front of `2 ^ 32 - 16` and there is memory
(`allocation_invariant`).
-/

namespace Zutils.Net

open Zutils.Lib Zutils.ByteStream

namespace OutPacketStream

/-- How many bytes an operation writes; a read writes none. -/
def written : StreamOp → Option ℕ
  | .insert v => some v.encode.length
  | .writeString str => some (4 + str.length)
  | .writeRawData _ dataLen => some dataLen.toNat
  | .read _ => none
  | .readCString _ _ => none

/-- `WriteRawData` is given the bytes that it is told to write. -/
def Supplied : StreamOp → Prop
  | .writeRawData data dataLen => dataLen.toNat ≤ data.length
  | _ => True

/-- A write ends in front of `2 ^ 32 - 16`. -/
def Within (s : ByteStream) (op : StreamOp) : Prop :=
  Supplied op ∧ ∀ n, written op = some n → s.currentPos.toNat + n < 2 ^ 32 - 16

/-- An operation, with memory for what it allocates. -/
def Steps (s : ByteStream) (op : Heap × StreamOp) (s' : ByteStream) : Prop :=
  Gives op.1 ∧ Within s op.2 ∧ Operates alloc s op s'

/-- The streams that the constructors make. -/
inductive Made : ByteStream → Prop
  | new {heap : Heap} {cmdType : UInt16} {out : OutPacketStream} (hheap : Gives heap) (h : new heap cmdType = .ok out) :
      Made out.toByteStream
  | newWithLen {heap : Heap} {cmdType : UInt16} {dataLen : UInt32} {out : OutPacketStream} (hheap : Gives heap)
      (hlen : dataLen.toNat < 2 ^ 32 - 16) (h : newWithLen heap cmdType dataLen = .ok out) : Made out.toByteStream

/-- `Alloc(new_len)` for more than `max_len_`: its loop ends, what is in the block stays there, and the block does not end in
front of what has been written. -/
structure Enlarges (heap : Heap) (s : ByteStream) (newLen : UInt32) : Prop where
  ends : ∃ size, growLoop Packet.kPacketHeaderSize newLen s.maxLen = .ok size
  keeps : ∃ extra s', alloc heap s newLen = .ok (true, s') ∧ s'.block = some (s.block.getD [] ++ extra) ∧
    s'.dataLen = s.dataLen ∧ s'.offset + s'.dataLen.toNat ≤ s'.size

/-- **The allocation invariant**: where `buffer_` points, how large the block is, and that neither the cursor nor what has
been written ends behind it; that every write of `memcpy` is in the block; and what `Alloc` does. -/
structure AllocationInvariant (s : ByteStream) : Prop where
  buffer : s.block.isSome = true → s.offset = Packet.kPacketHeaderSize.toNat
  usable : s.block.isSome = true → s.size = s.offset + (s.maxLen.toNat + 8)
  pos : s.currentPos.toNat ≤ s.maxLen.toNat + 8
  len : s.dataLen.toNat ≤ s.maxLen.toNat + 8
  writes : ∀ heap op, Gives heap → Within s op → (written op).isSome = true → ∃ s', op.exec (alloc heap) s = .ok s'
  grows : ∀ heap newLen, Gives heap → s.failed = false → s.maxLen < newLen → newLen.toNat < 2 ^ 32 - 16 →
    Enlarges heap s newLen

/-- What the writes rest on. Before anything has been allocated `max_len_` is 0. -/
structure Roomy (s : ByteStream) : Prop where
  isNew : s.isNew = true
  block : s.block = none ∧ s.maxLen.toNat = 0 ∨ s.block.isSome = true ∧ Shape s.offset s.size s.maxLen
  pos : s.currentPos.toNat ≤ s.maxLen.toNat + 8
  len : s.dataLen.toNat ≤ s.maxLen.toNat + 8

variable {heap : Heap} {s s' s₀ : ByteStream} {data : List UInt8} {n newLen : UInt32} {op : StreamOp}
  {ops : List (Heap × StreamOp)}

namespace Roomy

lemma size_le (hs : Roomy s) : s.size ≤ s.maxLen.toNat + 16 := by
  rcases hs.block with ⟨hnone, -⟩ | ⟨-, -, hsize⟩
  · rw [size, hnone]
    exact Nat.zero_le _
  · exact hsize.le

lemma moves (hs : Roomy s) (h : Moves s s') : Roomy s' := by
  obtain ⟨pos, failed, rfl, hpos⟩ := h
  refine ⟨hs.isNew, hs.block, ?_, hs.len⟩
  rcases hpos with rfl | hle
  · exact hs.pos
  · exact Nat.le_add_right_of_le hle

lemma put (hs : Roomy s) (hblock : s.block.isSome = true) (hdata : n.toNat ≤ data.length)
    (hfit : s.currentPos.toNat + n.toNat ≤ s.maxLen.toNat + 8) (hlt : s.currentPos.toNat + n.toNat < 2 ^ 32) :
    ∃ s', s.putRawData data n = .ok (true, s') ∧ Roomy s' ∧ s'.currentPos.toNat = s.currentPos.toNat + n.toNat := by
  obtain ⟨-, hoff, hsize⟩ := hs.block.resolve_left fun h => by simp [h.1] at hblock
  have hsize' : (s.block.getD []).length = s.maxLen.toNat + 16 := hsize
  have hroom : s.offset + s.currentPos.toNat + n.toNat ≤ (s.block.getD []).length := by omega
  obtain ⟨s', hput⟩ : ∃ s', s.putRawData data n = .ok (true, s') := by
    rw [putRawData, ByteStream.store, if_pos ⟨hdata, hroom⟩]
    exact ⟨_, rfl⟩
  refine ⟨s', hput, ?_⟩
  obtain ⟨-, -, rfl⟩ := putRawData_of_ok hput
  have hpos : (s.currentPos + n).toNat = s.currentPos.toNat + n.toNat := toNat_add_of_lt hlt
  have htake : (data.take n.toNat).length = n.toNat := List.length_take_of_le hdata
  refine ⟨⟨hs.isNew, .inr ⟨rfl, hoff, ?_⟩, ?_, ?_⟩, hpos⟩
  · show (patch _ _ _).length = s.maxLen.toNat + 16
    rw [patch_length_of_le (by omega), hsize']
  · show (s.currentPos + n).toNat ≤ s.maxLen.toNat + 8
    omega
  · show UInt32.toNat (if s.dataLen < s.currentPos + n then s.currentPos + n else s.dataLen) ≤ s.maxLen.toNat + 8
    rw [toNat_ite_max, hpos]
    exact Nat.max_le.2 ⟨hs.len, hfit⟩

lemma grow (hs : Roomy s) (hheap : Gives heap) (hf : s.failed = false) (hlt : s.maxLen < newLen)
    (hle : newLen.toNat ≤ 2 ^ 32 - 16) : ∃ extra maxLen,
      alloc heap s newLen = .ok (true, { s with block := some (s.block.getD [] ++ extra), offset := 8, maxLen := maxLen }) ∧
      newLen.toNat ≤ maxLen.toNat + 8 ∧
      Roomy { s with block := some (s.block.getD [] ++ extra), offset := 8, maxLen := maxLen } := by
  obtain ⟨extra, maxLen, halloc, ⟨-, hsize⟩, hroom⟩ := alloc_ok hheap s newLen hf hs.size_le hlt hle
  have hmax : s.maxLen.toNat ≤ maxLen.toNat := by
    rcases hs.block with ⟨-, hzero⟩ | ⟨-, -, hold⟩
    · omega
    · omega
  have hpos := hs.pos
  have hlen := hs.len
  refine ⟨extra, maxLen, halloc, by omega, hs.isNew, .inr ⟨rfl, rfl, ?_⟩, ?_, ?_⟩
  · rw [← hsize, size, size, Option.getD_some, List.length_append]
  · show s.currentPos.toNat ≤ maxLen.toNat + 8
    omega
  · show s.dataLen.toNat ≤ maxLen.toNat + 8
    omega

/-- **The step of `WriteRawData`**: it returns, and what it has copied is in the block. -/
lemma write (hs : Roomy s) (hheap : Gives heap) (hdata : n.toNat ≤ data.length)
    (hlt : s.currentPos.toNat + n.toNat < 2 ^ 32 - 16) :
    ∃ ok s', s.writeRawData (OutPacketStream.alloc heap) data n = .ok (ok, s') ∧ Roomy s' ∧
      (ok = true → s'.currentPos.toNat = s.currentPos.toNat + n.toNat) := by
  rcases hf : s.failed with _ | _
  swap
  · exact ⟨false, s, writeRawData_of_failed _ hf, hs, fun h => by cases h⟩
  by_cases h0 : n = 0
  · subst h0
    exact ⟨true, s, writeRawData_zero _ hf, hs, fun _ => rfl⟩
  have hadd : (s.currentPos + n).toNat = s.currentPos.toNat + n.toNat := toNat_add_of_lt (by omega)
  by_cases hgt : s.currentPos + n > s.maxLen
  · obtain ⟨extra, maxLen, halloc, hroom, hs₁⟩ := hs.grow hheap hf hgt (by omega)
    obtain ⟨s', hput, hs', hpos⟩ := hs₁.put rfl hdata (show s.currentPos.toNat + n.toNat ≤ maxLen.toNat + 8 by omega)
      (show s.currentPos.toNat + n.toNat < 2 ^ 32 by omega)
    refine ⟨true, s', ?_, hs', fun _ => hpos⟩
    rw [writeRawData, if_neg (by simp [hf]), if_neg h0, if_pos hgt, if_pos hs.isNew, halloc]
    exact hput
  · have hle : s.currentPos.toNat + n.toNat ≤ s.maxLen.toNat := by
      rw [gt_iff_lt, UInt32.lt_iff_toNat_lt, hadd] at hgt
      omega
    have hblock : s.block.isSome = true := by
      rcases hs.block with ⟨-, hzero⟩ | ⟨hsome, -⟩
      · have hn := toNat_pos h0
        omega
      · exact hsome
    obtain ⟨s', hput, hs', hpos⟩ := hs.put hblock hdata (by omega) (by omega)
    refine ⟨true, s', ?_, hs', fun _ => hpos⟩
    rw [writeRawData, if_neg (by simp [hf]), if_neg h0, if_neg hgt]
    exact hput

lemma writePieces (hheap : Gives heap) (ds : List (List UInt8)) : ∀ s : ByteStream, Roomy s →
    s.currentPos.toNat + ds.flatten.length < 2 ^ 32 - 16 →
    ∃ ok s', s.writePieces (OutPacketStream.alloc heap) ds = .ok (ok, s') ∧ Roomy s' := by
  induction ds with
  | nil => exact fun s hs _ => ⟨true, s, rfl, hs⟩
  | cons data ds ih =>
    intro s hs hlt
    rw [List.flatten_cons, List.length_append] at hlt
    have hn : (UInt32.ofNat data.length).toNat = data.length := by
      rw [UInt32.toNat_ofNat', Nat.mod_eq_of_lt (by omega)]
    obtain ⟨ok, s₁, hwrite, hs₁, hpos⟩ := hs.write hheap hn.le (by omega)
    rw [ByteStream.writePieces, hwrite, ok_bind]
    cases ok with
    | true => exact ih s₁ hs₁ (by rw [hpos rfl]; omega)
    | false => exact ⟨false, s₁, rfl, hs₁⟩

/-- **A write returns**, and there is room afterwards. -/
lemma exec (hs : Roomy s) (hheap : Gives heap) (hop : Within s op) (hwritten : (written op).isSome = true) :
    ∃ s', op.exec (OutPacketStream.alloc heap) s = .ok s' ∧ Roomy s' := by
  obtain ⟨hdata, hlt⟩ := hop
  cases op with
  | insert v =>
    obtain ⟨ok, s', hwrite, hs'⟩ := writePieces hheap (pieces v) s hs (by rw [flatten_pieces]; exact hlt _ rfl)
    refine ⟨s', ?_, hs'⟩
    rw [StreamOp.exec, insert_eq, hwrite]
    rfl
  | writeString str =>
    have hflat : [put32 (UInt32.ofNat str.length), str].flatten.length = 4 + str.length := by
      simp [put32]
      omega
    obtain ⟨ok, s', hwrite, hs'⟩ := writePieces hheap [put32 (UInt32.ofNat str.length), str] s hs
      (by rw [hflat]; exact hlt _ rfl)
    refine ⟨s', ?_, hs'⟩
    rw [StreamOp.exec, writeString_eq, hwrite]
    rfl
  | writeRawData data n =>
    obtain ⟨ok, s', hwrite, hs', -⟩ := hs.write hheap hdata (hlt _ rfl)
    refine ⟨s', ?_, hs'⟩
    rw [StreamOp.exec, hwrite]
    rfl
  | read op => cases hwritten
  | readCString str n => cases hwritten

/-- **The step.** A read only moves the cursor. -/
lemma step {a : Heap × StreamOp} (hs : Roomy s) (h : Steps s a s') : Roomy s' := by
  obtain ⟨heap, op⟩ := a
  obtain ⟨hheap, hop, h⟩ := h
  cases hwritten : (written op).isSome with
  | true =>
    obtain ⟨s'', hexec, hs''⟩ := hs.exec hheap hop hwritten
    obtain rfl := Except.ok.inj (h.symm.trans hexec)
    exact hs''
  | false =>
    cases op with
    | insert v => cases hwritten
    | writeString str => cases hwritten
    | writeRawData data n => cases hwritten
    | read op => exact hs.moves (moves_of_exec h)
    | readCString str n =>
      obtain ⟨⟨ok, str', s₁⟩, hread, h⟩ := bind_eq_ok.1 h
      obtain rfl := Except.ok.inj h
      exact hs.moves (moves_of_readCString hread)

lemma start : Roomy ByteStream.new := ⟨rfl, .inl ⟨rfl, rfl⟩, Nat.zero_le _, Nat.zero_le _⟩

lemma newWithLen {cmdType : UInt16} {dataLen : UInt32} {out : OutPacketStream} (hheap : Gives heap)
    (hlen : dataLen.toNat < 2 ^ 32 - 16) (h : newWithLen heap cmdType dataLen = .ok out) : Roomy out.toByteStream := by
  obtain ⟨⟨p, s₁⟩, halloc, hout⟩ := bind_eq_ok.1 h
  obtain rfl := Except.ok.inj hout
  by_cases hlt : ByteStream.new.maxLen < dataLen
  · obtain ⟨extra, maxLen, halloc', -, hs⟩ := start.grow hheap rfl hlt hlen.le
    obtain ⟨-, rfl⟩ := Prod.mk.inj (Except.ok.inj (halloc.symm.trans halloc'))
    exact hs
  · rw [alloc_of_le rfl (UInt32.not_lt.1 hlt)] at halloc
    obtain ⟨-, rfl⟩ := Prod.mk.inj (Except.ok.inj halloc)
    exact start

lemma of_made (h : Made s) : Roomy s := by
  cases h with
  | new hheap h => exact newWithLen hheap (by decide) (new_eq _ _ ▸ h)
  | newWithLen hheap hlen h => exact newWithLen hheap hlen h

lemma allocationInvariant (hs : Roomy s) : AllocationInvariant s where
  buffer hsome := (hs.block.resolve_left fun h => by simp [h.1] at hsome).2.1
  usable hsome := by
    obtain ⟨-, hoff, hsize⟩ := hs.block.resolve_left fun h => by simp [h.1] at hsome
    omega
  pos := hs.pos
  len := hs.len
  writes heap op hheap hop hwritten := by
    obtain ⟨s', hexec, -⟩ := hs.exec hheap hop hwritten
    exact ⟨s', hexec⟩
  grows heap newLen hheap hf hlt hle := by
    obtain ⟨extra, maxLen, halloc, -, hs'⟩ := hs.grow hheap hf hlt hle.le
    obtain ⟨size, -, hgrow, -⟩ := alloc_cases hf hlt halloc
    refine ⟨⟨size, hgrow⟩, extra, _, halloc, rfl, rfl, ?_⟩
    obtain ⟨-, hoff, hsize⟩ := hs'.block.resolve_left fun h => by simp at h
    have hlen := hs'.len
    omega

end Roomy

/-- **The allocation invariant holds in every state** that either constructor and any operations lead to, where the hint of the
constructor and the ends of the writes are below `2 ^ 32 - 16`, and there is memory. -/
theorem allocation_invariant (h₀ : Made s₀) (h : Run Steps s₀ ops s) : AllocationInvariant s := by
  have hs : Roomy s := h.inv (P := fun _ s => Roomy s) (Roomy.of_made h₀) fun _ _ _ _ hs hstep => hs.step hstep
  exact hs.allocationInvariant

/-- There is memory for everything. -/
def plenty : Heap := fun _ _ => some fun _ => 0xCD

/-- A number is written to a stream for 16 bytes, and its first byte is skipped over. -/
theorem allocation_invariant_two : ∃ out s, newWithLen plenty 5 16 = .ok out ∧
    Run Steps out.toByteStream ([] ++ [(plenty, .insert ⟨.uint16, 7⟩)] ++ [(plenty, .read (.seek 1))]) s ∧
    s.dataLen = 2 ∧ s.currentPos = 1 ∧ AllocationInvariant s := by
  have hheap : Gives plenty := fun _ _ => rfl
  obtain ⟨out, hnew, hpos, s₁, hinsert, hmax, hlen⟩ : ∃ out, newWithLen plenty 5 16 = .ok out ∧ out.currentPos = 0 ∧
      ∃ s₁, Operates OutPacketStream.alloc out.toByteStream (plenty, .insert ⟨.uint16, 7⟩) s₁ ∧ s₁.maxLen = 8 ∧
        s₁.dataLen = 2 := ⟨_, rfl, rfl, _, rfl, rfl, rfl⟩
  have hwrite : Steps out.toByteStream (plenty, .insert ⟨.uint16, 7⟩) s₁ := by
    refine ⟨hheap, ⟨trivial, fun n hn => ?_⟩, hinsert⟩
    obtain rfl := Option.some.inj hn
    rw [hpos]
    decide
  have hseek : Steps s₁ (plenty, .read (.seek 1)) (s₁.seek 1).2 :=
    ⟨hheap, ⟨trivial, fun n hn => by cases hn⟩, rfl⟩
  have hrun := (Run.nil.snoc hwrite).snoc hseek
  have heq : (s₁.seek 1).2 = { s₁ with currentPos := 1, failed := false } := by
    rw [ByteStream.seek, if_neg (by rw [hmax]; decide)]
  refine ⟨out, _, hnew, hrun, ?_, ?_, allocation_invariant (.newWithLen hheap (by decide) hnew) hrun⟩
  · rw [heq]
    exact hlen
  · rw [heq]

end OutPacketStream

end Zutils.Net
