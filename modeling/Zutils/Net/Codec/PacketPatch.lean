import Zutils.Net.Codec.BodyRoundTrip
import Zutils.Net.Codec.PacketReads

/-!
# Back-patching an `OutPacketStream`

Values are written, and then some are overwritten: `Seek` leads to the place, and from behind it back to the end. But
`max_len_` is 8 bytes short of what the block holds behind the header. It is the largest multiple of 8 below `Length()`,
or below the length that the constructor was given, whichever is more (`capacity`). `Seek` compares with it, so the last
bytes may be out of reach, and so may the end. `GetPacket` gives what is in front of the cursor (`back_patch_iff`).
-/

namespace Zutils.Net

open Zutils.Lib Zutils.ByteStream

namespace OutPacketStream

/-- The largest multiple of 8 below `n`. -/
def lastEight (n : ℕ) : ℕ := (n - 1) / 8 * 8

/-- `max_len_` after `length` bytes have been written to a stream for `hint` bytes. -/
def capacity (hint : UInt32) (length : ℕ) : ℕ := max (lastEight hint.toNat) (lastEight length)

/-- The stream of a packet that has been made for `hint` bytes. -/
structure Patchable (hint : UInt32) (s : ByteStream) : Prop where
  notFailed : s.failed = false
  isNew : s.isNew = true
  cap : s.maxLen.toNat = capacity hint s.dataLen.toNat
  pos : s.currentPos.toNat ≤ s.dataLen.toNat
  small : s.maxLen.toNat + 16 < 2 ^ 32
  mem : s.block = none ∧ s.offset = 0 ∧ s.dataLen.toNat = 0 ∧ hint = 0 ∨
    s.offset = 8 ∧ (hint ≠ 0 ∨ 0 < s.dataLen.toNat) ∧ ∃ block, s.block = some block ∧ block.length = s.maxLen.toNat + 16

section Stream

variable {hint newLen n : UInt32} {s s' : ByteStream} {heap : Heap} {data : List UInt8} {ok : Bool}

lemma Patchable.dvd (hs : Patchable hint s) : 8 ∣ s.maxLen.toNat := by
  rw [hs.cap]
  unfold capacity lastEight
  omega

lemma Patchable.len (hs : Patchable hint s) : s.dataLen.toNat ≤ s.maxLen.toNat + 8 := by
  rw [hs.cap]
  unfold capacity lastEight
  omega

/-- A `memcpy` into a block whose size suits what there is afterwards. -/
lemma patchable_put (hf : s.failed = false) (hnew : s.isNew = true) (h0 : n ≠ 0)
    (hsmall : s.maxLen.toNat + 16 < 2 ^ 32) (hoff : s.offset = 8)
    (hblock : (s.block.getD []).length = s.maxLen.toNat + 16) (hput : s.putRawData data n = .ok (ok, s'))
    (hcap : s.maxLen.toNat = capacity hint (max s.dataLen.toNat (s.currentPos.toNat + n.toNat))) :
    Patchable hint s' := by
  obtain ⟨-, hfit, rfl⟩ := putRawData_of_ok hput
  have htake := List.length_take_le n.toNat data
  have hadd : (s.currentPos + n).toNat = s.currentPos.toNat + n.toNat := toNat_add_of_lt (by omega)
  have hlen : UInt32.toNat (if s.dataLen < s.currentPos + n then s.currentPos + n else s.dataLen) =
      max s.dataLen.toNat (s.currentPos.toNat + n.toNat) := by
    rw [toNat_ite_max, hadd]
  have hn := toNat_pos h0
  refine ⟨hf, hnew, ?_, ?_, hsmall, .inr ⟨hoff, .inr ?_, _, rfl, ?_⟩⟩
  · rw [hlen]
    exact hcap
  · rw [hlen, hadd]
    exact Nat.le_max_right _ _
  · rw [hlen]
    omega
  · rw [patch_length_of_le (by omega)]
    exact hblock

lemma Patchable.put (hs : Patchable hint s) (h0 : n ≠ 0) (hput : s.putRawData data n = .ok (ok, s'))
    (hle : (s.currentPos + n).toNat ≤ s.maxLen.toNat) : Patchable hint s' := by
  obtain ⟨-, hfit, -⟩ := putRawData_of_ok hput
  have hn := toNat_pos h0
  have hsmall := hs.small
  rcases hs.mem with ⟨hnone, -⟩ | ⟨hoff, -, block, hblock, hlen⟩
  · rw [hnone, Option.getD_none, List.length_nil] at hfit
    omega
  · rw [hblock, Option.getD_some] at hfit
    have hadd : (s.currentPos + n).toNat = s.currentPos.toNat + n.toNat := toNat_add_of_lt (by omega)
    refine patchable_put hs.notFailed hs.isNew h0 hsmall hoff (by rw [hblock]; exact hlen) hput ?_
    have hcap := hs.cap
    unfold capacity lastEight at hcap ⊢
    omega

lemma Patchable.grow (hs : Patchable hint s) (h0 : n ≠ 0) {p : Bool} {s₁ : ByteStream}
    (hgt : s.maxLen < s.currentPos + n) (halloc : alloc heap s (s.currentPos + n) = .ok (p, s₁))
    (hput : s₁.putRawData data n = .ok (ok, s')) : Patchable hint s' := by
  obtain ⟨block, maxLen, rfl, hsize, hlt, hfit, hroom, hle, hmax, hdvd⟩ :=
    alloc_put_cases hs.notFailed hs.dvd hgt halloc hput
  have hend : (s.currentPos + n).toNat = s.currentPos.toNat + n.toNat := toNat_add_of_lt (by omega)
  refine patchable_put (s := { s with block := some block, offset := 8, maxLen := maxLen }) hs.notFailed hs.isNew h0 ?_
    rfl hsize hput ?_
  · show maxLen.toNat + 16 < 2 ^ 32
    omega
  · show maxLen.toNat = capacity hint (max s.dataLen.toNat (s.currentPos.toNat + n.toNat))
    have hlen := hs.len
    have hcap := hs.cap
    unfold capacity lastEight at hcap ⊢
    omega

/-- **A write that returns** keeps the invariant. -/
lemma Patchable.write (hs : Patchable hint s) (h : s.writeRawData (alloc heap) data n = .ok (ok, s')) :
    Patchable hint s' := by
  rcases writeRawData_cases h with rfl | ⟨-, h0, hrej, hput⟩ | ⟨p, s₁, hf, h0, hrej, -, halloc, hput⟩
  · exact hs
  · unfold Rejects at hrej
    rw [gt_iff_lt, UInt32.lt_iff_toNat_lt] at hrej
    exact hs.put h0 hput (by omega)
  · rcases hput with ⟨-, hput⟩ | ⟨hp, -⟩
    · exact hs.grow h0 hrej halloc hput
    · obtain ⟨-, -, -, -, htrue, -⟩ := alloc_cases hf hrej halloc
      rw [hp] at htrue
      cases htrue

/-! ### Overwriting -/

lemma Patchable.room (hs : Patchable hint s) : s.offset + s.dataLen.toNat ≤ (s.block.getD []).length := by
  have hlen := hs.len
  rcases hs.mem with ⟨-, hoff, h0, -⟩ | ⟨hoff, -, block, hblock, hsize⟩
  · omega
  · rw [hblock, Option.getD_some]
    omega

lemma Patchable.bound (hs : Patchable hint s) : s.offset + s.currentPos.toNat ≤ (s.block.getD []).length := by
  have hpos := hs.pos
  have hroom := hs.room
  omega

lemma Patchable.block_of_pos (hs : Patchable hint s) (h : 0 < s.dataLen.toNat) :
    s.offset = 8 ∧ ∃ block, s.block = some block ∧ block.length = s.maxLen.toNat + 16 := by
  rcases hs.mem with ⟨-, -, hzero, -⟩ | ⟨hoff, -, hblock⟩
  · omega
  · exact ⟨hoff, hblock⟩

/-- `Alloc` of up to 8 bytes more than `max_len_` asks for a block of the same size. -/
lemma Patchable.alloc_same (hs : Patchable hint s) (hheap : Gives heap) (hdata : 0 < s.dataLen.toNat)
    (hgt : s.maxLen < newLen) (hle : newLen.toNat ≤ s.maxLen.toNat + 8) :
    ∃ extra maxLen, alloc heap s newLen =
      .ok (true, { s with block := some (s.block.getD [] ++ extra), maxLen := maxLen }) := by
  obtain ⟨hoff, block, hblock, hsize⟩ := hs.block_of_pos hdata
  have height : Packet.kPacketHeaderSize.toNat = 8 := rfl
  have hsmall := hs.small
  have hdvd := hs.dvd
  obtain ⟨size, hgrow, -, hmin, hmax, -⟩ :=
    (growLoop_eq Packet.kPacketHeaderSize (Nat.dvd_of_mod_eq_zero rfl) (by omega) hdvd hgt).2 (by omega)
  have hadd : (size + Packet.kPacketHeaderSize).toNat = size.toNat + 8 := toNat_add_of_lt (by omega)
  have hfit : (s.block.getD []).length ≤ size.toNat + 8 := by
    rw [hblock, Option.getD_some]
    omega
  obtain ⟨extra, hrealloc, -⟩ := realloc_gives hheap hfit
  refine ⟨extra, size - Packet.kPacketHeaderSize, ?_⟩
  rw [alloc_of_realloc hs.notFailed hgt hgrow (by rw [hadd, hrealloc]), hoff]
  rfl

/-- **An overwrite is stored**, if there is memory for a block of the same size. -/
lemma Patchable.overwrite (hs : Patchable hint s) (hheap : Gives heap)
    (hfit : s.currentPos.toNat + data.length ≤ s.dataLen.toNat) :
    ∃ s', s.writeRawData (alloc heap) data (UInt32.ofNat data.length) = .ok (true, s') ∧ Stored s data s' ∧
      Patchable hint s' ∧ s'.dataLen = s.dataLen := by
  by_cases hdata : data = []
  · subst hdata
    exact ⟨s, writeRawData_zero _ hs.notFailed, stored_nil hs.notFailed hs.bound, hs, rfl⟩
  have hdatapos := List.length_pos_of_ne_nil hdata
  have hlen := hs.len
  have hmax := s.dataLen.toNat_lt
  obtain ⟨hn, h0, hpos⟩ := piece_length s hdata (by omega)
  obtain ⟨hoff, block, hblock, hsize⟩ := hs.block_of_pos (by omega)
  -- `Alloc` has given the same block, or it has not been called
  obtain ⟨extra, maxLen, hwrite⟩ : ∃ extra maxLen, s.writeRawData (alloc heap) data (UInt32.ofNat data.length) =
      ({ s with block := some (s.block.getD [] ++ extra), maxLen := maxLen } : ByteStream).putRawData data
        (UInt32.ofNat data.length) := by
    by_cases hgt : s.currentPos + UInt32.ofNat data.length > s.maxLen
    · obtain ⟨extra, maxLen, halloc⟩ := hs.alloc_same hheap (by omega) hgt (by omega)
      refine ⟨extra, maxLen, ?_⟩
      rw [writeRawData, if_neg (by simp [hs.notFailed]), if_neg h0, if_pos hgt, if_pos hs.isNew, halloc]
      rfl
    · refine ⟨[], s.maxLen, ?_⟩
      rw [writeRawData, if_neg (by simp [hs.notFailed]), if_neg h0, if_neg hgt, List.append_nil, hblock,
        Option.getD_some, ← hblock]
  have hroom : s.offset + s.currentPos.toNat + data.length ≤ (s.block.getD [] ++ extra).length := by
    rw [List.length_append, hblock, Option.getD_some]
    omega
  obtain ⟨s', hput, hstored⟩ := stored_of_put hs.notFailed hdata hn hpos extra maxLen hroom
  rw [hput] at hwrite
  refine ⟨s', hwrite, hstored, hs.write hwrite, UInt32.toNat_inj.1 ?_⟩
  rw [hstored.len, if_neg hdata]
  omega

/-- **An overwrite by a value** changes exactly the bytes of its encoding. -/
lemma Patchable.insert (hs : Patchable hint s) (hheap : Gives heap) {v : Value}
    (hfit : s.currentPos.toNat + v.encode.length ≤ s.dataLen.toNat) :
    ∃ s', s.insert (alloc heap) v = .ok s' ∧ Patchable hint s' ∧ s'.dataLen = s.dataLen ∧
      s'.currentPos.toNat = s.currentPos.toNat + v.encode.length ∧
      s'.contents = patch s.contents s.currentPos.toNat v.encode := by
  obtain ⟨s', hwrite, hstored, hs', hlen⟩ :=
    writePieces_stored (alloc heap) (fun r => Patchable hint r ∧ r.dataLen = s.dataLen) s.dataLen.toNat
      (fun r hr => hr.1.bound)
      (fun r data hr _ hle => by
        rw [← hr.2] at hle ⊢
        obtain ⟨r', hwrite, hstored, hr', hlen⟩ := hr.1.overwrite hheap hle
        exact ⟨r', hwrite, hstored, hr', hlen⟩)
      (pieces v) s ⟨hs, rfl⟩ hs.notFailed (by rw [flatten_pieces]; exact hfit)
  rw [flatten_pieces] at hstored
  refine ⟨s', ?_, hs', hlen, hstored.pos, contents_of_stored hs.room hstored hlen hfit⟩
  rw [insert_eq, hwrite]
  rfl

/-! ### Hints that wrap -/

/-- The stream of a packet for more than `2 ^ 32 - 16` bytes: the size of its block has wrapped to 0. -/
structure Wrapped (s : ByteStream) : Prop where
  notFailed : s.failed = false
  block : s.block = some []
  maxLen : s.maxLen = 4294967280
  dataLen : s.dataLen = 0
  pos : s.currentPos = 0

/-- Nothing can be written to it. -/
lemma Wrapped.insert (hs : Wrapped s) (v : Value) : s.insert (alloc heap) v = .error .outOfRange := by
  obtain ⟨data, ds, hv, hne, hle⟩ := pieces_cons v
  have hzero : s.currentPos.toNat = 0 := by
    rw [hs.pos]
    rfl
  obtain ⟨hn, h0, hpos⟩ := piece_length s hne (by omega)
  have hdatapos := List.length_pos_of_ne_nil hne
  have hmax : (4294967280 : UInt32).toNat = 4294967280 := rfl
  have hcheck : ¬ s.currentPos + UInt32.ofNat data.length > s.maxLen := by
    rw [gt_iff_lt, UInt32.lt_iff_toNat_lt, hpos, hs.maxLen, hmax]
    omega
  have hout : s.putRawData data (UInt32.ofNat data.length) = .error .outOfRange := by
    refine putRawData_out ?_
    rw [hs.block, Option.getD_some, List.length_nil, hn]
    omega
  rw [insert_eq, hv, writePieces, writeRawData, if_neg (by simp [hs.notFailed]), if_neg h0, if_neg hcheck, hout]
  rfl

/-- Its block has no room for the header. -/
lemma Wrapped.getPacket {out : OutPacketStream} (hs : Wrapped out.toByteStream) (hnew : out.isTransfered = false) :
    out.getPacket = .error .outOfRange := by
  rw [OutPacketStream.getPacket, hnew, hs.block]
  rfl

end Stream

/-! ### Runs -/

/-- What is done to the stream. -/
inductive PatchOp where
  | insert (heap : Heap) (v : Value)
  | seek (pos : UInt32)

/-- The stream after it. -/
def PatchOp.exec (out : OutPacketStream) : PatchOp → Except StreamFault OutPacketStream
  | insert heap v => out.insert heap v
  | seek pos => .ok { out with toByteStream := (out.seek pos).2 }

/-- Values are written, and `Seek` is called for places up to `Length()`. -/
def Patches (out : OutPacketStream) (op : PatchOp) (out' : OutPacketStream) : Prop :=
  (∀ pos, op = .seek pos → pos ≤ out.length) ∧ op.exec out = .ok out'

/-- What holds of the stream in between. -/
structure Reached (hint : UInt32) (out : OutPacketStream) : Prop where
  notTransfered : out.isTransfered = false
  stream : hint.toNat ≤ 2 ^ 32 - 16 ∧ Patchable hint out.toByteStream ∨
    2 ^ 32 - 16 < hint.toNat ∧ hint.toNat ≤ 2 ^ 32 - 8 ∧ Wrapped out.toByteStream

section Runs

variable {hint : UInt32} {heap : Heap} {cmdType : UInt16} {out₀ out out' : OutPacketStream} {op : PatchOp}
  {ops : List PatchOp}

lemma patchable_start : Patchable 0 ByteStream.new where
  notFailed := rfl
  isNew := rfl
  cap := by decide
  pos := Nat.le_refl _
  small := by decide
  mem := .inl ⟨rfl, rfl, rfl, rfl⟩

lemma reached_new (h : newWithLen heap cmdType hint = .ok out) : Reached hint out := by
  obtain ⟨⟨p, s⟩, halloc, hout⟩ := bind_eq_ok.1 h
  obtain rfl := Except.ok.inj hout
  refine ⟨rfl, ?_⟩
  by_cases h0 : hint = 0
  · subst h0
    obtain ⟨-, rfl⟩ := Prod.mk.inj (Except.ok.inj halloc)
    exact .inl ⟨Nat.zero_le _, patchable_start⟩
  have hgt : ByteStream.new.maxLen < hint := by
    rw [UInt32.lt_iff_toNat_lt]
    exact toNat_pos h0
  obtain ⟨size, block, hgrow, hblock, -, rfl⟩ := alloc_cases rfl hgt halloc
  obtain ⟨hle, -, hmax, hdvd, hsub⟩ := sizes_of_grow (s := ByteStream.new) (Nat.dvd_zero 8) hgt hgrow
  have height : (8 : UInt32).toNat = 8 := rfl
  have hsize := size.toNat_lt
  have hpos := toNat_pos h0
  rw [UInt32.toNat_add, height] at hblock
  by_cases hlt : size.toNat + 8 < 2 ^ 32
  · refine .inl ⟨by omega, rfl, rfl, ?_, Nat.le_refl _, ?_, .inr ⟨rfl, .inl h0, block, rfl, ?_⟩⟩
    · show (size - 8).toNat = capacity hint 0
      unfold capacity lastEight
      omega
    · show (size - 8).toNat + 16 < 2 ^ 32
      omega
    · show block.length = (size - 8).toNat + 16
      omega
  · refine .inr ⟨by omega, by omega, rfl, ?_, UInt32.toNat_inj.1 ?_, rfl, rfl⟩
    · show some block = some []
      rw [List.length_eq_zero_iff.1 (by omega : block.length = 0)]
    · show (size - 8).toNat = (4294967280 : UInt32).toNat
      rw [show (4294967280 : UInt32).toNat = 4294967280 from rfl]
      omega

lemma Reached.step (h : Reached hint out) (hstep : Patches out op out') : Reached hint out' := by
  obtain ⟨hguard, hexec⟩ := hstep
  cases op with
  | insert heap v =>
    obtain ⟨s, hinsert, hout⟩ := bind_eq_ok.1 hexec
    obtain rfl := Except.ok.inj hout
    refine ⟨h.notTransfered, ?_⟩
    rcases h.stream with ⟨hle, hs⟩ | ⟨-, -, hs⟩
    · rw [insert_eq] at hinsert
      obtain ⟨⟨ok, s'⟩, hwrite, hs'⟩ := bind_eq_ok.1 hinsert
      obtain rfl := Except.ok.inj hs'
      exact .inl ⟨hle, writePieces_keeps _ (fun _ _ _ _ _ hs h => Patchable.write hs h) _ _ _ _ hs hwrite⟩
    · rw [hs.insert] at hinsert
      cases hinsert
  | seek pos =>
    obtain rfl := Except.ok.inj hexec
    refine ⟨h.notTransfered, ?_⟩
    have hpos := hguard pos rfl
    rw [UInt32.le_iff_toNat_le] at hpos
    show _ ∨ _ ∧ _ ∧ Wrapped (out.seek pos).2
    unfold ByteStream.seek
    split
    · exact h.stream
    · rcases h.stream with ⟨hle, hs⟩ | ⟨hlt, hle, hs⟩
      · exact .inl ⟨hle, rfl, hs.isNew, hs.cap, hpos, hs.small, hs.mem⟩
      · refine .inr ⟨hlt, hle, rfl, hs.block, hs.maxLen, hs.dataLen, UInt32.toNat_inj.1 ?_⟩
        rw [show out.length = 0 from hs.dataLen, UInt32.toNat_zero] at hpos
        exact Nat.le_zero.1 hpos

lemma reached_of_run (hnew : newWithLen heap cmdType hint = .ok out₀) (hrun : Run Patches out₀ ops out) :
    Reached hint out :=
  hrun.inv (P := fun _ out => Reached hint out) (reached_new hnew) fun _ _ _ _ h hstep => h.step hstep

end Runs

/-! ### Back-patching -/

/-- `Seek(pos)` succeeds, and the cursor is at `pos`. -/
def SeeksTo (s : ByteStream) (pos : UInt32) : Prop := (s.seek pos).1 ≠ -1 ∧ (s.seek pos).2.tell = pos

/-- After `Seek(pos)`, writing `v` changes its bytes and nothing else, and `Seek` leads back to where the cursor was. -/
def BackPatches (heap : Heap) (out : OutPacketStream) (pos : UInt32) (v : Value) : Prop :=
  SeeksTo out.toByteStream pos ∧
    ∃ out', ({ out with toByteStream := (out.seek pos).2 } : OutPacketStream).insert heap v = .ok out' ∧
      out'.fail = false ∧ out'.length = out.length ∧
      out'.contents = patch out.contents pos.toNat v.encode ∧
      SeeksTo out'.toByteStream out.tell

/-- `GetPacket()` makes a packet of all that has been written. -/
def GivesAll (out : OutPacketStream) : Prop :=
  ∃ p out', out.getPacket = .ok (p, out') ∧ p.getBodyLength = out.length ∧ p.getBodyData = out.contents

section BackPatch

variable {hint pos : UInt32} {heap : Heap} {cmdType : UInt16} {s : ByteStream} {out₀ out : OutPacketStream}
  {ops : List PatchOp} {v : Value}

/-- `Seek` compares with `max_len_`. -/
lemma seeksTo_iff (h : s.currentPos.toNat < 4294967295) : SeeksTo s pos ↔ pos.toNat ≤ s.maxLen.toNat := by
  unfold SeeksTo ByteStream.seek
  split
  · rename_i hgt
    rw [gt_iff_lt, UInt32.lt_iff_toNat_lt] at hgt
    exact iff_of_false (fun h => h.1 rfl) (by omega)
  · rename_i hle
    rw [gt_iff_lt, UInt32.lt_iff_toNat_lt] at hle
    refine iff_of_true ⟨fun h' => ?_, rfl⟩ (by omega)
    rw [eq_of_toInt32 h'] at h
    exact absurd h (by decide)

lemma Reached.cap (h : Reached hint out) : out.maxLen.toNat = capacity hint out.length.toNat := by
  rcases h.stream with ⟨-, hs⟩ | ⟨hlt, hle, hs⟩
  · exact hs.cap
  · have hmax : (4294967280 : UInt32).toNat = 4294967280 := rfl
    rw [hs.maxLen, hmax, ByteStream.length, hs.dataLen, UInt32.toNat_zero]
    unfold capacity lastEight
    omega

lemma Reached.tell_le (h : Reached hint out) : out.tell.toNat ≤ out.length.toNat ∧ out.length.toNat < 4294967295 := by
  rcases h.stream with ⟨-, hs⟩ | ⟨-, -, hs⟩
  · have hlen := hs.len
    have hsmall := hs.small
    exact ⟨hs.pos, by unfold ByteStream.length; omega⟩
  · rw [ByteStream.tell, hs.pos, ByteStream.length, hs.dataLen]
    decide

lemma Reached.seeksTo_iff (h : Reached hint out) (pos : UInt32) :
    SeeksTo out.toByteStream pos ↔ pos.toNat ≤ capacity hint out.length.toNat := by
  have hpos := h.tell_le
  rw [← h.cap]
  refine OutPacketStream.seeksTo_iff ?_
  rw [ByteStream.tell] at hpos
  omega

lemma encode_pos (v : Value) : 0 < v.encode.length := by
  obtain ⟨data, ds, hv, hne, -⟩ := pieces_cons v
  have hpos := List.length_pos_of_ne_nil hne
  rw [← flatten_pieces, hv, List.flatten_cons, List.length_append]
  omega

lemma Reached.backPatches_iff (h : Reached hint out) (hheap : Gives heap)
    (hfit : pos.toNat + v.encode.length ≤ out.length.toNat) : BackPatches heap out pos v ↔
      pos.toNat ≤ capacity hint out.length.toNat ∧ out.tell.toNat ≤ capacity hint out.length.toNat := by
  unfold BackPatches
  rw [h.seeksTo_iff]
  refine and_congr_right fun hle => ?_
  have hv := encode_pos v
  obtain ⟨-, hs⟩ : hint.toNat ≤ 2 ^ 32 - 16 ∧ Patchable hint out.toByteStream := by
    rcases h.stream with h' | ⟨-, -, hs⟩
    · exact h'
    · rw [ByteStream.length, hs.dataLen, UInt32.toNat_zero] at hfit
      omega
  -- the stream at `pos`
  have hseek : (out.seek pos).2 = { out.toByteStream with currentPos := pos, failed := false } := by
    rw [ByteStream.seek, if_neg]
    rw [gt_iff_lt, UInt32.lt_iff_toNat_lt, h.cap]
    omega
  have hpos : pos.toNat ≤ out.dataLen.toNat := by
    rw [ByteStream.length] at hfit
    omega
  have hs' : Patchable hint { out.toByteStream with currentPos := pos, failed := false } :=
    ⟨rfl, hs.isNew, hs.cap, hpos, hs.small, hs.mem⟩
  obtain ⟨s', hinsert, hs'', hlen, -, hcontents⟩ := hs'.insert hheap (v := v) hfit
  have hback : SeeksTo s' out.tell ↔ out.tell.toNat ≤ capacity hint out.length.toNat := by
    have hlt := hs''.pos
    have hlen' := hs''.len
    have hsmall := hs''.small
    rw [OutPacketStream.seeksTo_iff (by omega), hs''.cap, hlen]
    rfl
  rw [← hback, hseek]
  constructor
  · rintro ⟨out', hout, -, -, -, hto⟩
    obtain ⟨s, hs, hout⟩ := bind_eq_ok.1 hout
    obtain rfl := Except.ok.inj hout
    obtain rfl := Except.ok.inj (hinsert.symm.trans hs)
    exact hto
  · intro hto
    refine ⟨{ out with toByteStream := s' }, ?_, hs''.notFailed, hlen, hcontents, hto⟩
    show (ByteStream.insert _ _ _ >>= _) = _
    rw [hinsert]
    rfl

lemma Patchable.givesAll_iff (hs : Patchable hint out.toByteStream) (hnew : out.isTransfered = false) :
    GivesAll out ↔ out.tell = out.length ∧ (hint ≠ 0 ∨ out.length ≠ 0) := by
  unfold GivesAll
  rcases hs.mem with ⟨hnone, -, hzero, h0⟩ | ⟨hoff, hwritten, block, hblock, hsize⟩
  · refine iff_of_false ?_ ?_
    · rintro ⟨p, out', hp, -⟩
      rw [getPacket, hnew, hnone] at hp
      cases hp
    · rintro ⟨-, h | h⟩
      · exact h h0
      · exact h (UInt32.toNat_inj.1 hzero)
  · have height : Packet.kPacketHeaderSize.toNat = 8 := rfl
    rw [getPacket_eq hnew hblock (by omega)]
    constructor
    · rintro ⟨p, out', hp, hlen, -⟩
      obtain ⟨rfl, -⟩ := Prod.mk.inj (Except.ok.inj hp)
      rw [Packet.getBodyLength_eq] at hlen
      refine ⟨hlen, ?_⟩
      rcases hwritten with h | h
      · exact .inl h
      · refine .inr fun h0 => ?_
        rw [show out.dataLen = 0 from h0] at h
        exact absurd h (Nat.lt_irrefl 0)
    · rintro ⟨hlen, -⟩
      refine ⟨_, _, rfl, by rw [Packet.getBodyLength_eq, hlen], ?_⟩
      have hdrop : (Packet.header out.cmdType out.tell ++ block.drop Packet.kPacketHeaderSize.toNat).drop
          Packet.kPacketHeaderSize.toNat = block.drop Packet.kPacketHeaderSize.toNat := List.drop_left' rfl
      rw [Packet.getBodyData, Packet.getBodyLength_eq, hdrop, hlen, contents, hblock, Option.getD_some, hoff]
      rfl

lemma Reached.givesAll_iff (h : Reached hint out) : GivesAll out ↔
    out.tell = out.length ∧ (hint ≠ 0 ∨ out.length ≠ 0) ∧ hint.toNat ≤ 2 ^ 32 - 16 := by
  rcases h.stream with ⟨hle, hs⟩ | ⟨hlt, -, hs⟩
  · rw [hs.givesAll_iff h.notTransfered, and_iff_left hle]
  · refine iff_of_false ?_ (fun h' => by omega)
    rintro ⟨p, out', hp, -⟩
    rw [hs.getPacket h.notTransfered] at hp
    cases hp

/-- **Where back-patching works.** After any writes and any calls of `Seek` for places up to `Length()`, `Seek` leads to
a place up to `Length()` exactly if it is not beyond `capacity`. An overwrite there changes exactly its bytes, and
`Seek` leads back exactly if the cursor was not beyond `capacity` either. `GetPacket` gives all that has been written
exactly if the cursor is at its end. -/
theorem back_patch_iff (hnew : newWithLen heap cmdType hint = .ok out₀) (hrun : Run Patches out₀ ops out) :
    (∀ pos ≤ out.length, SeeksTo out.toByteStream pos ↔ pos.toNat ≤ capacity hint out.length.toNat) ∧
    (∀ heap v pos, Gives heap → pos.toNat + (Value.encode v).length ≤ out.length.toNat →
      (BackPatches heap out pos v ↔
        pos.toNat ≤ capacity hint out.length.toNat ∧ out.tell.toNat ≤ capacity hint out.length.toNat)) ∧
    (GivesAll out ↔ out.tell = out.length ∧ (hint ≠ 0 ∨ out.length ≠ 0) ∧ hint.toNat ≤ 2 ^ 32 - 16) := by
  have h := reached_of_run hnew hrun
  exact ⟨fun pos _ => h.seeksTo_iff pos, fun heap v pos hheap hfit => h.backPatches_iff hheap hfit, h.givesAll_iff⟩

/-- A byte written to a stream for 16 bytes can be patched, and then `GetPacket` gives it. -/
theorem back_patch_iff_byte :
    let heap : Heap := fun _ _ => some fun _ => 0xCD
    ∃ out₀ out, newWithLen heap 5 16 = .ok out₀ ∧ Run Patches out₀ [.insert heap ⟨.uint8, (7 : UInt8)⟩] out ∧
      (SeeksTo out.toByteStream 1 ↔ (1 : UInt32).toNat ≤ capacity 16 out.length.toNat) ∧
      (BackPatches heap out 0 ⟨.uint8, (9 : UInt8)⟩ ↔
        (0 : UInt32).toNat ≤ capacity 16 out.length.toNat ∧ out.tell.toNat ≤ capacity 16 out.length.toNat) ∧
      (GivesAll out ↔ out.tell = out.length ∧ ((16 : UInt32) ≠ 0 ∨ out.length ≠ 0) ∧
        (16 : UInt32).toNat ≤ 2 ^ 32 - 16) := by
  intro heap
  have hnew : newWithLen heap 5 16 = .ok _ := rfl
  obtain ⟨hseek, hpatch, hall⟩ := back_patch_iff hnew
    (Run.nil.snoc (a := .insert heap ⟨.uint8, (7 : UInt8)⟩) ⟨fun _ h => (by cases h), rfl⟩)
  exact ⟨_, _, hnew, Run.nil.snoc ⟨fun _ h => (by cases h), rfl⟩, hseek 1 (by decide),
    hpatch heap ⟨.uint8, (9 : UInt8)⟩ 0 (fun _ _ => rfl) (by decide), hall⟩

/-- One byte that has been written to a stream for any packet. `Seek` does not lead back to its end, and when the cursor
stays in front of it, the packet is empty. -/
theorem way_back_fails :
    let heap : Heap := fun _ _ => some fun _ => 0xCD
    ∃ out₀ out, new heap 5 = .ok out₀ ∧ Run Patches out₀ [.insert heap ⟨.uint8, (7 : UInt8)⟩] out ∧
      out.length = 1 ∧ ¬ SeeksTo out.toByteStream 1 ∧ ¬ BackPatches heap out 0 ⟨.uint8, (9 : UInt8)⟩ ∧
      ¬ GivesAll { out with toByteStream := (out.seek 0).2 } := by
  intro heap
  refine ⟨_, _, rfl, Run.nil.snoc ⟨fun _ h => (by cases h), rfl⟩, rfl, fun h => h.1 rfl, ?_, ?_⟩
  · rintro ⟨-, out', hout, -, -, -, hto⟩
    obtain rfl := Except.ok.inj hout
    exact hto.1 rfl
  · rintro ⟨p, out', hp, hlen, -⟩
    obtain ⟨rfl, -⟩ := Prod.mk.inj (Except.ok.inj hp)
    revert hlen
    decide

end BackPatch

end OutPacketStream

end Zutils.Net
