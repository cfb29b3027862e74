import Mathlib.Data.List.Forall2
import Zutils.Base.ByteStreamMemory
import Zutils.Net.Codec.PacketSpec
import Zutils.Net.Codec.PacketStream

/-!
# The body of a packet, written and read

The block of an `OutPacketStream` is 16 bytes larger than `max_len_`: `Alloc` adds the header to what it asks for, and
takes it off what it remembers. So the block has room for 8 bytes more than `max_len_` says, and never shrinks
(`makesRoom_alloc`). With this the values written to the stream lie one behind the other in the body of the packet
that `GetPacket` makes, and an `InPacketStream` over the packet gives them back.
-/

namespace Zutils.Net

open Zutils.Lib Zutils.ByteStream

namespace OutPacketStream

variable {heap : Heap}

/-- Where `buffer_` points, how large the block is and what `max_len_` says of it. -/
def Shape (offset size : ℕ) (maxLen : UInt32) : Prop := offset = 8 ∧ size = maxLen.toNat + 16

section Alloc

variable {s : ByteStream} {newLen size : UInt32} {block : List UInt8}

lemma alloc_of_failed (hf : s.failed = true) : alloc heap s newLen = .ok (false, s) := if_pos hf

lemma alloc_of_le (hf : s.failed = false) (hle : newLen ≤ s.maxLen) : alloc heap s newLen = .ok (s.block.isSome, s) := by
  rw [alloc, if_neg (by simp [hf]), if_neg (UInt32.not_lt.2 hle)]

variable (hf : s.failed = false) (hgt : s.maxLen < newLen)

include hf hgt

lemma alloc_of_diverges (hgrow : growLoop Packet.kPacketHeaderSize newLen s.maxLen = .error .diverges) :
    alloc heap s newLen = .error .diverges := by
  rw [alloc, if_neg (by simp [hf]), if_pos hgt, hgrow]
  rfl

lemma alloc_of_realloc (hgrow : growLoop Packet.kPacketHeaderSize newLen s.maxLen = .ok size)
    (hr : heap.realloc s.block (size + Packet.kPacketHeaderSize).toNat = some block) :
    alloc heap s newLen = .ok (true, { s with block := some block, offset := 8, maxLen := size - 8 }) := by
  rw [alloc, if_neg (by simp [hf]), if_pos hgt, hgrow, ok_bind, hr]
  rfl

/-- When `realloc` gives nothing, `CHECK` ends the program. -/
lemma alloc_of_refusal (hgrow : growLoop Packet.kPacketHeaderSize newLen s.maxLen = .ok size)
    (hr : heap.realloc s.block (size + Packet.kPacketHeaderSize).toNat = none) : alloc heap s newLen = .error .check := by
  rw [alloc, if_neg (by simp [hf]), if_pos hgt, hgrow, ok_bind, hr]
  rfl

end Alloc

lemma alloc_ok (hheap : Gives heap) (s : ByteStream) (newLen : UInt32) (hfailed : s.failed = false)
    (hsize : s.size ≤ s.maxLen.toNat + 16) (hlt : s.maxLen < newLen) (hlimit : newLen.toNat ≤ 2 ^ 32 - 16) :
    ∃ extra maxLen, alloc heap s newLen = .ok (true, { s with
        block := some (s.block.getD [] ++ extra)
        offset := 8
        maxLen := maxLen }) ∧
      Shape 8 (s.size + extra.length) maxLen ∧ 8 + newLen.toNat ≤ s.size + extra.length := by
  have height : Packet.kPacketHeaderSize.toNat = 8 := rfl
  have hstep : newLen.toNat + Packet.kPacketHeaderSize.toNat ≤ 2 ^ 32 := by omega
  obtain ⟨n, hgrow, hnew, hmin, hmax⟩ := growLoop_ok hstep (by omega) hlt
  have hadd : (n + Packet.kPacketHeaderSize).toNat = n.toNat + 8 := toNat_add_of_lt (by omega)
  have hsub : (n - Packet.kPacketHeaderSize).toNat = n.toNat - 8 :=
    UInt32.toNat_sub_of_le _ _ (UInt32.le_iff_toNat_le.2 (by omega))
  have hle : (s.block.getD []).length ≤ n.toNat + 8 := by
    rw [← size]
    omega
  obtain ⟨extra, hrealloc, hlen⟩ := realloc_gives hheap hle
  refine ⟨extra, n - Packet.kPacketHeaderSize, ?_, ⟨rfl, ?_⟩, ?_⟩
  · exact alloc_of_realloc hfailed hlt hgrow (by rw [hadd, hrealloc])
  · rw [size, hlen, hsub]
    omega
  · rw [size, hlen]
    omega

/-- **`Alloc` of the packet stream makes room.** -/
theorem makesRoom_alloc (hheap : Gives heap) : MakesRoom (alloc heap) Shape (2 ^ 32 - 16) where
  room := by
    rintro offset size maxLen ⟨rfl, rfl⟩
    omega
  grows := by
    rintro s newLen hfailed - ⟨hoff, hsize⟩ hlt hlimit
    obtain ⟨extra, maxLen, halloc, hshape, hroom⟩ := alloc_ok hheap _ _ hfailed hsize.le hlt hlimit.le
    rw [← hoff] at halloc hshape hroom
    exact ⟨extra, maxLen, halloc, hshape, hroom⟩

/-- The stream for packets of this type holds these bytes, and its packet has not been made. -/
structure Holds (cmdType : UInt16) (out : OutPacketStream) (bytes : List UInt8) : Prop where
  written : Written Shape out.toByteStream bytes
  cmdType : out.cmdType = cmdType
  notTransfered : out.isTransfered = false

variable {cmdType : UInt16} {out : OutPacketStream} {bytes : List UInt8}

lemma alloc_new (hheap : Gives heap) {newLen : UInt32} (h0 : newLen ≠ 0) (hle : newLen.toNat ≤ 2 ^ 32 - 16) :
    ∃ s, alloc heap ByteStream.new newLen = .ok (true, s) ∧ Written Shape s [] ∧ 8 + newLen.toNat ≤ s.size := by
  have hlt : ByteStream.new.maxLen < newLen := by
    rw [UInt32.lt_iff_toNat_lt]
    exact toNat_pos h0
  obtain ⟨extra, maxLen, halloc, ⟨-, hsize⟩, hroom⟩ := alloc_ok hheap ByteStream.new newLen rfl (Nat.zero_le _) hlt hle
  have hzero : ByteStream.new.size = 0 := rfl
  rw [hzero, Nat.zero_add] at hsize hroom
  refine ⟨_, halloc, ⟨rfl, rfl, rfl, rfl, ⟨rfl, hsize⟩, extra.take 8, extra.drop 8, ?_, ?_⟩, hroom⟩
  · rw [List.append_nil, List.take_append_drop]
    rfl
  · rw [List.length_take]
    show min 8 extra.length = 8
    omega

lemma newWithLen_holds (hheap : Gives heap) (cmdType : UInt16) {dataLen : UInt32} (h0 : dataLen ≠ 0)
    (hle : dataLen.toNat ≤ 2 ^ 32 - 16) : ∃ out, newWithLen heap cmdType dataLen = .ok out ∧ Holds cmdType out [] := by
  obtain ⟨s, halloc, hwritten, -⟩ := alloc_new hheap h0 hle
  refine ⟨⟨s, false, cmdType⟩, ?_, hwritten, rfl, rfl⟩
  rw [newWithLen, halloc]
  rfl

lemma new_eq (heap : Heap) (cmdType : UInt16) : new heap cmdType = newWithLen heap cmdType 8 := rfl

lemma new_holds (hheap : Gives heap) (cmdType : UInt16) :
    ∃ out, new heap cmdType = .ok out ∧ Holds cmdType out [] := by
  rw [new_eq]
  exact newWithLen_holds hheap cmdType (by decide) (by decide)

/-- `<<` on the stream, each with the memory it meets. -/
def insertWith (out : OutPacketStream) (w : Heap × Value) : Except StreamFault OutPacketStream := out.insert w.1 w.2

lemma insertWith_appends {w : Heap × Value} (hw : Gives w.1) :
    Appends (fun w : Heap × Value => w.2.encode) (Holds cmdType) (·.length < 2 ^ 32 - 16) insertWith w := by
  intro out bytes hout hfit
  obtain ⟨s, hs, hwritten⟩ := insert_written (makesRoom_alloc hw) (by omega) hout.written hfit
  refine ⟨{ out with toByteStream := s }, ?_, hwritten, hout.cmdType, hout.notTransfered⟩
  rw [insertWith, OutPacketStream.insert, hs]
  rfl

/-- **The writes append their encodings**, one behind the other. -/
lemma insertWith_list {ws : List (Heap × Value)} (hws : ∀ w ∈ ws, Gives w.1) (hout : Holds cmdType out bytes)
    (hsize : (bytes ++ ws.flatMap fun w => w.2.encode).length < 2 ^ 32 - 16) :
    ∃ o, ws.foldlM insertWith out = .ok o ∧ Holds cmdType o (bytes ++ ws.flatMap fun w => w.2.encode) := by
  refine Appends.list (fun u v h => ?_) ws (fun w hw => insertWith_appends (hws w hw)) out bytes hout hsize
  rw [List.length_append] at h
  omega

lemma getPacket_eq {block : List UInt8} (hnew : out.isTransfered = false) (hblock : out.block = some block)
    (hlen : Packet.kPacketHeaderSize.toNat ≤ block.length) :
    out.getPacket = .ok (⟨Packet.header out.cmdType out.tell ++ block.drop Packet.kPacketHeaderSize.toNat⟩,
      { out with isTransfered := true, isNew := false }) := by
  rw [getPacket, hnew, hblock, Packet.ofData, if_pos hlen]
  rfl

lemma getPacket_ok (hout : Holds cmdType out bytes) : ∃ p out' rest, out.getPacket = .ok (p, out') ∧
    p.data = Packet.header cmdType (UInt32.ofNat bytes.length) ++ bytes ++ rest := by
  obtain ⟨head, rest, hmem, hhead⟩ := hout.written.mem
  have hoff : head.length = 8 := hhead.trans hout.written.inv.1
  have htell : out.tell = UInt32.ofNat bytes.length := by
    apply UInt32.toNat_inj.1
    have hlt := out.currentPos.toNat_lt
    have hpos := hout.written.pos
    rw [ByteStream.tell, UInt32.toNat_ofNat', Nat.mod_eq_of_lt (by omega), hpos]
  obtain ⟨block, hblock⟩ : ∃ block, out.block = some block := by
    rcases hb : out.block with _ | block
    · have hlen := congrArg List.length hmem
      rw [hb, Option.getD_none, List.length_append, List.length_append, hoff, List.length_nil] at hlen
      omega
    · exact ⟨block, rfl⟩
  rw [hblock, Option.getD_some, List.append_assoc] at hmem
  have height : Packet.kPacketHeaderSize.toNat = 8 := rfl
  have hlen : Packet.kPacketHeaderSize.toNat ≤ block.length := by
    rw [hmem, List.length_append, hoff]
    omega
  have hdrop : block.drop Packet.kPacketHeaderSize.toNat = bytes ++ rest := by
    rw [hmem]
    exact List.drop_left' hoff
  refine ⟨⟨Packet.header cmdType (UInt32.ofNat bytes.length) ++ (bytes ++ rest)⟩,
    { out with isTransfered := true, isNew := false }, rest, ?_, (List.append_assoc _ _ _).symm⟩
  rw [getPacket_eq hout.notTransfered hblock hlen, hout.cmdType, htell, hdrop]

end OutPacketStream

/-! ### The packet -/

section Round

variable {cmdType : UInt16} {bytes rest : List UInt8} {p : Packet}

lemma rawdata_eq (hdata : p.data = Packet.header cmdType (UInt32.ofNat bytes.length) ++ bytes ++ rest)
    (hlen : bytes.length < 2 ^ 32 - 16) :
    p.getBodyLength.toNat = bytes.length ∧
      p.getRawdata = Packet.header cmdType (UInt32.ofNat bytes.length) ++ bytes := by
  obtain rfl : p = ⟨Packet.header cmdType (UInt32.ofNat bytes.length) ++ (bytes ++ rest)⟩ := by
    rw [← List.append_assoc, ← hdata]
  have height : Packet.kPacketHeaderSize.toNat = 8 := rfl
  have hnat : (UInt32.ofNat bytes.length).toNat = bytes.length := by
    rw [UInt32.toNat_ofNat', Nat.mod_eq_of_lt (by omega)]
  refine ⟨by rw [Packet.getBodyLength_eq, hnat], ?_⟩
  rw [Packet.getRawdata, Packet.getRawdataLength, Packet.getBodyLength_eq, toNat_add_of_lt (by omega), hnat,
    ← List.append_assoc]
  refine List.take_left' ?_
  rw [List.length_append, Nat.add_comm]
  rfl

lemma ahead_new (hdata : p.data = Packet.header cmdType (UInt32.ofNat bytes.length) ++ bytes ++ rest)
    (hlen : p.getBodyLength.toNat = bytes.length) : Ahead p.getBodyLength (InPacketStream.new p) (bytes ++ []) where
  notFailed := rfl
  max := rfl
  pos := by
    rw [List.append_nil, ← hlen]
    exact Nat.zero_add _
  mem := by
    refine ⟨Packet.header cmdType (UInt32.ofNat bytes.length), rest, ?_, rfl⟩
    rw [List.append_nil]
    exact hdata

lemma extract_consumes (m : UInt32) :
    Consumes Value.encode (Ahead m) (fun d v => d.1 = v.1) ByteStream.extract :=
  fun _ _ _ _ ha hd => extract_ahead ha hd

end Round

/-- **Typed values written to an `OutPacketStream` are read back from the packet.** Writing the values never fails. The
packet is the header and the encodings of the values, one behind the other. Reading on variables of the same types
never fails, gives the values and ends at the end of the body. Each write meets its own memory, which has the space it
asks for. -/
theorem body_round_trip (cmdType : UInt16) (heap : Heap) (ws : List (Heap × Value)) (dests : List Value)
    (hheap : Gives heap) (hws : ∀ w ∈ ws, Gives w.1)
    (hsize : (ws.flatMap fun w => w.2.encode).length < 2 ^ 32 - 16)
    (hdests : dests.map Sigma.fst = ws.map fun w => w.2.1) :
    ∃ out out' p out'' r, OutPacketStream.new heap cmdType = .ok out ∧
      (∀ k, ∃ o, (ws.take k).foldlM OutPacketStream.insertWith out = .ok o ∧ o.fail = false) ∧
      ws.foldlM OutPacketStream.insertWith out = .ok out' ∧ out'.getPacket = .ok (p, out'') ∧
      p.getBodyLength.toNat = (ws.flatMap fun w => w.2.encode).length ∧
      p.getRawdata = Packet.header cmdType p.getBodyLength ++ ws.flatMap (fun w => w.2.encode) ∧
      (∀ k, ∃ s, readAll ByteStream.extract (InPacketStream.new p) (dests.take k) = .ok ((ws.take k).map Prod.snd, s) ∧
        s.fail = false) ∧
      readAll ByteStream.extract (InPacketStream.new p) dests = .ok (ws.map Prod.snd, r) ∧ r.fail = false ∧
      r.tell = p.getBodyLength := by
  obtain ⟨out, hout, hnew⟩ := OutPacketStream.new_holds hheap cmdType
  -- the writes, all of them or only the first ones
  have hwrite : ∀ vs : List (Heap × Value), vs <+: ws → ∃ o, vs.foldlM OutPacketStream.insertWith out = .ok o ∧
      OutPacketStream.Holds cmdType o (vs.flatMap fun w => w.2.encode) := by
    rintro vs ⟨us, rfl⟩
    rw [List.flatMap_append, List.length_append] at hsize
    refine OutPacketStream.insertWith_list (fun w hw => hws w (List.mem_append_left _ hw)) hnew ?_
    show (vs.flatMap fun w => w.2.encode).length < 2 ^ 32 - 16
    omega
  obtain ⟨out', hout', hholds⟩ := hwrite ws (List.prefix_refl ws)
  obtain ⟨p, out'', rest, hp, hdata⟩ := OutPacketStream.getPacket_ok hholds
  obtain ⟨hlen, hraw⟩ := rawdata_eq hdata hsize
  have hahead := ahead_new hdata hlen
  -- the reads, again all of them or only the first ones
  have htypes : List.Forall₂ (fun (d : Value) (w : Heap × Value) => d.1 = w.2.1) dests ws := by
    rwa [← List.forall₂_eq_eq_eq, List.forall₂_map_left_iff, List.forall₂_map_right_iff] at hdests
  have hread : ∀ k, ∃ s, readAll ByteStream.extract (InPacketStream.new p) (dests.take k) =
      .ok ((ws.take k).map Prod.snd, s) ∧
      Ahead p.getBodyLength s ((ws.drop k).flatMap fun w => w.2.encode) := by
    intro k
    have hds : List.Forall₂ (fun (d v : Value) => d.1 = v.1) (dests.take k) ((ws.take k).map Prod.snd) :=
      List.forall₂_map_right_iff.2 (List.forall₂_take k htypes)
    refine (extract_consumes p.getBodyLength).list hds _ _ ?_
    rwa [List.flatMap_map, ← List.flatMap_append, List.take_append_drop, ← List.append_nil (ws.flatMap _)]
  obtain ⟨r, hr, hend⟩ := hread ws.length
  have hdests_length : dests.length = ws.length := htypes.length_eq
  rw [List.take_length, ← hdests_length, List.take_length] at hr
  rw [List.drop_length, List.flatMap_nil] at hend
  refine ⟨out, out', p, out'', r, hout, ?_, hout', hp, hlen, ?_, ?_, hr, hend.notFailed, ?_⟩
  · intro k
    obtain ⟨o, ho, hok⟩ := hwrite (ws.take k) (List.take_prefix k ws)
    exact ⟨o, ho, hok.written.notFailed⟩
  · rw [hraw, ← hlen, UInt32.ofNat_toNat]
  · intro k
    obtain ⟨s, hs, hahead⟩ := hread k
    exact ⟨s, hs, hahead.notFailed⟩
  · apply UInt32.toNat_inj.1
    have hpos := hend.pos
    rwa [List.length_nil, Nat.add_zero, hend.max] at hpos

/-- A flag, a negative number and a string, each read on a variable that holds something else. -/
theorem body_round_trip_three :
    let heap : Heap := fun _ _ => some fun _ => 0xCD
    let ws : List (Heap × Value) := [(heap, ⟨.bool, true⟩), (heap, ⟨.int16, -2⟩), (heap, ⟨.string, [104, 105]⟩)]
    let dests : List Value := [⟨.bool, false⟩, ⟨.int16, 7⟩, ⟨.string, [1]⟩]
    ∃ out out' p out'' r, OutPacketStream.new heap 5 = .ok out ∧
      (∀ k, ∃ o, (ws.take k).foldlM OutPacketStream.insertWith out = .ok o ∧ o.fail = false) ∧
      ws.foldlM OutPacketStream.insertWith out = .ok out' ∧ out'.getPacket = .ok (p, out'') ∧
      p.getBodyLength.toNat = (ws.flatMap fun w => w.2.encode).length ∧
      p.getRawdata = Packet.header 5 p.getBodyLength ++ ws.flatMap (fun w => w.2.encode) ∧
      (∀ k, ∃ s, readAll ByteStream.extract (InPacketStream.new p) (dests.take k) = .ok ((ws.take k).map Prod.snd, s) ∧
        s.fail = false) ∧
      readAll ByteStream.extract (InPacketStream.new p) dests = .ok (ws.map Prod.snd, r) ∧ r.fail = false ∧
      r.tell = p.getBodyLength :=
  body_round_trip 5 (fun _ _ => some fun _ => 0xCD)
    [(fun _ _ => some fun _ => 0xCD, ⟨.bool, true⟩), (fun _ _ => some fun _ => 0xCD, ⟨.int16, -2⟩),
      (fun _ _ => some fun _ => 0xCD, ⟨.string, [104, 105]⟩)]
    [⟨.bool, false⟩, ⟨.int16, 7⟩, ⟨.string, [1]⟩] (fun _ _ => rfl) (by simp [Gives]) (by decide) rfl

end Zutils.Net
