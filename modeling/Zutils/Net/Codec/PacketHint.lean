import Zutils.Net.Codec.PacketPatch

/-!
# The length that an `OutPacketStream` is made for

One constructor of `OutPacketStream` takes the number of bytes that will be written, the other makes room for 8. The
number should be no more than a hint, since the block grows as it has to: the packets should be the same, byte for
byte. They are if the number is not 0 and its block can be allocated (`same_packet_iff`). For 0 there is no block before
the first write, and `GetPacket` finds none if nothing is written. Near `2 ^ 32` the size of the block wraps to 0, or
the loop that looks for it never ends.
-/

namespace Zutils.Net

open Zutils.Lib Zutils.ByteStream

namespace OutPacketStream

/-- The packet of a stream after these writes, each with the memory it meets. -/
def packetAfter (ws : List (Heap × Value)) (out : OutPacketStream) : Except StreamFault Packet := do
  let out ← ws.foldlM insertWith out
  let (p, _) ← out.getPacket
  return p

/-- Either constructor leads to a packet, all of it in its block, and the two packets are the same, byte for byte. -/
def SamePacket (heap₁ heap₂ : Heap) (cmdType : UInt16) (dataLen : UInt32) (ws₁ ws₂ : List (Heap × Value)) : Prop :=
  ∃ p₁ p₂, newWithLen heap₁ cmdType dataLen >>= packetAfter ws₁ = .ok p₁ ∧
    new heap₂ cmdType >>= packetAfter ws₂ = .ok p₂ ∧
    p₁.getRawdataLength.toNat ≤ p₁.data.length ∧ p₂.getRawdataLength.toNat ≤ p₂.data.length ∧
    p₁.getRawdata = p₂.getRawdata

section Hint

variable {heap : Heap} {cmdType : UInt16} {dataLen : UInt32} {out : OutPacketStream} {s : ByteStream}
  {bytes : List UInt8} {ws : List (Heap × Value)}

/-! ### The first write -/

lemma insert_first (hheap : Gives heap) (v : Value) (hfit : v.encode.length < 2 ^ 32 - 16) :
    ∃ s, ByteStream.new.insert (alloc heap) v = .ok s ∧ Written Shape s v.encode := by
  obtain ⟨data, ds, hv, hne, hle⟩ := pieces_cons v
  have hflat := flatten_pieces v
  rw [hv, List.flatten_cons] at hflat
  have hzero : ByteStream.new.currentPos.toNat = 0 := rfl
  obtain ⟨hn, h0, hend⟩ := piece_length ByteStream.new hne (by omega)
  have hpos := List.length_pos_of_ne_nil hne
  have hgt : ByteStream.new.currentPos + UInt32.ofNat data.length > ByteStream.new.maxLen := by
    rw [gt_iff_lt, UInt32.lt_iff_toNat_lt, hend]
    show 0 < 0 + data.length
    omega
  -- the first piece
  obtain ⟨s₁, halloc, hs₁, hroom⟩ := alloc_new hheap h0 (by omega)
  have hoff : s₁.offset = 8 := hs₁.inv.1
  obtain ⟨s₂, hput, hs₂⟩ := putRawData_written hs₁ hn (by rw [List.length_nil]; omega) (by rw [List.length_nil]; omega)
  have hwrite : ByteStream.new.writeRawData (alloc heap) data (UInt32.ofNat data.length) = .ok (true, s₂) := by
    have hnew : ByteStream.new.isNew = true := rfl
    rw [writeRawData, if_neg (by simp [ByteStream.new]), if_neg h0, if_pos hgt, if_pos hnew]
    show (alloc heap ByteStream.new (0 + UInt32.ofNat data.length) >>= _) = _
    rw [UInt32.zero_add, halloc]
    exact hput
  -- and the others
  rw [List.nil_append] at hs₂
  obtain ⟨s₃, hrest, hs₃⟩ := writePieces_written (makesRoom_alloc hheap) (by omega) ds s₂ data hs₂
    (by rw [hflat]; exact hfit)
  rw [hflat] at hs₃
  refine ⟨s₃, ?_, hs₃⟩
  rw [insert_eq, hv, writePieces, hwrite, ok_bind]
  show (writePieces _ s₂ ds >>= _) = _
  rw [hrest]
  rfl

/-! ### The packets -/

lemma packetAfter_ok (hws : ∀ w ∈ ws, Gives w.1) (hout : Holds cmdType out bytes)
    (hsize : (bytes ++ ws.flatMap fun w => w.2.encode).length < 2 ^ 32 - 16) :
    ∃ p, packetAfter ws out = .ok p ∧ p.getRawdataLength.toNat ≤ p.data.length ∧
      p.getRawdata = Packet.header cmdType (UInt32.ofNat (bytes ++ ws.flatMap fun w => w.2.encode).length) ++
        (bytes ++ ws.flatMap fun w => w.2.encode) := by
  obtain ⟨o, hwrite, hholds⟩ := insertWith_list hws hout hsize
  obtain ⟨p, out', rest, hp, hdata⟩ := getPacket_ok hholds
  obtain ⟨hlen, hraw⟩ := rawdata_eq hdata hsize
  refine ⟨p, ?_, ?_, hraw⟩
  · rw [packetAfter, hwrite, ok_bind, hp]
    rfl
  · have height : Packet.kPacketHeaderSize.toNat = 8 := rfl
    have hdatalen := congrArg List.length hdata
    rw [List.length_append, List.length_append, Packet.header_length] at hdatalen
    rw [Packet.getRawdataLength, toNat_add_of_lt (by omega), hlen, height, hdatalen]
    omega

lemma packet_of_newWithLen (cmdType : UInt16) (dataLen : UInt32) (hheap : Gives heap)
    (hws : ∀ w ∈ ws, Gives w.1) (hsize : (ws.flatMap fun w => w.2.encode).length < 2 ^ 32 - 16)
    (hle : dataLen.toNat ≤ 2 ^ 32 - 16) (h0 : dataLen ≠ 0 ∨ ws ≠ []) :
    ∃ p, newWithLen heap cmdType dataLen >>= packetAfter ws = .ok p ∧ p.getRawdataLength.toNat ≤ p.data.length ∧
      p.getRawdata = Packet.header cmdType (UInt32.ofNat (ws.flatMap fun w => w.2.encode).length) ++
        ws.flatMap fun w => w.2.encode := by
  by_cases hzero : dataLen = 0
  · subst hzero
    rcases ws with _ | ⟨w, ws⟩
    · exact absurd (h0.resolve_left fun h => h rfl) fun h => h rfl
    rw [List.flatMap_cons] at hsize ⊢
    obtain ⟨s, hinsert, hs⟩ := insert_first (hws w List.mem_cons_self) w.2 (by
      rw [List.length_append] at hsize
      omega)
    have hout : Holds cmdType ⟨s, false, cmdType⟩ w.2.encode := ⟨hs, rfl, rfl⟩
    obtain ⟨p, hp, hrest⟩ := packetAfter_ok (fun w hw => hws w (List.mem_cons_of_mem _ hw)) hout hsize
    refine ⟨p, ?_, hrest⟩
    rw [← hp]
    show packetAfter (w :: ws) ⟨ByteStream.new, false, cmdType⟩ = _
    rw [packetAfter, List.foldlM_cons, insertWith, OutPacketStream.insert, hinsert]
    rfl
  · obtain ⟨out, hout, hholds⟩ := newWithLen_holds hheap cmdType hzero hle
    obtain ⟨p, hp, hrest⟩ := packetAfter_ok hws hholds hsize
    rw [hout]
    exact ⟨p, hp, hrest⟩

/-- A stream that leads to a packet has a block, and its size has not wrapped. -/
lemma hint_of_packet {p : Packet} (h : newWithLen heap cmdType dataLen >>= packetAfter ws = .ok p) :
    dataLen.toNat ≤ 2 ^ 32 - 16 ∧ (dataLen ≠ 0 ∨ ws ≠ []) := by
  obtain ⟨out, hnew, hp⟩ := bind_eq_ok.1 h
  constructor
  · rcases (reached_new hnew).stream with ⟨hle, -⟩ | ⟨-, -, hs⟩
    · exact hle
    rcases ws with _ | ⟨w, ws⟩
    · rw [packetAfter, List.foldlM_nil, pure_bind, hs.getPacket (reached_new hnew).notTransfered] at hp
      cases hp
    · rw [packetAfter, List.foldlM_cons, insertWith, OutPacketStream.insert, hs.insert] at hp
      cases hp
  · by_contra hno
    rw [not_or, not_not, not_not] at hno
    obtain ⟨rfl, rfl⟩ := hno
    obtain rfl := Except.ok.inj hnew
    cases hp

/-- **The length given to the constructor does not matter**, if it is not too large, and not 0 when nothing is written:
exactly then the packet is in its block and the same as that of a stream made without a length. The writes may meet
different memory on the two paths. -/
theorem same_packet_iff (cmdType : UInt16) (dataLen : UInt32) (heap₁ heap₂ : Heap) (ws₁ ws₂ : List (Heap × Value))
    (hheap₁ : Gives heap₁) (hheap₂ : Gives heap₂) (hws₁ : ∀ w ∈ ws₁, Gives w.1) (hws₂ : ∀ w ∈ ws₂, Gives w.1)
    (hsame : ws₁.map Prod.snd = ws₂.map Prod.snd) (hsize : (ws₁.flatMap fun w => w.2.encode).length < 2 ^ 32 - 16) :
    SamePacket heap₁ heap₂ cmdType dataLen ws₁ ws₂ ↔ dataLen.toNat ≤ 2 ^ 32 - 16 ∧ (dataLen ≠ 0 ∨ ws₁ ≠ []) := by
  constructor
  · rintro ⟨p₁, p₂, hp₁, -⟩
    exact hint_of_packet hp₁
  · rintro ⟨hle, h0⟩
    have hbytes : (ws₂.flatMap fun w => w.2.encode) = ws₁.flatMap fun w => w.2.encode := by
      rw [← List.flatMap_map Prod.snd, ← hsame, List.flatMap_map]
    obtain ⟨p₁, hp₁, hin₁, hraw₁⟩ := packet_of_newWithLen cmdType dataLen hheap₁ hws₁ hsize hle h0
    obtain ⟨p₂, hp₂, hin₂, hraw₂⟩ := packet_of_newWithLen cmdType 8 hheap₂ hws₂
      (by rw [hbytes]; exact hsize) (by decide) (.inl (by decide))
    rw [← new_eq] at hp₂
    refine ⟨p₁, p₂, hp₁, hp₂, hin₁, hin₂, ?_⟩
    rw [hraw₁, hraw₂, hbytes]

/-- A flag and a string, written to a stream made for no bytes. -/
theorem same_packet_iff_two :
    let heap : Heap := fun _ _ => some fun _ => 0xCD
    let ws : List (Heap × Value) := [(heap, ⟨.bool, true⟩), (heap, ⟨.string, [104, 105]⟩)]
    SamePacket heap heap 5 0 ws ws ↔ (0 : UInt32).toNat ≤ 2 ^ 32 - 16 ∧ ((0 : UInt32) ≠ 0 ∨ ws ≠ []) :=
  same_packet_iff 5 0 (fun _ _ => some fun _ => 0xCD) (fun _ _ => some fun _ => 0xCD)
    [(fun _ _ => some fun _ => 0xCD, ⟨.bool, true⟩), (fun _ _ => some fun _ => 0xCD, ⟨.string, [104, 105]⟩)]
    [(fun _ _ => some fun _ => 0xCD, ⟨.bool, true⟩), (fun _ _ => some fun _ => 0xCD, ⟨.string, [104, 105]⟩)]
    (fun _ _ => rfl) (fun _ _ => rfl) (by simp [Gives]) (by simp [Gives]) rfl (by decide)

/-- Without any writes, the stream made for no bytes has no block when `GetPacket` writes the header. -/
theorem no_block_for_header :
    let heap : Heap := fun _ _ => some fun _ => 0xCD
    Gives heap ∧ (∃ p, new heap 5 >>= packetAfter [] = .ok p ∧ p.getRawdata = [0, 0, 0, 5, 0, 0, 0, 0]) ∧
      newWithLen heap 5 0 >>= packetAfter [] = .error .outOfRange ∧ ¬ SamePacket heap heap 5 0 [] [] := by
  intro heap
  refine ⟨fun _ _ => rfl, ⟨_, rfl, by decide⟩, rfl, ?_⟩
  rintro ⟨p, -, hp, -⟩
  cases hp

end Hint

end OutPacketStream

end Zutils.Net
