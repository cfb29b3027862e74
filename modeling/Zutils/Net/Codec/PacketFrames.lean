import Zutils.Lib.Run
import Zutils.Net.Codec.PacketSpec
import Mathlib.Data.List.Forall2

/-!
# What the packet codecs deliver

`Lawful` connects a codec to its wire format: its header parser decides what the format decides, and a packet built
from a frame has the content of the frame. For a lawful codec one call of `OnDataReceived` takes exactly what stands
at the front of the buffer (`onDataReceived_spec`): nothing, an invalid header, or one frame. Over a run this gives
that the packets delivered are the frames at the front of the stream, whatever the delegate answers
(`packets_are_frames`).
-/

namespace Zutils.Net

open Zutils.Lib

namespace PacketCodec

variable {H P : Type}

/-- The codec parses headers and builds packets as the wire format with the header size `size` says. -/
structure Lawful (codec : PacketCodec H P) (size : ℕ) (bodyLength : List UInt8 → Option ℕ)
    (wire : List UInt8 → Content) (content : P → Content) : Prop where
  size_eq : codec.kPacketHeaderSize.toNat = size
  invalid : ∀ header, header.length = size → bodyLength header = none → (codec.parsePacketHeader header).1 = -1
  valid : ∀ header n, header.length = size → bodyLength header = some n →
    (codec.parsePacketHeader header).1 = (if n = 0 then 1 else 0) ∧
    (codec.parsePacketHeader header).2.2.toNat = n ∧ n + size < 2 ^ 31
  /-- A packet without a body. -/
  empty : ∀ mem header, header.length = size → bodyLength header = some 0 →
    ∃ p, codec.newPacket mem (codec.parsePacketHeader header).2.1 0 = .ok p ∧ content p = wire header
  build : ∀ mem header body, header.length = size → bodyLength header = some body.length →
    ∃ p p', codec.newPacket mem (codec.parsePacketHeader header).2.1 (codec.parsePacketHeader header).2.2 = .ok p ∧
      codec.copyBody p body = .ok p' ∧ content p' = wire (header ++ body)

end PacketCodec

/-! ### Both codecs are lawful -/

section Lawful

variable {header : List UInt8} {n : ℕ}

lemma znet_parse (hlen : header.length = 8) (hn : znetBodyLength header = some n) :
    ZNetPacketHeader.parsePacketHeader header = (if n = 0 then 1 else 0, get16 header 2, get32 header 4) ∧
      (get32 header 4).toNat = n ∧ field header 4 4 = n ∧ n ≤ 2 * 1024 * 1024 := by
  have hfield : (get32 header 4).toNat = field header 4 4 := get32_eq_field (by omega)
  unfold znetBodyLength at hn
  split at hn
  · rename_i hle
    have hn := Option.some.inj hn
    have hmax : ¬ get32 header 4 > ZNetPacketHeader.kMaxPacketSize := by
      rw [gt_iff_lt, UInt32.lt_iff_toNat_lt, hfield]
      exact Nat.not_lt.2 hle
    have hzero : get32 header 4 = 0 ↔ n = 0 := by
      rw [← UInt32.toNat_inj, hfield, hn]
      rfl
    refine ⟨?_, hfield.trans hn, hn, hn ▸ hle⟩
    rw [ZNetPacketHeader.parsePacketHeader, if_neg hmax]
    by_cases h0 : n = 0
    · rw [if_pos (hzero.2 h0), if_pos h0]
    · rw [if_neg (mt hzero.1 h0), if_neg h0]
  · cases hn

theorem znet_lawful : znetCodec.Lawful 8 znetBodyLength znetContent Packet.content where
  size_eq := rfl
  invalid header hlen hn := by
    have hfield : (get32 header 4).toNat = field header 4 4 := get32_eq_field (by omega)
    unfold znetBodyLength at hn
    split at hn
    · cases hn
    · rename_i hgt
      have hmax : get32 header 4 > ZNetPacketHeader.kMaxPacketSize := by
        rw [gt_iff_lt, UInt32.lt_iff_toNat_lt, hfield]
        exact Nat.lt_of_not_le hgt
      show (ZNetPacketHeader.parsePacketHeader header).1 = -1
      rw [ZNetPacketHeader.parsePacketHeader, if_pos hmax]
  valid header n hlen hn := by
    obtain ⟨hparse, hto, -, hle⟩ := znet_parse hlen hn
    show (ZNetPacketHeader.parsePacketHeader header).1 = _ ∧
      (ZNetPacketHeader.parsePacketHeader header).2.2.toNat = n ∧ _
    rw [hparse]
    exact ⟨rfl, hto, by omega⟩
  empty mem header hlen hn := by
    obtain ⟨hparse, hto, hfield, -⟩ := znet_parse hlen hn
    refine ⟨_, Packet.new_eq mem _ (by decide), ?_⟩
    rw [Packet.content_eq (by simp)]
    show Content.mk (ZNetPacketHeader.parsePacketHeader header).2.1.toNat none 0 [] = _
    rw [hparse, znetContent, get16_eq_field (by omega), hfield, List.drop_eq_nil_of_le (by omega)]
  build mem header body hlen hn := by
    obtain ⟨hparse, hto, hfield, hle⟩ := znet_parse hlen hn
    have hnew := Packet.new_eq mem (get16 header 2) (show (get32 header 4).toNat + 8 < 2 ^ 32 by omega)
    have hlen' : body.length = (mem.bytes 8 (get32 header 4).toNat).length := by simp [hto]
    refine ⟨⟨Packet.header (get16 header 2) (get32 header 4) ++ _⟩, _, ?_, Packet.copyBody_eq hlen', ?_⟩
    · show Packet.new mem (ZNetPacketHeader.parsePacketHeader header).2.1
        (ZNetPacketHeader.parsePacketHeader header).2.2 = _
      rw [hparse, hnew]
    · rw [Packet.content_eq hto.symm, znetContent, field_append (by omega), field_append (by omega), hfield, hto,
        get16_eq_field (by omega), List.drop_left' hlen]

lemma teamTalk_valid (hlen : header.length = 12) :
    (¬ (get16 header 8 ≠ TeamTalkPacket.kPacketVersion ∨ get32 header 0 > TeamTalkPacket.kMaxPacketSize ∨
      get32 header 0 < TeamTalkPacket.kPacketHeaderSize)) ↔
    field header 8 2 = 1 ∧ 12 ≤ field header 0 4 ∧ field header 0 4 ≤ 64 * 1024 * 1024 := by
  have hv : (get16 header 8).toNat = field header 8 2 := get16_eq_field (by omega)
  have hl : (get32 header 0).toNat = field header 0 4 := get32_eq_field (by omega)
  have hv' : get16 header 8 = TeamTalkPacket.kPacketVersion ↔ field header 8 2 = 1 := by
    rw [← UInt16.toNat_inj, hv]
    rfl
  have hmax : get32 header 0 > TeamTalkPacket.kMaxPacketSize ↔ 64 * 1024 * 1024 < field header 0 4 := by
    rw [gt_iff_lt, UInt32.lt_iff_toNat_lt, hl]
    rfl
  have hmin : get32 header 0 < TeamTalkPacket.kPacketHeaderSize ↔ field header 0 4 < 12 := by
    rw [UInt32.lt_iff_toNat_lt, hl]
    rfl
  rw [Ne, hv', hmax, hmin]
  omega

lemma teamTalk_parse (hlen : header.length = 12) (hn : teamTalkBodyLength header = some n) :
    ∃ bodyLen : UInt32, TeamTalkPacket.parsePacketHeader header =
        (if n = 0 then 1 else 0, (get32 header 4, get16 header 10), bodyLen) ∧
      bodyLen.toNat = n ∧ field header 0 4 = n + 12 ∧ n + 12 ≤ 64 * 1024 * 1024 := by
  have hl : (get32 header 0).toNat = field header 0 4 := get32_eq_field (by omega)
  unfold teamTalkBodyLength at hn
  split at hn
  · rename_i hvalid
    have hn := Option.some.inj hn
    have hzero : get32 header 0 = TeamTalkPacket.kPacketHeaderSize ↔ n = 0 := by
      have h12 : get32 header 0 = TeamTalkPacket.kPacketHeaderSize ↔ field header 0 4 = 12 := by
        rw [← UInt32.toNat_inj, hl]
        rfl
      rw [h12]
      omega
    by_cases h0 : n = 0
    · refine ⟨0, ?_, h0.symm, by omega, by omega⟩
      rw [TeamTalkPacket.parsePacketHeader, if_neg ((teamTalk_valid hlen).2 hvalid), if_pos (hzero.2 h0), if_pos h0]
    · refine ⟨get32 header 0 - TeamTalkPacket.kPacketHeaderSize, ?_, ?_, by omega, by omega⟩
      · rw [TeamTalkPacket.parsePacketHeader, if_neg ((teamTalk_valid hlen).2 hvalid), if_neg (mt hzero.1 h0),
          if_neg h0]
      · rw [UInt32.toNat_sub_of_le]
        · rw [hl, ← hn]
          rfl
        · rw [UInt32.le_iff_toNat_le, hl]
          exact hvalid.2.1
  · cases hn

theorem teamTalk_lawful :
    teamTalkCodec.Lawful 12 teamTalkBodyLength teamTalkContent TeamTalkPacket.content where
  size_eq := rfl
  invalid header hlen hn := by
    unfold teamTalkBodyLength at hn
    split at hn
    · cases hn
    · rename_i hinvalid
      show (TeamTalkPacket.parsePacketHeader header).1 = -1
      rw [TeamTalkPacket.parsePacketHeader, if_pos (Classical.not_not.1 (mt (teamTalk_valid hlen).1 hinvalid))]
  valid header n hlen hn := by
    obtain ⟨bodyLen, hparse, hto, -, hle⟩ := teamTalk_parse hlen hn
    show (TeamTalkPacket.parsePacketHeader header).1 = _ ∧ (TeamTalkPacket.parsePacketHeader header).2.2.toNat = n ∧ _
    rw [hparse]
    exact ⟨rfl, hto, by omega⟩
  empty mem header hlen hn := by
    obtain ⟨bodyLen, hparse, -, hfield, -⟩ := teamTalk_parse hlen hn
    refine ⟨_, TeamTalkPacket.new_eq mem _ _ (by decide), ?_⟩
    rw [TeamTalkPacket.content_eq (by simp)]
    show Content.mk (TeamTalkPacket.parsePacketHeader header).2.1.1.toNat
      (some (TeamTalkPacket.parsePacketHeader header).2.1.2.toNat) 0 [] = _
    rw [hparse, teamTalkContent, get32_eq_field (by omega), get16_eq_field (by omega), hfield,
      List.drop_eq_nil_of_le (by omega)]
  build mem header body hlen hn := by
    obtain ⟨bodyLen, hparse, hto, hfield, hle⟩ := teamTalk_parse hlen hn
    have hnew := TeamTalkPacket.new_eq mem (get32 header 4) (get16 header 10)
      (show bodyLen.toNat + 12 < 2 ^ 32 by omega)
    have hlen' : body.length = (mem.bytes 12 bodyLen.toNat).length := by simp [hto]
    refine ⟨⟨TeamTalkPacket.header (get32 header 4) (get16 header 10) bodyLen ++ _⟩, _, ?_,
      TeamTalkPacket.copyBody_eq hlen', ?_⟩
    · show TeamTalkPacket.new mem (TeamTalkPacket.parsePacketHeader header).2.1.1
        (TeamTalkPacket.parsePacketHeader header).2.1.2 (TeamTalkPacket.parsePacketHeader header).2.2 = _
      rw [hparse, hnew]
    · rw [TeamTalkPacket.content_eq hto.symm, teamTalkContent, field_append (by omega), field_append (by omega),
        field_append (by omega), hfield, hto, get32_eq_field (by omega), get16_eq_field (by omega),
        List.drop_left' hlen, Nat.add_sub_cancel]

end Lawful

/-! ### One call -/

namespace PacketCodec

variable {H P : Type} {codec : PacketCodec H P} {size : ℕ} {bodyLength : List UInt8 → Option ℕ}
  {wire : List UInt8 → Content} {content : P → Content} {mem : Mem} {delegate : List P → ℤ} {seen : List P}
  {b : IOBuffer}

/-- What a call leaves, by what stands at the front of the buffer: it takes at most one frame. -/
def Turn (F : Framing UInt8 Content) (content : P → Content) (delegate : List P → ℤ) (seen : List P) (b : IOBuffer)
    (s : State P) : Prop :=
  match F.front b.readable with
  | .wait => s = ⟨0, seen, b⟩
  | .bad => s = ⟨-1, seen, b⟩
  | .frame n x => ∃ p, content p = x ∧ s.ret = delegate (seen ++ [p]) ∧ s.seen = seen ++ [p] ∧ s.data.Ok ∧
      s.data.readable = b.readable.drop n

lemma intSize_eq {x : UInt32} (h : x.toNat < 2 ^ 31) : intSize x = x.toNat := by
  unfold intSize
  rw [Int.bmod_eq_of_le (by omega) (by omega)]
  omega

lemma load_eq (hok : b.Ok) {off n : ℕ} (h : off + n ≤ b.readableBytes) :
    b.load off n = .ok ((b.readable.drop off).take n) := by
  have h1 := hok.le_writer
  have h2 := hok.le_size
  unfold IOBuffer.readableBytes at h
  have htake : (b.readable.drop off).take n = (b.buffer.drop (b.readerIndex + off)).take n := by
    rw [IOBuffer.readable, IOBuffer.peek, List.drop_take, List.drop_drop, List.take_take,
      Nat.min_eq_left (by unfold IOBuffer.readableBytes; omega)]
  rw [IOBuffer.load, if_pos (by omega), htake]

section Branches

variable {fields : H} {bodyLen : UInt32} {p p' : P} {b' : IOBuffer} {body : List UInt8}

lemma round_short (hr : ¬ codec.kPacketHeaderSize.toNat ≤ b.readableBytes) :
    codec.round mem delegate ⟨0, seen, b⟩ = .ok (.inr ⟨0, seen, b⟩) := by
  rw [round, if_neg hr]
  rfl

variable (hr : codec.kPacketHeaderSize.toNat ≤ b.readableBytes)

include hr

lemma round_invalid
    (hp : codec.parsePacketHeader (b.peek codec.kPacketHeaderSize.toNat) = (-1, fields, bodyLen)) :
    codec.round mem delegate ⟨0, seen, b⟩ = .ok (.inr ⟨-1, seen, b⟩) := by
  rw [round, if_pos hr, hp]
  rfl

lemma round_empty (hp : codec.parsePacketHeader (b.peek codec.kPacketHeaderSize.toNat) = (1, fields, bodyLen))
    (hnew : codec.newPacket mem fields 0 = .ok p) (hb' : b.retrieve codec.kPacketHeaderSize.toNat = .ok b') :
    codec.round mem delegate ⟨0, seen, b⟩ = .ok (.inr ⟨delegate (seen ++ [p]), seen ++ [p], b'⟩) := by
  rw [round, if_pos hr, hp]
  dsimp only
  rw [if_neg (by decide), if_pos rfl, hnew, ok_bind, hb']
  rfl

lemma round_incomplete (hp : codec.parsePacketHeader (b.peek codec.kPacketHeaderSize.toNat) = (0, fields, bodyLen))
    (hfull : ¬ intSize (bodyLen + codec.kPacketHeaderSize) ≤ b.readableBytes) :
    codec.round mem delegate ⟨0, seen, b⟩ = .ok (.inr ⟨0, seen, b⟩) := by
  rw [round, if_pos hr, hp]
  dsimp only
  rw [if_neg (by decide), if_neg (by decide), if_pos rfl, if_neg hfull]
  rfl

lemma round_frame (hp : codec.parsePacketHeader (b.peek codec.kPacketHeaderSize.toNat) = (0, fields, bodyLen))
    (hfull : intSize (bodyLen + codec.kPacketHeaderSize) ≤ b.readableBytes)
    (hnew : codec.newPacket mem fields bodyLen = .ok p)
    (hload : b.load codec.kPacketHeaderSize.toNat bodyLen.toNat = .ok body) (hcopy : codec.copyBody p body = .ok p')
    (hb' : b.retrieve (bodyLen + codec.kPacketHeaderSize).toNat = .ok b') :
    codec.round mem delegate ⟨0, seen, b⟩ = .ok (.inr ⟨delegate (seen ++ [p']), seen ++ [p'], b'⟩) := by
  rw [round, if_pos hr, hp]
  dsimp only
  rw [if_neg (by decide), if_neg (by decide), if_pos rfl, if_pos hfull, hnew, ok_bind, hload, ok_bind, hcopy,
    ok_bind, hb']
  rfl

end Branches

/-- **One turn of the loop returns**, with what stands at the front of the buffer. -/
theorem round_spec (hpos : 0 < size) (L : codec.Lawful size bodyLength wire content) (mem : Mem)
    (delegate : List P → ℤ) (seen : List P) (hok : b.Ok) :
    ∃ s, codec.round mem delegate ⟨0, seen, b⟩ = .ok (.inr s) ∧
      Turn (.ofHeader size hpos bodyLength wire) content delegate seen b s := by
  obtain rfl := L.size_eq
  have hrl := hok.readable_length
  unfold Turn
  rw [Framing.ofHeader_front]
  by_cases hr : codec.kPacketHeaderSize.toNat ≤ b.readableBytes
  · have hpeek : b.peek codec.kPacketHeaderSize.toNat = b.readable.take codec.kPacketHeaderSize.toNat :=
      IOBuffer.peek_eq_take hr
    have hhead : (b.readable.take codec.kPacketHeaderSize.toNat).length = codec.kPacketHeaderSize.toNat := by
      rw [List.length_take]
      omega
    generalize hheader : b.readable.take codec.kPacketHeaderSize.toNat = header at hpeek hhead
    rcases hp : codec.parsePacketHeader header with ⟨ret, fields, bodyLen⟩
    rcases hn : bodyLength header with _ | n
    · have hinv := L.invalid header hhead hn
      have hf : Framing.headerFront codec.kPacketHeaderSize.toNat bodyLength wire b.readable = .bad :=
        Framing.headerFront_eq_bad.2 ⟨by omega, by rw [hheader, hn]⟩
      rw [hp] at hinv
      obtain rfl : ret = -1 := hinv
      rw [hf]
      exact ⟨⟨-1, seen, b⟩, round_invalid hr (by rw [hpeek, hp]), rfl⟩
    · obtain ⟨hret, hto, hlt⟩ := L.valid header n hhead hn
      rw [hp] at hret hto
      simp only at hret hto
      by_cases h0 : n = 0
      · subst h0
        obtain rfl : ret = 1 := hret
        obtain ⟨p, hnew, hcontent⟩ := L.empty mem header hhead hn
        rw [hp] at hnew
        obtain ⟨b', hb', e⟩ := IOBuffer.retrieve_spec hok hr
        have hf : Framing.headerFront codec.kPacketHeaderSize.toNat bodyLength wire b.readable =
            .frame codec.kPacketHeaderSize.toNat (wire header) :=
          Framing.headerFront_eq_frame.2 ⟨0, by rw [hheader, hn], rfl, by omega, by rw [hheader]⟩
        rw [hf]
        exact ⟨_, round_empty hr (by rw [hpeek, hp]) hnew hb', p, hcontent, rfl, rfl, e.ok, e.queue⟩
      · obtain rfl : ret = 0 := by rw [hret, if_neg h0]
        have hsum : (bodyLen + codec.kPacketHeaderSize).toNat = n + codec.kPacketHeaderSize.toNat := by
          rw [UInt32.toNat_add, hto, Nat.mod_eq_of_lt (by omega)]
        have hint : intSize (bodyLen + codec.kPacketHeaderSize) = n + codec.kPacketHeaderSize.toNat := by
          rw [intSize_eq (by omega), hsum]
        by_cases hfull : n + codec.kPacketHeaderSize.toNat ≤ b.readableBytes
        · -- the frame is complete: its body is what stands behind the header
          have hload := load_eq hok (show codec.kPacketHeaderSize.toNat + n ≤ b.readableBytes by omega)
          generalize hbody : (b.readable.drop codec.kPacketHeaderSize.toNat).take n = body at hload
          have hlen : body.length = n := by
            rw [← hbody, List.length_take, List.length_drop]
            omega
          obtain ⟨p, p', hnew, hcopy, hcontent⟩ := L.build mem header body hhead (by rw [hn, hlen])
          rw [hp] at hnew
          obtain ⟨b', hb', e⟩ := IOBuffer.retrieve_spec hok hfull
          have hraw : b.readable.take (codec.kPacketHeaderSize.toNat + n) = header ++ body := by
            rw [List.take_add, hheader, hbody]
          have hf : Framing.headerFront codec.kPacketHeaderSize.toNat bodyLength wire b.readable =
              .frame (n + codec.kPacketHeaderSize.toNat) (wire (header ++ body)) :=
            Framing.headerFront_eq_frame.2 ⟨n, by rw [hheader, hn], Nat.add_comm _ _, by omega,
              by rw [Nat.add_comm, hraw]⟩
          rw [hf]
          exact ⟨_, round_frame hr (by rw [hpeek, hp]) (by rw [hint]; exact hfull) hnew (by rw [hto]; exact hload)
            hcopy (by rw [hsum]; exact hb'), p', hcontent, rfl, rfl, e.ok, e.queue⟩
        · have hf : Framing.headerFront codec.kPacketHeaderSize.toNat bodyLength wire b.readable = .wait :=
            Framing.headerFront_eq_wait.2 (.inr ⟨n, by rw [hheader, hn], by omega⟩)
          rw [hf]
          exact ⟨_, round_incomplete hr (by rw [hpeek, hp]) (by rw [hint]; exact hfull), rfl⟩
  · have hf : Framing.headerFront codec.kPacketHeaderSize.toNat bodyLength wire b.readable = .wait :=
      Framing.headerFront_eq_wait.2 (.inl (by omega))
    rw [hf]
    exact ⟨_, round_short hr, rfl⟩

/-- **One call returns**, with what stands at the front of the buffer. -/
theorem onDataReceived_spec (hpos : 0 < size) (L : codec.Lawful size bodyLength wire content) (mem : Mem)
    (delegate : List P → ℤ) (seen : List P) (hok : b.Ok) :
    ∃ s, (∀ fuel, 0 < fuel → codec.onDataReceived mem delegate fuel seen b = some (.ok s)) ∧
      Turn (.ofHeader size hpos bodyLength wire) content delegate seen b s := by
  obtain ⟨s, hround, hturn⟩ := round_spec hpos L mem delegate seen hok
  refine ⟨s, ?_, hturn⟩
  intro fuel hfuel
  obtain ⟨fuel, rfl⟩ : ∃ fuel', fuel = fuel' + 1 := ⟨fuel - 1, by omega⟩
  rw [onDataReceived, rounds, hround]

/-! ### All reads of a connection -/

/-- A read appends `chunk` to the receive buffer and calls `OnDataReceived`, unless an earlier call returned nonzero. -/
def Reads (codec : PacketCodec H P) (delegate : List P → ℤ) (s : State P) (chunk : List UInt8) (s' : State P) : Prop :=
  s.ret = 0 ∧ ∃ b mem fuel, s.data.Appends chunk b ∧
    codec.onDataReceived mem delegate fuel s.seen b = some (.ok s')

/-- The packets delivered are, one by one, the frames at the front of the stream, and the buffer holds the rest. -/
def DeliversFrames (F : Framing UInt8 Content) (content : P → Content) (received : List UInt8) (s : State P) : Prop :=
  ∃ frames : List (List UInt8), frames.flatten ++ s.data.readable = received ∧
    List.Forall₂ (fun frame p => F.front frame = .frame frame.length (content p)) frames s.seen

lemma Reads.turn {s s' : State P} {chunk : List UInt8} (hpos : 0 < size)
    (L : codec.Lawful size bodyLength wire content) (hok : s.data.Ok) (h : codec.Reads delegate s chunk s') :
    ∃ b, IOBuffer.Effect s.data b (s.data.readable ++ chunk) ∧
      Turn (.ofHeader size hpos bodyLength wire) content delegate s.seen b s' := by
  obtain ⟨-, b, mem, fuel, happ, hcall⟩ := h
  have e := happ.spec hok
  obtain ⟨out, hout, hturn⟩ := onDataReceived_spec hpos L mem delegate s.seen e.ok
  have hfuel : 0 < fuel := by
    rcases fuel with _ | fuel
    · cases hcall
    · exact Nat.succ_pos fuel
  rw [hout fuel hfuel] at hcall
  rw [← Except.ok.inj (Option.some.inj hcall)]
  exact ⟨b, e, hturn⟩

lemma reads_total {s : State P} (hpos : 0 < size) (L : codec.Lawful size bodyLength wire content)
    (hok : s.data.Ok) (h0 : s.ret = 0) (chunk : List UInt8) : ∃ s', codec.Reads delegate s chunk s' := by
  obtain ⟨b, hb, e⟩ := IOBuffer.write_spec hok chunk
  obtain ⟨s', hs', -⟩ := onDataReceived_spec hpos L (fun _ => 0) delegate s.seen e.ok
  exact ⟨s', h0, b, _, 1, .inl hb, hs' 1 Nat.one_pos⟩

/-- **A read keeps the stream**: the packets so far are the frames at the front of what was received, and the rest is
in the buffer. -/
theorem Reads.frames {s s' : State P} {chunk received : List UInt8} (hpos : 0 < size)
    (L : codec.Lawful size bodyLength wire content) (h : codec.Reads delegate s chunk s') (hok : s.data.Ok)
    (hframes : (Framing.ofHeader size hpos bodyLength wire).Reads received (s.seen.map content) s.data.readable) :
    s'.data.Ok ∧ (Framing.ofHeader size hpos bodyLength wire).Reads (received ++ chunk) (s'.seen.map content)
      s'.data.readable := by
  obtain ⟨b, e, hturn⟩ := h.turn hpos L hok
  have hb := hframes.append chunk
  rw [← e.queue] at hb
  unfold Turn at hturn
  rcases hf : (Framing.ofHeader size hpos bodyLength wire).front b.readable with _ | _ | ⟨n, x⟩
  · rw [hf] at hturn
    obtain rfl := hturn
    exact ⟨e.ok, hb⟩
  · rw [hf] at hturn
    obtain rfl := hturn
    exact ⟨e.ok, hb⟩
  · rw [hf] at hturn
    obtain ⟨p, hcontent, -, hseen, hok', hrest⟩ := hturn
    refine ⟨hok', ?_⟩
    rw [hseen, hrest, List.map_append, List.map_singleton, hcontent]
    exact hb.snoc hf

lemma frames_of_run (hpos : 0 < size) (L : codec.Lawful size bodyLength wire content) {n : ℕ}
    {chunks : List (List UInt8)} {s : State P} (h : Run (codec.Reads delegate) ⟨0, [], .new n⟩ chunks s) :
    s.data.Ok ∧ (Framing.ofHeader size hpos bodyLength wire).Reads chunks.flatten (s.seen.map content)
      s.data.readable := by
  refine h.inv (P := fun chunks s => s.data.Ok ∧ (Framing.ofHeader size hpos bodyLength wire).Reads chunks.flatten
    (s.seen.map content) s.data.readable) ⟨IOBuffer.new_ok n, ?_⟩ ?_
  · rw [IOBuffer.new_readable]
    exact .nil _
  · rintro chunks s chunk s' ⟨hok, hframes⟩ hr
    rw [List.flatten_append, List.flatten_singleton]
    exact hr.frames hpos L hok hframes

lemma delivers_of_run (hpos : 0 < size) (L : codec.Lawful size bodyLength wire content) {n : ℕ}
    {chunks : List (List UInt8)} {s : State P} (h : Run (codec.Reads delegate) ⟨0, [], .new n⟩ chunks s) :
    DeliversFrames (.ofHeader size hpos bodyLength wire) content chunks.flatten s ∧
      (s.ret = 0 → ∀ chunk, ∃ s', codec.Reads delegate s chunk s') := by
  obtain ⟨hok, hframes⟩ := frames_of_run hpos L h
  obtain ⟨frames, hflat, hall⟩ := hframes.exists_raws
  exact ⟨⟨frames, hflat, List.forall₂_map_right_iff.1 hall⟩, reads_total hpos L hok⟩

end PacketCodec

open PacketCodec

/-- **The packets delivered are the frames of the stream**, for both codecs: whatever the reads and whatever the
delegate returns, the stream received is the consecutive frames of the packets delivered followed by what is in the
buffer, and each packet has the type, the reserved field, the body length and the body of its frame. Until a call
returns nonzero every further read can be served. -/
theorem packets_are_frames :
    (∀ (delegate : List Packet → ℤ) n chunks s, Run (znetCodec.Reads delegate) ⟨0, [], .new n⟩ chunks s →
      DeliversFrames znetFraming Packet.content chunks.flatten s ∧
      (s.ret = 0 → ∀ chunk, ∃ s', znetCodec.Reads delegate s chunk s')) ∧
    (∀ (delegate : List TeamTalkPacket → ℤ) n chunks s,
      Run (teamTalkCodec.Reads delegate) ⟨0, [], .new n⟩ chunks s →
      DeliversFrames teamTalkFraming TeamTalkPacket.content chunks.flatten s ∧
      (s.ret = 0 → ∀ chunk, ∃ s', teamTalkCodec.Reads delegate s chunk s')) := by
  constructor
  · intro delegate n chunks s h
    exact delivers_of_run (by omega) znet_lawful h
  · intro delegate n chunks s h
    exact delivers_of_run (by omega) teamTalk_lawful h

/-- A ZNet frame with a body, in two reads, seen by a delegate that refuses every packet. -/
theorem packets_are_frames_run : ∃ s : State Packet,
    Run (znetCodec.Reads fun _ => -1) ⟨0, [], .new 64⟩ [[0, 0, 0, 5, 0, 0], [0, 1, 7, 9]] s ∧
    DeliversFrames znetFraming Packet.content [0, 0, 0, 5, 0, 0, 0, 1, 7, 9] s := by
  have hnil : Run (znetCodec.Reads fun _ => -1) ⟨0, [], .new 64⟩ [] ⟨0, [], .new 64⟩ := .nil
  obtain ⟨s₁, h₁⟩ := (packets_are_frames.1 _ _ _ _ hnil).2 rfl [0, 0, 0, 5, 0, 0]
  have hret : s₁.ret = 0 := by
    obtain ⟨b, e, hturn⟩ := h₁.turn (show 0 < 8 by omega) znet_lawful (IOBuffer.new_ok 64)
    have hf : (Framing.ofHeader 8 (by omega) znetBodyLength znetContent).front b.readable = .wait := by
      rw [e.queue]
      rfl
    unfold Turn at hturn
    rw [hf] at hturn
    rw [hturn]
  obtain ⟨s₂, h₂⟩ := (packets_are_frames.1 _ _ _ _ (hnil.snoc h₁)).2 hret [0, 1, 7, 9]
  have hrun := (hnil.snoc h₁).snoc h₂
  exact ⟨s₂, hrun, (packets_are_frames.1 _ _ _ _ hrun).1⟩

end Zutils.Net
