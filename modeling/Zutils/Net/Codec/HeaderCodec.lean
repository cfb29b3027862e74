import Mathlib.Data.List.GetD
import Zutils.Net.Codec.PacketSpec

/-!
# The header encoders and decoders

`GeneratePacketHeader` writes the header that the constructor of a packet writes. For ZNet `ParsePacketHeader` is its
inverse in both directions, and both refuse a body that is too long (`znet_header_codec`).

The other pairs have checks that differ. `Packet::ParsePacketHeader` compares the version, and
`ZNetPacketHeader::ParsePacketHeader` does not (`validators_agree_iff`). `TeamTalkPacket::GeneratePacketHeader` compares
the length of the body with the limit, while `ParsePacketHeader` compares that of the packet, and it does not report an
empty body (`generates_parsed_iff`).
-/

namespace Zutils.Net

section Bytes

variable {data head rest : List UInt8} {i : ℕ}

lemma copyAt_front (h : head.length ≤ data.length) : copyAt data 0 head = .ok (head ++ data.drop head.length) := by
  have hcopy := copyAt_append (u := []) (v := data) head h
  simpa using hcopy

lemma get16_append (h : i + 2 ≤ head.length) : get16 (head ++ rest) i = get16 head i := by
  unfold get16
  rw [List.getD_append _ _ _ _ (by omega), List.getD_append _ _ _ _ (by omega)]

lemma get32_append (h : i + 4 ≤ head.length) : get32 (head ++ rest) i = get32 head i := by
  unfold get32
  rw [List.getD_append _ _ _ _ (by omega), List.getD_append _ _ _ _ (by omega), List.getD_append _ _ _ _ (by omega),
    List.getD_append _ _ _ _ (by omega)]

end Bytes

/-! ### ZNet -/

section ZNet

variable {messageType : UInt16} {bodyLen : UInt32} {data header : List UInt8}

lemma znet_generate_eq (hlen : bodyLen ≤ ZNetPacketHeader.kMaxPacketSize) (hdata : 8 ≤ data.length) :
    ZNetPacketHeader.generatePacketHeader data messageType bodyLen =
      .ok (if bodyLen > 0 then 0 else 1, Packet.header messageType bodyLen ++ data.drop 8) := by
  have hcopy : copyAt data 0 (Packet.header messageType bodyLen) =
      .ok (Packet.header messageType bodyLen ++ data.drop 8) := copyAt_front hdata
  unfold ZNetPacketHeader.generatePacketHeader
  rw [if_neg (UInt32.not_lt.2 hlen)]
  show (copyAt data 0 (Packet.header messageType bodyLen) >>= _) = _
  rw [hcopy]
  rfl

lemma znet_generate_refused (hlen : ZNetPacketHeader.kMaxPacketSize < bodyLen) :
    ZNetPacketHeader.generatePacketHeader data messageType bodyLen = .ok (-1, data) := by
  unfold ZNetPacketHeader.generatePacketHeader
  exact if_pos hlen

lemma znet_fields (messageType : UInt16) (bodyLen : UInt32) (rest : List UInt8) :
    get16 (Packet.header messageType bodyLen ++ rest) 0 = 0 ∧
      get16 (Packet.header messageType bodyLen ++ rest) 2 = messageType ∧
      get32 (Packet.header messageType bodyLen ++ rest) 4 = bodyLen := by
  have hversion := get16_put16 [] (put16 messageType ++ put32 bodyLen ++ rest) Packet.kPacketVersion.toUInt16
  have htype := get16_put16 (put16 Packet.kPacketVersion.toUInt16) (put32 bodyLen ++ rest) messageType
  rw [List.nil_append, ← List.append_assoc, ← List.append_assoc] at hversion
  rw [← List.append_assoc] at htype
  exact ⟨hversion, htype, Packet.getBodyLength_eq⟩

lemma znet_parse_header (hlen : bodyLen ≤ ZNetPacketHeader.kMaxPacketSize) (rest : List UInt8) :
    ZNetPacketHeader.parsePacketHeader (Packet.header messageType bodyLen ++ rest) =
      (if bodyLen > 0 then 0 else 1, messageType, bodyLen) := by
  obtain ⟨-, htype, hbody⟩ := znet_fields messageType bodyLen rest
  unfold ZNetPacketHeader.parsePacketHeader
  simp only [htype, hbody, if_neg (UInt32.not_lt.2 hlen)]
  by_cases h0 : bodyLen = 0
  · simp [h0]
  · simp [h0, UInt32.pos_iff_ne_zero.2 h0]

lemma znet_header_eq (hheader : header.length = 8) (hversion : get16 header 0 = 0) :
    Packet.header (get16 header 2) (get32 header 4) = header := by
  have h0 := put16_get16 (d := header) (i := 0) (by omega)
  have h2 := put16_get16 (d := header) (i := 2) (by omega)
  have h4 := put32_get32 (d := header) (i := 4) (by omega)
  rw [hversion] at h0
  calc Packet.header (get16 header 2) (get32 header 4)
      = put16 0 ++ put16 (get16 header 2) ++ put32 (get32 header 4) := rfl
    _ = header.take 2 ++ (header.drop 2).take 2 ++ (header.drop 4).take 4 := by rw [h0, h2, h4, List.drop_zero]
    _ = header := by
      rw [← List.take_add, ← List.take_add]
      exact List.take_of_length_le (by omega)

lemma znet_accepted (haccept : (ZNetPacketHeader.parsePacketHeader header).1 ≠ -1) :
    get32 header 4 ≤ ZNetPacketHeader.kMaxPacketSize := by
  by_contra hgt
  apply haccept
  simp only [ZNetPacketHeader.parsePacketHeader, if_pos (UInt32.not_le.1 hgt)]

/-- **The ZNet header codec.** Within the limit, the encoder writes the header that the constructor of a packet writes,
and the decoder gets back the type and the length, with the same code; what the decoder accepts, with a version of zero,
is encoded from its fields; and both refuse what is beyond the limit. -/
theorem znet_header_codec (mem : Mem) (messageType : UInt16) (bodyLen : UInt32) {data : List UInt8}
    (hdata : 8 ≤ data.length) :
    (bodyLen ≤ ZNetPacketHeader.kMaxPacketSize → ∃ (ret : ℤ) (header : List UInt8) (p : Packet), header.length = 8 ∧
      ZNetPacketHeader.generatePacketHeader data messageType bodyLen = .ok (ret, header ++ data.drop 8) ∧
      Packet.new mem messageType bodyLen = .ok p ∧ p.data.take 8 = header ∧
      ZNetPacketHeader.parsePacketHeader (header ++ data.drop 8) = (ret, messageType, bodyLen) ∧
      ret = (if bodyLen > 0 then 0 else 1) ∧
      p.getVersion = 0 ∧ p.getCmdType = messageType ∧ p.getBodyLength = bodyLen) ∧
    (∀ header : List UInt8, header.length = 8 → get16 header 0 = 0 →
      (ZNetPacketHeader.parsePacketHeader header).1 ≠ -1 →
      ZNetPacketHeader.generatePacketHeader data (ZNetPacketHeader.parsePacketHeader header).2.1
          (ZNetPacketHeader.parsePacketHeader header).2.2 =
        .ok ((ZNetPacketHeader.parsePacketHeader header).1, header ++ data.drop 8)) ∧
    (ZNetPacketHeader.kMaxPacketSize < bodyLen →
      ZNetPacketHeader.generatePacketHeader data messageType bodyLen = .ok (-1, data) ∧
      ∀ header : List UInt8, get32 header 4 = bodyLen → (ZNetPacketHeader.parsePacketHeader header).1 = -1) := by
  refine ⟨fun hlen => ?_, fun header hheader hversion haccept => ?_, fun hlen => ⟨znet_generate_refused hlen, ?_⟩⟩
  · have hmax : bodyLen.toNat ≤ 2097152 := UInt32.le_iff_toNat_le.1 hlen
    have hnew : Packet.new mem messageType bodyLen =
        .ok ⟨Packet.header messageType bodyLen ++ mem.bytes 8 bodyLen.toNat⟩ := Packet.new_eq mem messageType (by omega)
    obtain ⟨hversion, htype, hbody⟩ := znet_fields messageType bodyLen (mem.bytes 8 bodyLen.toNat)
    exact ⟨_, _, _, Packet.header_length messageType bodyLen, znet_generate_eq hlen hdata, hnew, List.take_left' rfl,
      znet_parse_header hlen _, rfl, hversion, htype, hbody⟩
  · have hlen := znet_accepted haccept
    have hparse : ZNetPacketHeader.parsePacketHeader (Packet.header (get16 header 2) (get32 header 4) ++ []) = _ :=
      znet_parse_header hlen []
    rw [znet_header_eq hheader hversion, List.append_nil] at hparse
    rw [hparse, znet_generate_eq hlen hdata, znet_header_eq hheader hversion]
  · rintro header rfl
    simp only [ZNetPacketHeader.parsePacketHeader, if_pos hlen]

/-- The type 258 and a body of three bytes. -/
theorem znet_header_codec_three :
    ZNetPacketHeader.generatePacketHeader (List.replicate 8 0xFF) 258 3 = .ok (0, [0, 0, 1, 2, 0, 0, 0, 3]) ∧
    ∃ (ret : ℤ) (header : List UInt8) (p : Packet), header.length = 8 ∧
      ZNetPacketHeader.generatePacketHeader (List.replicate 8 0xFF) 258 3 = .ok (ret, header ++ []) ∧
      Packet.new (fun _ => 0xCD) 258 3 = .ok p ∧ p.data.take 8 = header ∧
      ZNetPacketHeader.parsePacketHeader (header ++ []) = (ret, 258, 3) ∧ ret = 0 ∧
      p.getVersion = 0 ∧ p.getCmdType = 258 ∧ p.getBodyLength = 3 :=
  ⟨rfl, (@znet_header_codec (fun _ => 0xCD) 258 3 (List.replicate 8 0xFF) (by decide)).1 (by decide)⟩

/-! ### Two validators -/

/-- What the comments of both validators say of a header: -1 for another version or a body that is too long, 1 for no
body, and 0 otherwise. -/
def specifiedCode (header : List UInt8) : ℤ :=
  if get16 header 0 ≠ 0 ∨ Packet.kMaxPacketSize < get32 header 4 then -1
  else if get32 header 4 = 0 then 1
  else 0

/-- The version is compared as a `uint32`. -/
lemma toUInt32_ne_iff (version : UInt16) : version.toUInt32 ≠ Packet.kPacketVersion ↔ version ≠ 0 := by
  rw [not_iff_not, ← UInt32.toNat_inj, ← UInt16.toNat_inj, UInt16.toNat_toUInt32]
  rfl

lemma packet_parse_eq (hheader : 8 ≤ header.length) (body : List UInt8) :
    Packet.parsePacketHeader ⟨header ++ body⟩ = specifiedCode header := by
  have hversion : get16 (header ++ body) 0 = get16 header 0 := get16_append (by omega)
  have hlen : get32 (header ++ body) 4 = get32 header 4 := get32_append (by omega)
  unfold Packet.parsePacketHeader specifiedCode
  simp only [hversion, hlen, toUInt32_ne_iff, gt_iff_lt]

/-- The validator of the codec does, but for the version. -/
lemma znet_parse_eq (header : List UInt8) : (ZNetPacketHeader.parsePacketHeader header).1 =
    if Packet.kMaxPacketSize < get32 header 4 then -1 else if get32 header 4 = 0 then 1 else 0 := by
  unfold ZNetPacketHeader.parsePacketHeader
  simp only [apply_ite Prod.fst]
  rfl

/-- **The validators agree**, and return the code that their comments say, if and only if the version is zero or the
body is too long. -/
theorem validators_agree_iff {header : List UInt8} (hheader : header.length = 8) (body : List UInt8) :
    (Packet.parsePacketHeader ⟨header ++ body⟩ = (ZNetPacketHeader.parsePacketHeader header).1 ∧
      (ZNetPacketHeader.parsePacketHeader header).1 = specifiedCode header) ↔
      get16 header 0 = 0 ∨ Packet.kMaxPacketSize < get32 header 4 := by
  rw [packet_parse_eq hheader.ge, znet_parse_eq, specifiedCode]
  by_cases hlen : Packet.kMaxPacketSize < get32 header 4
  · simp [hlen]
  by_cases hversion : get16 header 0 = 0
  · simp [hlen, hversion]
  · -- the codec gives one of the codes of a header that is accepted
    simp only [hlen, hversion, ne_eq, not_false_eq_true, or_false, if_true, if_false, iff_false]
    rintro ⟨hcode, -⟩
    split at hcode <;> cases hcode

/-- The header of an empty frame of type 1. -/
theorem validators_agree_iff_empty :
    Packet.parsePacketHeader ⟨[0, 0, 0, 1, 0, 0, 0, 0] ++ []⟩ =
        (ZNetPacketHeader.parsePacketHeader [0, 0, 0, 1, 0, 0, 0, 0]).1 ∧
      (ZNetPacketHeader.parsePacketHeader [0, 0, 0, 1, 0, 0, 0, 0]).1 = specifiedCode [0, 0, 0, 1, 0, 0, 0, 0] :=
  (validators_agree_iff (by decide) []).2 (.inl rfl)

/-- **Another version is accepted by the codec**: a frame of version 1 with a body of one byte. -/
theorem version_one_accepted :
    (ZNetPacketHeader.parsePacketHeader [0, 1, 0, 1, 0, 0, 0, 1]).1 = 0 ∧
    Packet.parsePacketHeader ⟨[0, 1, 0, 1, 0, 0, 0, 1] ++ [65]⟩ = -1 ∧
    ¬ ∀ header : List UInt8, header.length = 8 → ∀ body,
      Packet.parsePacketHeader ⟨header ++ body⟩ = (ZNetPacketHeader.parsePacketHeader header).1 ∧
        (ZNetPacketHeader.parsePacketHeader header).1 = specifiedCode header := by
  refine ⟨rfl, rfl, fun h => ?_⟩
  have hagree := (h [0, 1, 0, 1, 0, 0, 0, 1] rfl [65]).1
  cases hagree

end ZNet

/-! ### TeamTalk -/

section TeamTalk

variable {messageType : UInt32} {reserved : UInt16} {bodyLen : UInt32} {data header : List UInt8}

/-- What the encoder accepts, it writes as the constructor does, and the decoder accepts it, with the same fields and
the same code. -/
def GeneratesParsed (mem : Mem) (data : List UInt8) (messageType : UInt32) (reserved : UInt16) (bodyLen : UInt32) :
    Prop :=
  ∃ ret data', TeamTalkPacket.generatePacketHeader data messageType reserved bodyLen = .ok (ret, data') ∧
    (ret ≠ -1 → ∃ p, TeamTalkPacket.new mem messageType reserved bodyLen = .ok p ∧
      data'.take 12 = p.data.take 12 ∧ data'.drop 12 = data.drop 12 ∧
      TeamTalkPacket.parsePacketHeader data' = (ret, (messageType, reserved), bodyLen) ∧
      ret = if bodyLen > 0 then 0 else 1)

lemma teamTalk_generate_eq (hlen : bodyLen ≤ TeamTalkPacket.kMaxPacketSize) (hdata : 12 ≤ data.length) :
    TeamTalkPacket.generatePacketHeader data messageType reserved bodyLen =
      .ok (0, TeamTalkPacket.header messageType reserved bodyLen ++ data.drop 12) := by
  have hcopy : copyAt data 0 (TeamTalkPacket.header messageType reserved bodyLen) =
      .ok (TeamTalkPacket.header messageType reserved bodyLen ++ data.drop 12) := copyAt_front hdata
  unfold TeamTalkPacket.generatePacketHeader
  rw [if_neg (UInt32.not_lt.2 hlen)]
  show (copyAt data 0 (TeamTalkPacket.header messageType reserved bodyLen) >>= _) = _
  rw [hcopy]
  rfl

/-- **The TeamTalk encoder writes what the decoder gets back**, if it does not refuse it, if and only if there is a body
and the whole packet is within the limit. -/
theorem generates_parsed_iff (mem : Mem) {data : List UInt8} (hdata : 12 ≤ data.length) (messageType : UInt32)
    (reserved : UInt16) (bodyLen : UInt32) :
    GeneratesParsed mem data messageType reserved bodyLen ↔
      TeamTalkPacket.kMaxPacketSize < bodyLen ∨ 0 < bodyLen ∧ bodyLen.toNat + 12 ≤ 64 * 1024 * 1024 := by
  unfold GeneratesParsed
  by_cases hlen : TeamTalkPacket.kMaxPacketSize < bodyLen
  · refine iff_of_true ⟨-1, data, ?_, fun h => absurd rfl h⟩ (.inl hlen)
    unfold TeamTalkPacket.generatePacketHeader
    exact if_pos hlen
  have hle : bodyLen.toNat ≤ 64 * 1024 * 1024 := UInt32.le_iff_toNat_le.1 (UInt32.not_lt.1 hlen)
  have hgenerate : TeamTalkPacket.generatePacketHeader data messageType reserved bodyLen =
      .ok (0, TeamTalkPacket.header messageType reserved bodyLen ++ data.drop 12) :=
    teamTalk_generate_eq (UInt32.not_lt.1 hlen) hdata
  have hparse : TeamTalkPacket.parsePacketHeader (TeamTalkPacket.header messageType reserved bodyLen ++ data.drop 12) =
      if 64 * 1024 * 1024 < bodyLen.toNat + 12 then (-1, (messageType, reserved), 0)
      else (if bodyLen > 0 then 0 else 1, (messageType, reserved), bodyLen) :=
    TeamTalkPacket.parsePacketHeader_eq _ _ _ _ (by omega)
  simp only [hlen, false_or]
  constructor
  · rintro ⟨ret, data', heq, h⟩
    rw [hgenerate] at heq
    obtain ⟨rfl, rfl⟩ := Prod.mk.inj (Except.ok.inj heq)
    obtain ⟨-, -, -, -, hcode, hret⟩ := h (by decide)
    rw [hparse] at hcode
    split at hcode
    · cases congrArg Prod.fst hcode
    · refine ⟨?_, by omega⟩
      by_contra h0
      rw [if_neg h0] at hret
      cases hret
  · rintro ⟨h0, hmax⟩
    have htake : ∀ rest : List UInt8, (TeamTalkPacket.header messageType reserved bodyLen ++ rest).take 12 =
        TeamTalkPacket.header messageType reserved bodyLen := fun rest => List.take_left' rfl
    refine ⟨0, _, hgenerate, fun _ => ⟨_, TeamTalkPacket.new_eq mem messageType reserved (by omega), ?_, ?_, ?_, ?_⟩⟩
    · rw [htake, htake]
    · exact List.drop_left' rfl
    · rw [hparse, if_neg (by omega), if_pos h0]
    · rw [if_pos h0]

/-- A body of three bytes. -/
theorem generates_parsed_iff_three : GeneratesParsed (fun _ => 0xCD) (List.replicate 12 0xFF) 7 3 3 :=
  (generates_parsed_iff (fun _ => 0xCD) (by decide) 7 3 3).2 (.inr ⟨by decide, by decide⟩)

/-- **A body of the limit is encoded and then refused**: the encoder returns 0 and the decoder -1. -/
theorem limit_refused :
    (∃ data', TeamTalkPacket.generatePacketHeader (List.replicate 12 0xFF) 7 3 67108864 = .ok (0, data') ∧
      (TeamTalkPacket.parsePacketHeader data').1 = -1) ∧
    ¬ ∀ (mem : Mem) (data : List UInt8), 12 ≤ data.length → ∀ messageType reserved bodyLen,
      GeneratesParsed mem data messageType reserved bodyLen := by
  have hgenerate : TeamTalkPacket.generatePacketHeader (List.replicate 12 0xFF) 7 3 67108864 =
      .ok (0, [4, 0, 0, 12, 0, 0, 0, 7, 0, 1, 0, 3]) := rfl
  refine ⟨⟨_, hgenerate, rfl⟩, fun h => ?_⟩
  obtain ⟨ret, data', heq, hparsed⟩ := h (fun _ => 0) (List.replicate 12 0xFF) (by decide) 7 3 67108864
  obtain ⟨rfl, rfl⟩ := Prod.mk.inj (Except.ok.inj (hgenerate.symm.trans heq))
  obtain ⟨-, -, -, -, hcode, -⟩ := hparsed (by decide)
  cases congrArg Prod.fst hcode

end TeamTalk

end Zutils.Net
