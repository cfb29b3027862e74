import Zutils.Lib.Framing
import Zutils.Net.Codec.Packet
import Zutils.Net.IoHandlerSpec

/-!
# Wire formats and packets

The wire formats as framings: ZNet has a header of 8 bytes with a 16-bit type and the length of the body, TeamTalk
one of 12 bytes with the length of the whole frame, a 32-bit type, the version 1 and a reserved field. `Content` is
what a frame carries, and what can be read off a packet through its accessors.

The last part is about packets: what a constructor writes is read back through the accessors, and the body it leaves
to `memcpy` is the body.
-/

namespace Zutils.Net

open Zutils.Lib

/-- What a frame carries, as numbers and bytes; ZNet has no reserved field. -/
structure Content where
  messageType : ℕ
  reserved : Option ℕ
  bodyLength : ℕ
  body : List UInt8
  deriving DecidableEq, Repr

/-! ### The wire formats -/

/-- The number in the `n` bytes at the offset `off`. -/
def field (bytes : List UInt8) (off n : ℕ) : ℕ := beNat ((bytes.drop off).take n)

/-- The length of the body of a ZNet frame, from its header. -/
def znetBodyLength (header : List UInt8) : Option ℕ :=
  if field header 4 4 ≤ 2 * 1024 * 1024 then some (field header 4 4) else none

def znetContent (frame : List UInt8) : Content :=
  ⟨field frame 2 2, none, field frame 4 4, frame.drop 8⟩

/-- The ZNet wire format. -/
def znetFraming : Framing UInt8 Content := .ofHeader 8 (by omega) znetBodyLength znetContent

/-- The length of the body of a TeamTalk frame, from its header. -/
def teamTalkBodyLength (header : List UInt8) : Option ℕ :=
  if field header 8 2 = 1 ∧ 12 ≤ field header 0 4 ∧ field header 0 4 ≤ 64 * 1024 * 1024 then
    some (field header 0 4 - 12)
  else none

def teamTalkContent (frame : List UInt8) : Content :=
  ⟨field frame 4 4, some (field frame 10 2), field frame 0 4 - 12, frame.drop 12⟩

/-- The TeamTalk wire format. -/
def teamTalkFraming : Framing UInt8 Content := .ofHeader 12 (by omega) teamTalkBodyLength teamTalkContent

/-- What the accessors of a packet say. -/
def Packet.content (p : Packet) : Content :=
  ⟨p.getCmdType.toNat, none, p.getBodyLength.toNat, p.getBodyData⟩

def TeamTalkPacket.content (p : TeamTalkPacket) : Content :=
  ⟨p.getMessageType.toNat, some p.getReserved.toNat, p.getBodyLength.toNat, p.getBodyData⟩

section Fields

variable {header body : List UInt8} {off n : ℕ}

lemma field_append (h : off + n ≤ header.length) : field (header ++ body) off n = field header off n := by
  rw [field, List.drop_append_of_le_length (by omega), List.take_append_of_le_length (by simp; omega), field]

lemma get16_eq_field (h : off + 2 ≤ header.length) : (get16 header off).toNat = field header off 2 := get16_toNat h

lemma get32_eq_field (h : off + 4 ≤ header.length) : (get32 header off).toNat = field header off 4 := get32_toNat h

end Fields

/-! ### Packets -/

section Blocks

variable {body junk : List UInt8}

/-- A constructor writes the header over the first bytes of the fresh block. -/
lemma copyAt_header (mem : Mem) (header : List UInt8) (n : ℕ) :
    copyAt (mem.bytes 0 (n + header.length)) 0 header = .ok (header ++ mem.bytes header.length n) := by
  have hsplit := Mem.bytes_append (p := mem) (show header.length ≤ n + header.length by omega)
  rw [Nat.add_sub_cancel] at hsplit
  have := copyAt_append (u := []) (v := mem.bytes 0 (n + header.length)) header (by simp)
  rw [List.nil_append, List.nil_append, List.length_nil] at this
  rw [this, ← hsplit, List.drop_left' Mem.bytes_length]

lemma copyAt_body (header : List UInt8) (h : body.length = junk.length) :
    copyAt (header ++ junk) header.length body = .ok (header ++ body) := by
  rw [copyAt_append body (by omega), List.drop_eq_nil_of_le (by omega), List.append_nil]

end Blocks

namespace Packet

variable {cmdType : UInt16} {dataLen : UInt32} {body junk : List UInt8}

/-- The header the constructor writes. -/
def header (cmdType : UInt16) (dataLen : UInt32) : List UInt8 :=
  put16 kPacketVersion.toUInt16 ++ put16 cmdType ++ put32 dataLen

lemma header_length (cmdType : UInt16) (dataLen : UInt32) : (header cmdType dataLen).length = 8 := rfl

lemma new_eq (mem : Mem) (cmdType : UInt16) (h : dataLen.toNat + 8 < 2 ^ 32) :
    new mem cmdType dataLen = .ok ⟨header cmdType dataLen ++ mem.bytes 8 dataLen.toNat⟩ := by
  have hlen : (dataLen + kPacketHeaderSize).toNat = dataLen.toNat + 8 := by
    rw [UInt32.toNat_add, Nat.mod_eq_of_lt (by exact h)]
    rfl
  have hcopy := copyAt_header mem (header cmdType dataLen) dataLen.toNat
  rw [new, hlen]
  show (copyAt (mem.bytes 0 (dataLen.toNat + 8)) 0 (header cmdType dataLen) >>= _) = _
  rw [show copyAt (mem.bytes 0 (dataLen.toNat + 8)) 0 (header cmdType dataLen) = _ from hcopy]
  rfl

lemma copyBody_eq (h : body.length = junk.length) :
    copyBody ⟨header cmdType dataLen ++ junk⟩ body = .ok ⟨header cmdType dataLen ++ body⟩ := by
  have hcopy := copyAt_body (header cmdType dataLen) h
  rw [copyBody, show kPacketHeaderSize.toNat = (header cmdType dataLen).length from rfl, hcopy]
  rfl

lemma getBodyLength_eq : getBodyLength ⟨header cmdType dataLen ++ body⟩ = dataLen :=
  get32_put32 (put16 kPacketVersion.toUInt16 ++ put16 cmdType) body dataLen

lemma content_eq (h : body.length = dataLen.toNat) :
    content ⟨header cmdType dataLen ++ body⟩ = ⟨cmdType.toNat, none, dataLen.toNat, body⟩ := by
  have htype : getCmdType ⟨header cmdType dataLen ++ body⟩ = cmdType := by
    have := get16_put16 (put16 kPacketVersion.toUInt16) (put32 dataLen ++ body) cmdType
    rwa [← List.append_assoc] at this
  have hdrop : (header cmdType dataLen ++ body).drop kPacketHeaderSize.toNat = body := List.drop_left' rfl
  rw [content, htype, getBodyLength_eq, getBodyData, getBodyLength_eq, hdrop, ← h, List.take_length]

end Packet

namespace TeamTalkPacket

variable {messageType : UInt32} {reserved : UInt16} {bodyLen : UInt32} {body junk : List UInt8}

/-- The header the constructor writes. -/
def header (messageType : UInt32) (reserved : UInt16) (bodyLen : UInt32) : List UInt8 :=
  put32 (bodyLen + kPacketHeaderSize) ++ put32 messageType ++ put16 kPacketVersion ++ put16 reserved

lemma new_eq (mem : Mem) (messageType : UInt32) (reserved : UInt16) (h : bodyLen.toNat + 12 < 2 ^ 32) :
    new mem messageType reserved bodyLen =
      .ok ⟨header messageType reserved bodyLen ++ mem.bytes 12 bodyLen.toNat⟩ := by
  have hlen : (bodyLen + kPacketHeaderSize).toNat = bodyLen.toNat + 12 := by
    rw [UInt32.toNat_add, Nat.mod_eq_of_lt (by exact h)]
    rfl
  have hcopy := copyAt_header mem (header messageType reserved bodyLen) bodyLen.toNat
  show (copyAt (mem.bytes 0 (bodyLen + kPacketHeaderSize).toNat) 0 (header messageType reserved bodyLen) >>= _) = _
  rw [hlen, show copyAt (mem.bytes 0 (bodyLen.toNat + 12)) 0 (header messageType reserved bodyLen) = _ from hcopy]
  rfl

lemma copyBody_eq (h : body.length = junk.length) :
    copyBody ⟨header messageType reserved bodyLen ++ junk⟩ body =
      .ok ⟨header messageType reserved bodyLen ++ body⟩ := by
  have hcopy := copyAt_body (header messageType reserved bodyLen) h
  rw [copyBody, show kPacketHeaderSize.toNat = (header messageType reserved bodyLen).length from rfl, hcopy]
  rfl

section Accessors

variable (messageType : UInt32) (reserved : UInt16) (bodyLen : UInt32) (body : List UInt8)

lemma getRawdataLength_eq :
    getRawdataLength ⟨header messageType reserved bodyLen ++ body⟩ = bodyLen + kPacketHeaderSize := by
  have := get32_put32 [] (put32 messageType ++ put16 kPacketVersion ++ put16 reserved ++ body)
    (bodyLen + kPacketHeaderSize)
  rwa [← List.append_assoc, ← List.append_assoc, ← List.append_assoc] at this

lemma getMessageType_eq : getMessageType ⟨header messageType reserved bodyLen ++ body⟩ = messageType := by
  have := get32_put32 (put32 (bodyLen + kPacketHeaderSize))
    (put16 kPacketVersion ++ put16 reserved ++ body) messageType
  rwa [← List.append_assoc, ← List.append_assoc] at this

lemma getVersion_eq : getVersion ⟨header messageType reserved bodyLen ++ body⟩ = kPacketVersion := by
  have := get16_put16 (put32 (bodyLen + kPacketHeaderSize) ++ put32 messageType) (put16 reserved ++ body)
    kPacketVersion
  rwa [← List.append_assoc] at this

lemma getReserved_eq : getReserved ⟨header messageType reserved bodyLen ++ body⟩ = reserved :=
  get16_put16 (put32 (bodyLen + kPacketHeaderSize) ++ put32 messageType ++ put16 kPacketVersion) body reserved

lemma getBodyLength_eq : getBodyLength ⟨header messageType reserved bodyLen ++ body⟩ = bodyLen := by
  rw [getBodyLength, getRawdataLength_eq, UInt32.add_sub_cancel]

lemma parsePacketHeader_eq (hlen : bodyLen.toNat + 12 < 2 ^ 32) :
    parsePacketHeader (header messageType reserved bodyLen ++ body) =
      if 64 * 1024 * 1024 < bodyLen.toNat + 12 then (-1, (messageType, reserved), 0)
      else (if bodyLen > 0 then 0 else 1, (messageType, reserved), bodyLen) := by
  have hpacket := getRawdataLength_eq messageType reserved bodyLen body
  have htype := getMessageType_eq messageType reserved bodyLen body
  have hversion := getVersion_eq messageType reserved bodyLen body
  have hreserved := getReserved_eq messageType reserved bodyLen body
  unfold getRawdataLength at hpacket
  unfold getMessageType at htype
  unfold getVersion at hversion
  unfold getReserved at hreserved
  have hadd : (bodyLen + kPacketHeaderSize).toNat = bodyLen.toNat + 12 := by
    rw [UInt32.toNat_add]
    exact Nat.mod_eq_of_lt hlen
  have hmax : bodyLen + kPacketHeaderSize > kMaxPacketSize ↔ 64 * 1024 * 1024 < bodyLen.toNat + 12 := by
    rw [gt_iff_lt, UInt32.lt_iff_toNat_lt, hadd]
    rfl
  have hmin : ¬ bodyLen + kPacketHeaderSize < kPacketHeaderSize := by
    rw [UInt32.lt_iff_toNat_lt, hadd]
    exact Nat.not_lt.2 (Nat.le_add_left 12 _)
  have hnone : bodyLen + kPacketHeaderSize = kPacketHeaderSize ↔ bodyLen = 0 := by
    simp
  unfold parsePacketHeader
  simp only [hpacket, htype, hversion, hreserved, ne_eq, not_true_eq_false, hmax, hmin, hnone, false_or, or_false,
    UInt32.add_sub_cancel]
  by_cases h0 : bodyLen = 0
  · simp [h0]
  · simp [h0, UInt32.pos_iff_ne_zero.2 h0]

end Accessors

lemma getBodyData_eq (h : body.length = bodyLen.toNat) :
    getBodyData ⟨header messageType reserved bodyLen ++ body⟩ = body := by
  have hdrop : (header messageType reserved bodyLen ++ body).drop kPacketHeaderSize.toNat = body :=
    List.drop_left' rfl
  rw [getBodyData, getBodyLength_eq, hdrop, ← h, List.take_length]

lemma content_eq (h : body.length = bodyLen.toNat) :
    content ⟨header messageType reserved bodyLen ++ body⟩ =
      ⟨messageType.toNat, some reserved.toNat, bodyLen.toNat, body⟩ := by
  rw [content, getMessageType_eq, getReserved_eq, getBodyLength_eq, getBodyData_eq h]

end TeamTalkPacket

end Zutils.Net
