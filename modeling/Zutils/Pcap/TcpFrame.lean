import Zutils.Pcap.PacketCapture

/-!
# Captured TCP segments (`pcap_util/pcap_thread.cc`)

A frame as a host sends it: the headers, with as many words of options as they can have, the payload, and what the link
layer puts behind a frame that is shorter than 60 bytes. The payload is delivered if the frame is as long as the IP header
says. So nothing is delivered of a frame that has been made longer (`deliversExactly_iff`).
-/

namespace Zutils

open Lib

structure IPAddress where
  byte1 : UInt8
  byte2 : UInt8
  byte3 : UInt8
  byte4 : UInt8

namespace IPAddress

variable (a : IPAddress)

def bytes : List UInt8 := [a.byte1, a.byte2, a.byte3, a.byte4]

/-- `*(uint32*)&ip_srcaddr`. -/
def toUInt32 : UInt32 := UInt32.ofNat (leNat a.bytes)

end IPAddress

/-- An Ethernet II frame with a TCP segment that is not fragmented; the options are in words of 32 bits. -/
structure TcpFrame where
  dest : Vector UInt8 6
  source : Vector UInt8 6
  tos : UInt8
  id : UInt16
  /-- `ip_reserved_zero` and `ip_dont_fragment`; the other bits are those of a fragment. -/
  flags : BitVec 2
  ttl : UInt8
  ipChecksum : UInt16
  srcaddr : IPAddress
  destaddr : IPAddress
  ipOptions : List UInt32
  ipOptions_le : ipOptions.length ≤ 10
  sourcePort : UInt16
  destPort : UInt16
  sequence : UInt32
  acknowledge : UInt32
  /-- `ns` and `reserved_part1`. -/
  reserved : BitVec 4
  control : UInt8
  window : UInt16
  checksum : UInt16
  urgentPointer : UInt16
  tcpOptions : List UInt32
  tcpOptions_le : tcpOptions.length ≤ 10
  payload : List UInt8
  total_lt : 40 + 4 * ipOptions.length + 4 * tcpOptions.length + payload.length < 2 ^ 16
  padding : List UInt8
  padded : padding = [] ∨ 54 + 4 * ipOptions.length + 4 * tcpOptions.length + payload.length + padding.length = 60

namespace TcpFrame

open CapturedFrame

variable (t : TcpFrame)

def ipHeaderLength : ℕ := 20 + 4 * t.ipOptions.length

def tcpHeaderLength : ℕ := 20 + 4 * t.tcpOptions.length

/-- `ip_total_length`. -/
def totalLength : ℕ := t.ipHeaderLength + t.tcpHeaderLength + t.payload.length

/-- The type is that of IPv4. -/
def ethernetHeader : List UInt8 := t.dest.toList ++ t.source.toList ++ [0x08, 0x00]

/-- The first byte is `ip_version` and `ip_header_len`. -/
def ipHeader : List UInt8 :=
  [UInt8.ofNat (4 * 16 + t.ipHeaderLength / 4), t.tos] ++ put16 (UInt16.ofNat t.totalLength) ++ put16 t.id ++
    [UInt8.ofNat (t.flags.toNat * 64), 0, t.ttl, kTcp] ++ put16 t.ipChecksum ++ t.srcaddr.bytes ++ t.destaddr.bytes ++
    t.ipOptions.flatMap put32

def tcpHeader : List UInt8 :=
  put16 t.sourcePort ++ put16 t.destPort ++ put32 t.sequence ++ put32 t.acknowledge ++
    [UInt8.ofNat (t.tcpHeaderLength / 4 * 16 + t.reserved.toNat), t.control] ++ put16 t.window ++ put16 t.checksum ++
    put16 t.urgentPointer ++ t.tcpOptions.flatMap put32

def bytes : List UInt8 := t.ethernetHeader ++ t.ipHeader ++ t.tcpHeader ++ t.payload ++ t.padding

/-- The addresses and ports of the segment. -/
def channel : CommChannelInfo := ⟨t.srcaddr.toUInt32, t.sourcePort, t.destaddr.toUInt32, t.destPort⟩

variable {t}

/-! ### The lengths -/

@[simp] lemma put16_length (v : UInt16) : (put16 v).length = 2 := rfl

@[simp] lemma put32_length (v : UInt32) : (put32 v).length = 4 := rfl

@[simp] lemma ethernetHeader_length : t.ethernetHeader.length = 14 := by simp [ethernetHeader]

@[simp] lemma ipHeader_length : t.ipHeader.length = t.ipHeaderLength := by
  simp [ipHeader, IPAddress.bytes, ipHeaderLength]
  omega

@[simp] lemma tcpHeader_length : t.tcpHeader.length = t.tcpHeaderLength := by
  simp [tcpHeader, tcpHeaderLength]
  omega

lemma bytes_length : t.bytes.length = 14 + t.totalLength + t.padding.length := by
  simp [bytes, totalLength]
  omega

lemma totalLength_lt : t.totalLength < 2 ^ 16 := by
  have htotal := t.total_lt
  rw [totalLength, ipHeaderLength, tcpHeaderLength]
  omega

lemma bytes_length_lt : t.bytes.length < 2 ^ 32 := by
  have htotal := t.total_lt
  rw [bytes_length, totalLength, ipHeaderLength, tcpHeaderLength]
  obtain hpadding | hpadding := t.padded
  · rw [hpadding, List.length_nil]
    omega
  · omega

/-- The frame, fully captured. -/
def captured (t : TcpFrame) : CapturedFrame := ⟨t.bytes, t.bytes_length_lt⟩

lemma captured_data : t.captured.data = t.bytes := rfl

/-! ### What is read of a frame -/

section Fields

variable {pre d : List UInt8} {i : ℕ}

lemma getD_of_prefix {b : UInt8} (h : pre ++ [b] <+: d) (hi : pre.length = i) : d.getD i 0 = b := by
  obtain ⟨post, rfl⟩ := h
  rw [← hi, List.append_assoc, List.getD_append_right _ _ _ _ le_rfl, Nat.sub_self]
  rfl

lemma get16_of_prefix {v : UInt16} (h : pre ++ put16 v <+: d) (hi : pre.length = i) : get16 d i = v := by
  obtain ⟨post, rfl⟩ := h
  rw [← hi, get16_put16]

lemma take_of_prefix {l : List UInt8} {n : ℕ} (h : pre ++ l <+: d) (hi : pre.length = i) (hn : l.length = n) :
    (d.drop i).take n = l := by
  obtain ⟨post, rfl⟩ := h
  rw [← hi, ← hn, List.append_assoc, List.drop_left' rfl, List.take_left' rfl]

end Fields

lemma ipHeaderLen_eq : t.captured.ipHeaderLen = t.ipHeaderLength := by
  have hprefix : t.ethernetHeader ++ [UInt8.ofNat (4 * 16 + t.ipHeaderLength / 4)] <+: t.bytes := by
    simp [bytes, ipHeader]
  have hbyte : t.captured.data.getD 14 0 = UInt8.ofNat (4 * 16 + t.ipHeaderLength / 4) :=
    getD_of_prefix hprefix (by simp)
  have hle := t.ipOptions_le
  rw [ipHeaderLen, hbyte, UInt8.toNat_and, UInt8.toNat_ofNat', show (0xF : UInt8).toNat = 2 ^ 4 - 1 by rfl,
    Nat.and_two_pow_sub_one_eq_mod, ipHeaderLength]
  omega

lemma isTcp : t.captured.isTcp := by
  have hprefix : (t.ethernetHeader ++ [UInt8.ofNat (4 * 16 + t.ipHeaderLength / 4), t.tos] ++
      put16 (UInt16.ofNat t.totalLength) ++ put16 t.id ++ [UInt8.ofNat (t.flags.toNat * 64), 0, t.ttl]) ++ [kTcp] <+:
      t.bytes := by
    simp [bytes, ipHeader]
  exact getD_of_prefix hprefix (by simp)

lemma ipTotalLen_eq : t.captured.ipTotalLen = t.totalLength := by
  have hprefix : (t.ethernetHeader ++ [UInt8.ofNat (4 * 16 + t.ipHeaderLength / 4), t.tos]) ++
      put16 (UInt16.ofNat t.totalLength) <+: t.bytes := by
    simp [bytes, ipHeader]
  have hlt := t.totalLength_lt
  rw [ipTotalLen, captured_data, get16_of_prefix hprefix (by simp), UInt16.toNat_ofNat',
    Nat.mod_eq_of_lt hlt]

lemma tcpHeaderLen_eq : t.captured.tcpHeaderLen = t.tcpHeaderLength := by
  have hprefix : (t.ethernetHeader ++ t.ipHeader ++ put16 t.sourcePort ++ put16 t.destPort ++
      put32 t.sequence ++ put32 t.acknowledge) ++ [UInt8.ofNat (t.tcpHeaderLength / 4 * 16 + t.reserved.toNat)] <+:
      t.bytes := by
    simp [bytes, tcpHeader]
  have hbyte : t.captured.data.getD (t.ipHeaderLength + 26) 0 =
      UInt8.ofNat (t.tcpHeaderLength / 4 * 16 + t.reserved.toNat) :=
    getD_of_prefix hprefix (by simp; omega)
  have hle := t.tcpOptions_le
  -- The low nibble is that of the reserved bits.
  have hreserved := t.reserved.isLt
  rw [tcpHeaderLen, ipHeaderLen_eq, hbyte, UInt8.toNat_shiftRight, Nat.shiftRight_eq_div_pow, UInt8.toNat_ofNat',
    show (4 : UInt8).toNat % 8 = 4 by rfl, tcpHeaderLength]
  omega

lemma channel_eq : t.captured.channel = t.channel := by
  have hsrcaddr : (t.ethernetHeader ++ [UInt8.ofNat (4 * 16 + t.ipHeaderLength / 4), t.tos] ++
      put16 (UInt16.ofNat t.totalLength) ++ put16 t.id ++ [UInt8.ofNat (t.flags.toNat * 64), 0, t.ttl, kTcp] ++
      put16 t.ipChecksum) ++ t.srcaddr.bytes <+: t.bytes := by
    simp [bytes, ipHeader]
  have hdestaddr : (t.ethernetHeader ++ [UInt8.ofNat (4 * 16 + t.ipHeaderLength / 4), t.tos] ++
      put16 (UInt16.ofNat t.totalLength) ++ put16 t.id ++ [UInt8.ofNat (t.flags.toNat * 64), 0, t.ttl, kTcp] ++
      put16 t.ipChecksum ++ t.srcaddr.bytes) ++ t.destaddr.bytes <+: t.bytes := by
    simp [bytes, ipHeader]
  have hsourcePort : (t.ethernetHeader ++ t.ipHeader) ++ put16 t.sourcePort <+: t.bytes := by
    simp [bytes, tcpHeader]
  have hdestPort : (t.ethernetHeader ++ t.ipHeader ++ put16 t.sourcePort) ++ put16 t.destPort <+: t.bytes := by
    simp [bytes, tcpHeader]
  have hsource : get16 t.bytes (t.ipHeaderLength + 14) = t.sourcePort :=
    get16_of_prefix hsourcePort (by simp; omega)
  have hdest : get16 t.bytes (t.ipHeaderLength + 16) = t.destPort :=
    get16_of_prefix hdestPort (by simp; omega)
  have hsrc : (t.bytes.drop 26).take 4 = t.srcaddr.bytes := take_of_prefix hsrcaddr (by simp) rfl
  have hdst : (t.bytes.drop 30).take 4 = t.destaddr.bytes := take_of_prefix hdestaddr (by simp [IPAddress.bytes]) rfl
  rw [CapturedFrame.channel, ipHeaderLen_eq, captured_data, hsource, hdest, hsrc, hdst]
  rfl

lemma payloadStart_eq : t.captured.payloadStart = 14 + t.ipHeaderLength + t.tcpHeaderLength := by
  rw [payloadStart, ipHeaderLen_eq, tcpHeaderLen_eq]

lemma caplen_eq : t.captured.caplen = 14 + t.totalLength + t.padding.length := bytes_length

/-- A frame is taken if there is a payload, and nothing behind it. -/
lemma delivers_iff : t.captured.Delivers ↔ t.payload ≠ [] ∧ t.padding = [] := by
  rw [Delivers, payloadStart_eq, caplen_eq, ipTotalLen_eq, ← List.length_pos_iff, ← List.length_eq_zero_iff, totalLength]
  omega

lemma packetCaptureCallBack_eq : t.captured.packetCaptureCallBack true =
    if t.payload ≠ [] ∧ t.padding = [] then .ok [t.captured.delivery] else .ok [] := by
  have hlength : 54 ≤ t.captured.caplen ∧ t.ipHeaderLength + 34 ≤ t.captured.caplen := by
    rw [caplen_eq, totalLength, tcpHeaderLength, ipHeaderLength]
    omega
  rw [CapturedFrame.packetCaptureCallBack_eq, if_neg (by omega), if_neg (not_not.2 isTcp), ipHeaderLen_eq,
    if_neg (by omega), ite_not, if_neg (show ¬ t.captured.caplen < 34 by omega)]
  simp only [delivers_iff, and_true]

lemma take_payload : (t.bytes.drop t.captured.payloadStart).take t.payload.length = t.payload := by
  have hprefix : (t.ethernetHeader ++ t.ipHeader ++ t.tcpHeader) ++ t.payload <+: t.bytes := by
    simp [bytes]
  apply take_of_prefix hprefix _ rfl
  rw [payloadStart_eq]
  simp
  omega

/-- **The payload is delivered exactly**: once, as it is, with the addresses and ports of the segment, and not at all if
there is none. -/
def DeliversExactly (t : TcpFrame) : Prop :=
  if t.payload = [] then t.captured.packetCaptureCallBack true = .ok []
  else ∃ d, t.captured.packetCaptureCallBack true = .ok [d] ∧ d.channel = t.channel ∧
    d.dataLen = t.totalLength - t.ipHeaderLength - t.tcpHeaderLength ∧
    (t.bytes.drop d.data).take d.dataLen.toNat = t.payload

/-- **The payload is delivered exactly** if and only if there is none, or the link layer has added nothing to the frame. -/
theorem deliversExactly_iff (t : TcpFrame) : t.DeliversExactly ↔ t.payload = [] ∨ t.padding = [] := by
  rw [DeliversExactly, packetCaptureCallBack_eq]
  by_cases hpayload : t.payload = []
  · simp [hpayload]
  by_cases hpadding : t.padding = []
  · have hdataLen : t.captured.delivery.dataLen = t.payload.length := by
      show ((t.captured.caplen - t.captured.payloadStart : ℕ) : ℤ) = t.payload.length
      rw [caplen_eq, payloadStart_eq, totalLength, hpadding, List.length_nil]
      omega
    have htotal : (t.payload.length : ℤ) = t.totalLength - t.ipHeaderLength - t.tcpHeaderLength := by
      rw [totalLength]
      omega
    rw [if_neg hpayload, if_pos ⟨hpayload, hpadding⟩]
    simp only [hpadding, or_true, iff_true]
    refine ⟨_, rfl, channel_eq, hdataLen.trans htotal, ?_⟩
    rw [hdataLen]
    exact take_payload
  · simp [hpayload, hpadding]

/-- A segment with one byte of payload, in a frame of the least size of a frame. -/
def shortFrame : TcpFrame where
  dest := Vector.replicate 6 0xFF
  source := Vector.replicate 6 0x02
  tos := 0
  id := 1
  flags := 1
  ttl := 64
  ipChecksum := 0x26CC
  srcaddr := ⟨10, 0, 0, 1⟩
  destaddr := ⟨10, 0, 0, 2⟩
  ipOptions := []
  ipOptions_le := Nat.zero_le _
  sourcePort := 1024
  destPort := 80
  sequence := 1
  acknowledge := 1
  reserved := 0
  control := 0x18
  window := 512
  checksum := 0x5477
  urgentPointer := 0
  tcpOptions := []
  tcpOptions_le := Nat.zero_le _
  payload := [0x41]
  total_lt := by simp
  padding := List.replicate 5 0
  padded := .inr rfl

/-- Nothing is delivered of a payload of one byte. -/
theorem shortFrame_not_delivered : ¬ ∀ t : TcpFrame, t.DeliversExactly := by
  intro h
  have hframe := h shortFrame
  have hpayload : shortFrame.payload ≠ [] := List.cons_ne_nil _ _
  have hpadding : ¬ (shortFrame.payload ≠ [] ∧ shortFrame.padding = []) := fun hnot => List.cons_ne_nil _ _ hnot.2
  rw [DeliversExactly, if_neg hpayload, packetCaptureCallBack_eq, if_neg hpadding] at hframe
  obtain ⟨d, hd, -⟩ := hframe
  cases hd

end TcpFrame

end Zutils
