import Zutils.Base.ByteOrder
import Zutils.Base.Checked
import Zutils.Lib.HostWord
import Zutils.Pcap.CommChannelInfo
import Mathlib.Data.UInt

/-!
# Captured frames (`pcap_util/pcap_thread.cc`, `pcap_util/net_headers.h`)

`PacketCaptureCallBack` looks for the payload of a TCP segment by the lengths that are in the headers, and gives it to the
thread if the frame is as long as the IP header says. To read behind what was captured is a fault.

The bit-fields are those of a little-endian host, where also the addresses are loaded. An `int` has 32 bits and a `size_t`
has 64.
-/

namespace Zutils

open Lib

/-- What is captured of a frame; `caplen` is a `bpf_u_int32`. -/
structure CapturedFrame where
  data : List UInt8
  caplen_lt : data.length < 2 ^ 32

/-- What `OnDataReceived` is called with, where the data are given by where they begin in the frame. -/
structure Delivery where
  channel : CommChannelInfo
  data : ℕ
  dataLen : ℤ
  deriving DecidableEq, Repr

namespace CapturedFrame

variable (f : CapturedFrame)

def caplen : ℕ := f.data.length

/-- `pkt_data[i]`. -/
def byteAt (i : ℕ) : Except Fault UInt8 :=
  match f.data[i]? with
  | some b => .ok b
  | none => .error .outOfRange

/-- `ntohs` of a `u_short`. -/
def ntohsAt (i : ℕ) : Except Fault UInt16 := do
  let a ← f.byteAt i
  let b ← f.byteAt (i + 1)
  return get16 [a, b] 0

/-- `*(uint32*)` of an address. -/
def addressAt (i : ℕ) : Except Fault UInt32 := do
  let a ← f.byteAt i
  let b ← f.byteAt (i + 1)
  let c ← f.byteAt (i + 2)
  let d ← f.byteAt (i + 3)
  return UInt32.ofNat (leNat [a, b, c, d])

/-- `sizeof(EthernetHeader)`. -/
def kEthernetHeaderSize : ℕ := 14

/-- `IPPROTO_TCP`. -/
def kTcp : UInt8 := 6

/-- A value in an `int`. -/
def toInt (x : ℤ) : ℤ := Int.bmod x (2 ^ 32)

/-- `PacketCaptureCallBack`, with the calls of `OnDataReceived`; `hasThread` is `cap_thread != NULL`. -/
def packetCaptureCallBack (hasThread : Bool) : Except Fault (List Delivery) := do
  let pktDataLen := toInt f.caplen
  let ipHeaderLen := ((← f.byteAt kEthernetHeaderSize) &&& 0xF).toNat * 4
  if (← f.byteAt (kEthernetHeaderSize + 9)) = kTcp then
    let tcpHeader := ipHeaderLen + kEthernetHeaderSize
    let tcpHeaderLen := ((← f.byteAt (tcpHeader + 12)) >>> 4).toNat * 4
    let sourcePort ← f.ntohsAt tcpHeader
    let destPort ← f.ntohsAt (tcpHeader + 2)
    let data := kEthernetHeaderSize + ipHeaderLen + tcpHeaderLen
    let dataLen := toInt (pktDataLen - kEthernetHeaderSize - ipHeaderLen - tcpHeaderLen)
    let ipTotalLen ← f.ntohsAt (kEthernetHeaderSize + 2)
    -- The captured length is compared as a `size_t`.
    if dataLen > 0 ∧ pktDataLen % 2 ^ 64 = kEthernetHeaderSize + ipTotalLen.toNat ∧ hasThread = true then
      let sourceIp ← f.addressAt (kEthernetHeaderSize + 12)
      let destIp ← f.addressAt (kEthernetHeaderSize + 16)
      return [⟨⟨sourceIp, sourcePort, destIp, destPort⟩, data, dataLen⟩]
    else return []
  else return []

/-! ### The fields of the headers -/

/-- The length of the IP header, as it is in the frame. -/
def ipHeaderLen : ℕ := (f.data.getD 14 0 &&& 0xF).toNat * 4

def isTcp : Prop := f.data.getD 23 0 = kTcp

instance : Decidable f.isTcp := inferInstanceAs (Decidable (_ = _))

def ipTotalLen : ℕ := (get16 f.data 16).toNat

/-- The length of the TCP header, as it is in the frame. -/
def tcpHeaderLen : ℕ := (f.data.getD (f.ipHeaderLen + 26) 0 >>> 4).toNat * 4

/-- Where the payload begins. -/
def payloadStart : ℕ := 14 + f.ipHeaderLen + f.tcpHeaderLen

/-- The frame is as long as the IP header says, and longer than its headers. -/
def Delivers : Prop := f.payloadStart < f.caplen ∧ f.caplen = 14 + f.ipTotalLen

instance : Decidable f.Delivers := inferInstanceAs (Decidable (_ ∧ _))

/-- The channel of the segment. -/
def channel : CommChannelInfo where
  sourceIp := UInt32.ofNat (leNat ((f.data.drop 26).take 4))
  sourcePort := get16 f.data (f.ipHeaderLen + 14)
  destIp := UInt32.ofNat (leNat ((f.data.drop 30).take 4))
  destPort := get16 f.data (f.ipHeaderLen + 16)

variable {f} {i : ℕ}

/-! ### What is read -/

lemma byteAt_eq : f.byteAt i = if i < f.caplen then .ok (f.data.getD i 0) else .error .outOfRange := by
  by_cases hi : i < f.data.length
  · simp [byteAt, caplen, hi, List.getD_eq_getElem?_getD]
  · simp [byteAt, caplen, hi]

lemma ntohsAt_eq : f.ntohsAt i = if i + 1 < f.caplen then .ok (get16 f.data i) else .error .outOfRange := by
  rw [ntohsAt, byteAt_eq, byteAt_eq]
  by_cases hi : i + 1 < f.caplen
  · rw [if_pos (by omega), if_pos hi, if_pos hi]
    rfl
  · rw [if_neg hi, if_neg hi]
    split <;> rfl

lemma addressAt_eq : f.addressAt i =
    if i + 3 < f.caplen then .ok (UInt32.ofNat (leNat ((f.data.drop i).take 4))) else .error .outOfRange := by
  rw [addressAt, byteAt_eq, byteAt_eq, byteAt_eq, byteAt_eq]
  by_cases hi : i + 3 < f.caplen
  · have hlength : i + 3 < f.data.length := hi
    rw [if_pos (by omega), if_pos (by omega), if_pos (by omega), if_pos hi, if_pos hi, take_drop_succ (by omega),
      take_drop_succ (by omega), take_drop_succ (by omega), take_drop_succ hlength, List.take_zero]
    rfl
  · rw [if_neg hi, if_neg hi]
    split
    · split
      · split <;> rfl
      · rfl
    · rfl

lemma ipHeaderLen_le : f.ipHeaderLen ≤ 60 := by
  have h : (f.data.getD 14 0 &&& 0xF).toNat ≤ 15 := by
    rw [UInt8.toNat_and]
    exact Nat.and_le_right
  rw [ipHeaderLen]
  omega

lemma tcpHeaderLen_le : f.tcpHeaderLen ≤ 60 := by
  have h : (f.data.getD (f.ipHeaderLen + 26) 0 >>> 4).toNat ≤ 15 := by
    have hlt := (f.data.getD (f.ipHeaderLen + 26) 0).toNat_lt
    rw [UInt8.toNat_shiftRight, Nat.shiftRight_eq_div_pow]
    simp only [UInt8.reduceToNat, Nat.reduceMod]
    omega
  rw [tcpHeaderLen]
  omega

lemma toInt_eq (x : ℤ) : toInt x =
    if x % 4294967296 < 2147483648 then x % 4294967296 else x % 4294967296 - 4294967296 := rfl

/-- The value in `data_len`. -/
def dataLen (f : CapturedFrame) : ℤ := toInt (toInt f.caplen - kEthernetHeaderSize - f.ipHeaderLen - f.tcpHeaderLen)

/-- **The lengths are compared as numbers**, although they are an `int` and a `size_t`. -/
lemma delivers_iff :
    (f.dataLen > 0 ∧ toInt f.caplen % 2 ^ 64 = kEthernetHeaderSize + (get16 f.data 16).toNat) ↔ f.Delivers := by
  have hlt : f.caplen < 2 ^ 32 := f.caplen_lt
  have hip := f.ipHeaderLen_le
  have htcp := f.tcpHeaderLen_le
  have htotal : f.ipTotalLen < 2 ^ 16 := (get16 f.data 16).toNat_lt
  rw [dataLen, toInt_eq, toInt_eq, Delivers, payloadStart, kEthernetHeaderSize, ← ipTotalLen]
  split <;> split <;> omega

lemma dataLen_eq (h : f.Delivers) : f.dataLen = (f.caplen - f.payloadStart : ℕ) := by
  obtain ⟨hstart, hlength⟩ := h
  have htotal : f.ipTotalLen < 2 ^ 16 := (get16 f.data 16).toNat_lt
  rw [payloadStart] at hstart ⊢
  rw [dataLen, toInt_eq, toInt_eq, kEthernetHeaderSize]
  split <;> split <;> omega

/-- What is delivered of the frame. -/
def delivery (f : CapturedFrame) : Delivery := ⟨f.channel, f.payloadStart, (f.caplen - f.payloadStart : ℕ)⟩

section CallBack

variable {hasThread : Bool}

lemma read_ipHeader (h24 : 24 ≤ f.caplen) : f.byteAt kEthernetHeaderSize = .ok (f.data.getD 14 0) ∧
    f.byteAt (kEthernetHeaderSize + 9) = .ok (f.data.getD 23 0) := by
  rw [byteAt_eq, byteAt_eq, kEthernetHeaderSize, if_pos (by omega), if_pos (by omega)]
  exact ⟨rfl, rfl⟩

lemma packetCaptureCallBack_short (h24 : f.caplen < 24) : f.packetCaptureCallBack hasThread = .error .outOfRange := by
  have h23 : f.byteAt (kEthernetHeaderSize + 9) = .error .outOfRange := by
    rw [byteAt_eq, kEthernetHeaderSize, if_neg (by omega)]
  rw [packetCaptureCallBack, h23, byteAt_eq]
  split <;> rfl

lemma packetCaptureCallBack_other (h24 : 24 ≤ f.caplen) (htcp : ¬ f.isTcp) :
    f.packetCaptureCallBack hasThread = .ok [] := by
  obtain ⟨h14, h23⟩ := read_ipHeader h24
  have hprotocol : ¬ f.data.getD 23 0 = kTcp := htcp
  rw [packetCaptureCallBack, h14, h23]
  simp only [ok_bind, hprotocol, if_false]
  rfl

lemma packetCaptureCallBack_tcp (h24 : 24 ≤ f.caplen) (htcp : f.isTcp) : f.packetCaptureCallBack hasThread =
    if f.caplen < f.ipHeaderLen + 27 then .error .outOfRange
    else if ¬ (f.Delivers ∧ hasThread = true) then .ok []
    else if f.caplen < 34 then .error .outOfRange
    else .ok [f.delivery] := by
  obtain ⟨h14, h23⟩ := read_ipHeader h24
  have hprotocol : f.data.getD 23 0 = kTcp := htcp
  have htcpHeader : (f.data.getD 14 0 &&& 0xF).toNat * 4 + kEthernetHeaderSize = f.ipHeaderLen + 14 := rfl
  rw [packetCaptureCallBack, h14, h23]
  simp only [ok_bind, hprotocol, if_true]
  rw [htcpHeader, Nat.add_assoc f.ipHeaderLen 14 12, Nat.add_assoc f.ipHeaderLen 14 2]
  by_cases hoffset : f.caplen < f.ipHeaderLen + 27
  · have herr : f.byteAt (f.ipHeaderLen + (14 + 12)) = .error .outOfRange := by rw [byteAt_eq, if_neg (by omega)]
    rw [if_pos hoffset, herr]
    rfl
  have hheader : f.byteAt (f.ipHeaderLen + (14 + 12)) = .ok (f.data.getD (f.ipHeaderLen + 26) 0) := by
    rw [byteAt_eq, if_pos (by omega)]
  have hsource : f.ntohsAt (f.ipHeaderLen + 14) = .ok (get16 f.data (f.ipHeaderLen + 14)) := by
    rw [ntohsAt_eq, if_pos (by omega)]
  have hdest : f.ntohsAt (f.ipHeaderLen + (14 + 2)) = .ok (get16 f.data (f.ipHeaderLen + 16)) := by
    rw [ntohsAt_eq, if_pos (by omega)]
  have htotal : f.ntohsAt (kEthernetHeaderSize + 2) = .ok (get16 f.data 16) := by
    rw [ntohsAt_eq, kEthernetHeaderSize, if_pos (by omega)]
  rw [if_neg hoffset, hheader, hsource, hdest, htotal]
  rw [ok_bind, ok_bind, ok_bind, ok_bind]
  have hip : (f.data.getD 14 0 &&& 0xF).toNat * 4 = f.ipHeaderLen := rfl
  have hthl : (f.data.getD (f.ipHeaderLen + 26) 0 >>> 4).toNat * 4 = f.tcpHeaderLen := rfl
  rw [hip, hthl, ← dataLen]
  have hcond : (f.dataLen > 0 ∧ toInt f.caplen % 2 ^ 64 = kEthernetHeaderSize + (get16 f.data 16).toNat ∧
      hasThread = true) ↔ f.Delivers ∧ hasThread = true := by
    rw [← and_assoc, delivers_iff]
  by_cases hdelivers : f.Delivers ∧ hasThread = true
  · -- The addresses are the last that is read.
    rw [if_pos (hcond.2 hdelivers), if_neg (not_not.2 hdelivers), addressAt_eq, addressAt_eq, kEthernetHeaderSize,
      dataLen_eq hdelivers.1]
    by_cases h34 : f.caplen < 34
    · rw [if_pos h34, if_neg (show ¬ 14 + 16 + 3 < f.caplen by omega)]
      split <;> rfl
    · rw [if_neg h34, if_pos (by omega), if_pos (by omega)]
      rfl
  · rw [if_neg (mt hcond.1 hdelivers), if_pos hdelivers]
    rfl

/-- **What is done with a frame.** -/
theorem packetCaptureCallBack_eq (hasThread : Bool) : f.packetCaptureCallBack hasThread =
    if f.caplen < 24 then .error .outOfRange
    else if ¬ f.isTcp then .ok []
    else if f.caplen < f.ipHeaderLen + 27 then .error .outOfRange
    else if ¬ (f.Delivers ∧ hasThread = true) then .ok []
    else if f.caplen < 34 then .error .outOfRange
    else .ok [f.delivery] := by
  by_cases h24 : f.caplen < 24
  · rw [if_pos h24, packetCaptureCallBack_short h24]
  rw [if_neg h24]
  by_cases htcp : f.isTcp
  · rw [if_neg (not_not.2 htcp), packetCaptureCallBack_tcp (not_lt.1 h24) htcp]
  · rw [if_pos htcp, packetCaptureCallBack_other (not_lt.1 h24) htcp]

end CallBack

end CapturedFrame

end Zutils
