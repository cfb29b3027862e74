import Zutils.Lib.Loop
import Zutils.Net.IoHandler

/-!
# The packet codecs (`net/codec/znet`, `net/codec/teamtalk`)

A packet is the block that its constructor allocates: a header, which the constructor writes, and the body, which it
leaves as `malloc` returned it. `ParsePacketHeader` reads a header that came over the wire, and `OnDataReceived` of
the two codecs makes packets of the frames in the receive buffer.

`ZNetCodec::OnDataReceived` and `TeamTalkCodec::OnDataReceived` are the same text over different packets, so they are
one function here, `PacketCodec.onDataReceived`, and each codec is a value of `PacketCodec`. The contents of fresh
memory are an argument.
-/

namespace Zutils.Net

open Zutils.Lib

/-- The `n` bytes at `Peek() + off`. -/
def IOBuffer.load (b : IOBuffer) (off n : ℕ) : Except Fault (List UInt8) :=
  if b.readerIndex + off + n ≤ b.buffer.length then .ok ((b.buffer.drop (b.readerIndex + off)).take n)
  else .error .outOfRange

/-! ### ZNet -/

namespace ZNetPacketHeader

def kMaxPacketSize : UInt32 := 2 * 1024 * 1024
def kPacketVersion : UInt32 := 0

/-- `GeneratePacketHeader(data, message_type, body_len)`: the code it returns, and what is at `data` then. -/
def generatePacketHeader (data : List UInt8) (messageType : UInt16) (bodyLen : UInt32) :
    Except Fault (ℤ × List UInt8) :=
  if bodyLen > kMaxPacketSize then .ok (-1, data)
  else do
    let data ← copyAt data 0 (put16 kPacketVersion.toUInt16 ++ put16 messageType ++ put32 bodyLen)
    return (if bodyLen > 0 then 0 else 1, data)

/-- `ParsePacketHeader(data, &message_type, &body_len)`: the code it returns and what it stores. The version is read
as well, but the comparison with `kPacketVersion` is commented out. -/
def parsePacketHeader (data : List UInt8) : ℤ × UInt16 × UInt32 :=
  let messageType := get16 data 2
  let bodyLen := get32 data 4
  if bodyLen > kMaxPacketSize then (-1, messageType, bodyLen)
  else if bodyLen = 0 then (1, messageType, bodyLen)
  else (0, messageType, bodyLen)

end ZNetPacketHeader

/-- `class Packet`: the block at `head_`. -/
structure Packet where
  data : List UInt8
  deriving DecidableEq, Repr

namespace Packet

def kMaxPacketSize : UInt32 := 2 * 1024 * 1024
def kPacketHeaderSize : UInt32 := 8
def kPacketVersion : UInt32 := 0

/-- `Packet(cmd_type, data_len)`. -/
def new (mem : Mem) (cmdType : UInt16) (dataLen : UInt32) : Except Fault Packet := do
  let block := mem.bytes 0 (dataLen + kPacketHeaderSize).toNat
  let data ← copyAt block 0 (put16 kPacketVersion.toUInt16 ++ put16 cmdType ++ put32 dataLen)
  return ⟨data⟩

/-- `ParsePacketHeader()`. Here the version is compared. -/
def parsePacketHeader (p : Packet) : ℤ :=
  let version := get16 p.data 0
  let bodyLen := get32 p.data 4
  if version.toUInt32 ≠ kPacketVersion ∨ bodyLen > kMaxPacketSize then -1
  else if bodyLen = 0 then 1
  else 0

def getVersion (p : Packet) : UInt16 := get16 p.data 0

def getCmdType (p : Packet) : UInt16 := get16 p.data 2

def getBodyLength (p : Packet) : UInt32 := get32 p.data 4

/-- The bytes at `GetBodyData()`. -/
def getBodyData (p : Packet) : List UInt8 := (p.data.drop kPacketHeaderSize.toNat).take p.getBodyLength.toNat

/-- `memcpy` to `GetBodyMutableData()`. -/
def copyBody (p : Packet) (body : List UInt8) : Except Fault Packet := do
  return ⟨← copyAt p.data kPacketHeaderSize.toNat body⟩

end Packet

/-! ### TeamTalk -/

/-- `class TeamTalkPacket`: the block at `data_`. -/
structure TeamTalkPacket where
  data : List UInt8
  deriving DecidableEq, Repr

namespace TeamTalkPacket

def kMaxPacketSize : UInt32 := 64 * 1024 * 1024
def kPacketHeaderSize : UInt32 := 12
def kPacketVersion : UInt16 := 1

/-- `GeneratePacketHeader(data, message_type, reserved, body_len)`: the code it returns, and what is at `data` then.
It compares the length of the body with the limit, and returns 0 for an empty body as well. -/
def generatePacketHeader (data : List UInt8) (messageType : UInt32) (reserved : UInt16) (bodyLen : UInt32) :
    Except Fault (ℤ × List UInt8) :=
  if bodyLen > kMaxPacketSize then .ok (-1, data)
  else do
    let dataLen := bodyLen + kPacketHeaderSize
    let data ← copyAt data 0 (put32 dataLen ++ put32 messageType ++ put16 kPacketVersion ++ put16 reserved)
    return (0, data)

/-- `ParsePacketHeader(head_data, &message_type, &reserved, &body_len)`: the code it returns and what it stores. It
does not store `body_len` when it returns -1. -/
def parsePacketHeader (headData : List UInt8) : ℤ × (UInt32 × UInt16) × UInt32 :=
  let packetLen := get32 headData 0
  let messageType := get32 headData 4
  let version := get16 headData 8
  let reserved := get16 headData 10
  if version ≠ kPacketVersion ∨ packetLen > kMaxPacketSize ∨ packetLen < kPacketHeaderSize then
    (-1, (messageType, reserved), 0)
  else if packetLen = kPacketHeaderSize then (1, (messageType, reserved), 0)
  else (0, (messageType, reserved), packetLen - kPacketHeaderSize)

/-- `TeamTalkPacket(message_type, reserved, body_len)`. -/
def new (mem : Mem) (messageType : UInt32) (reserved : UInt16) (bodyLen : UInt32) :
    Except Fault TeamTalkPacket := do
  let dataLen := bodyLen + kPacketHeaderSize
  let block := mem.bytes 0 dataLen.toNat
  let data ← copyAt block 0 (put32 dataLen ++ put32 messageType ++ put16 kPacketVersion ++ put16 reserved)
  return ⟨data⟩

def getRawdataLength (p : TeamTalkPacket) : UInt32 := get32 p.data 0

def getMessageType (p : TeamTalkPacket) : UInt32 := get32 p.data 4

def getVersion (p : TeamTalkPacket) : UInt16 := get16 p.data 8

def getReserved (p : TeamTalkPacket) : UInt16 := get16 p.data 10

def getBodyLength (p : TeamTalkPacket) : UInt32 := p.getRawdataLength - kPacketHeaderSize

/-- The bytes at `GetBodyData()`. -/
def getBodyData (p : TeamTalkPacket) : List UInt8 :=
  (p.data.drop kPacketHeaderSize.toNat).take p.getBodyLength.toNat

/-- `memcpy` to `GetBodyMutableData()`. -/
def copyBody (p : TeamTalkPacket) (body : List UInt8) : Except Fault TeamTalkPacket := do
  return ⟨← copyAt p.data kPacketHeaderSize.toNat body⟩

end TeamTalkPacket

/-! ### `OnDataReceived` -/

/-- What tells the two codecs apart: the packet type `P` and the header fields `H` besides the length. -/
structure PacketCodec (H P : Type) where
  kPacketHeaderSize : UInt32
  parsePacketHeader : List UInt8 → ℤ × H × UInt32
  newPacket : Mem → H → UInt32 → Except Fault P
  copyBody : P → List UInt8 → Except Fault P

/-- `ZNetCodec`. -/
def znetCodec : PacketCodec UInt16 Packet where
  kPacketHeaderSize := Packet.kPacketHeaderSize
  parsePacketHeader := ZNetPacketHeader.parsePacketHeader
  newPacket := Packet.new
  copyBody := Packet.copyBody

/-- `TeamTalkCodec`. -/
def teamTalkCodec : PacketCodec (UInt32 × UInt16) TeamTalkPacket where
  kPacketHeaderSize := TeamTalkPacket.kPacketHeaderSize
  parsePacketHeader := TeamTalkPacket.parsePacketHeader
  newPacket mem fields bodyLen := TeamTalkPacket.new mem fields.1 fields.2 bodyLen
  copyBody := TeamTalkPacket.copyBody

namespace PacketCodec

/-- `(int)x`, as the `size_t` it is compared with. -/
def intSize (x : UInt32) : ℕ := ((x.toNat : ℤ).bmod (2 ^ 32) % 2 ^ 64).toNat

/-- The result of a call, the packets the delegate has seen, and the receive buffer. -/
structure State (P : Type) where
  ret : ℤ
  seen : List P
  data : IOBuffer

variable {H P : Type} (codec : PacketCodec H P) (mem : Mem) (delegate : List P → ℤ)

/-- One turn of the `while` loop; `.inr` returns from the function, and the `break` returns 0. -/
def round : State P → Except Fault (State P ⊕ State P)
  | ⟨result, seen, data⟩ => do
    if codec.kPacketHeaderSize.toNat ≤ data.readableBytes then
      let (ret, fields, bodyLen) := codec.parsePacketHeader (data.peek codec.kPacketHeaderSize.toNat)
      if ret = -1 then
        return .inr ⟨ret, seen, data⟩
      else if ret = 1 then
        let p ← codec.newPacket mem fields 0
        let ret := delegate (seen ++ [p])
        let data ← data.retrieve codec.kPacketHeaderSize.toNat
        return .inr ⟨ret, seen ++ [p], data⟩
      else if ret = 0 then
        if intSize (bodyLen + codec.kPacketHeaderSize) ≤ data.readableBytes then
          let p ← codec.newPacket mem fields bodyLen
          let p ← codec.copyBody p (← data.load codec.kPacketHeaderSize.toNat bodyLen.toNat)
          let ret := delegate (seen ++ [p])
          let data ← data.retrieve (bodyLen + codec.kPacketHeaderSize).toNat
          return .inr ⟨ret, seen ++ [p], data⟩
        else
          return .inr ⟨0, seen, data⟩
      else
        return .inl ⟨result, seen, data⟩
    else
      return .inr ⟨0, seen, data⟩

/-- `OnDataReceived`, with at most `fuel` turns of its loop; the delegate is a function of all packets it has seen. -/
def onDataReceived (fuel : ℕ) (seen : List P) (data : IOBuffer) : Option (Except Fault (State P)) :=
  rounds (codec.round mem delegate) fuel ⟨0, seen, data⟩

end PacketCodec

end Zutils.Net
