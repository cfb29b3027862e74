import Zutils.Base.ByteStream
import Zutils.Net.Codec.Packet

/-!
# The packet streams (`net/codec/znet/packet`)

An `OutPacketStream` is a byte stream whose block has the header of a packet in front of `buffer_`, so that
`GetPacket` can make a packet of the block without a copy. Its `Alloc` overrides that of the byte stream. An
`InPacketStream` reads the body of a packet.
-/

namespace Zutils.Net

namespace Packet

def getRawdataLength (p : Packet) : UInt32 := p.getBodyLength + kPacketHeaderSize

/-- The bytes at `GetRawdataConstBuffer()`. -/
def getRawdata (p : Packet) : List UInt8 := p.data.take p.getRawdataLength.toNat

/-- `Packet(cmd_type, data, data_len)`, which takes the block over. Nothing has been stored in the pointer `data` when
there is no block. -/
def ofData (cmdType : UInt16) (data : Option (List UInt8)) (dataLen : UInt32) : Except StreamFault Packet :=
  match data with
  | none => .error .outOfRange
  | some data =>
    if kPacketHeaderSize.toNat ≤ data.length then
      .ok ⟨put16 kPacketVersion.toUInt16 ++ put16 cmdType ++ put32 dataLen ++ data.drop kPacketHeaderSize.toNat⟩
    else .error .outOfRange

end Packet

/-- `class OutPacketStream`; `data_` points to the start of the block. -/
structure OutPacketStream extends ByteStream where
  isTransfered : Bool
  cmdType : UInt16

namespace OutPacketStream

/-- `OutPacketStream::Alloc(new_len)`. It takes the header off the size that the loop finds, and not off what it asks
`realloc` for. -/
def alloc (heap : Heap) : ByteStream.Alloc := fun s newLen =>
  if s.failed then .ok (false, s)
  else if newLen > s.maxLen then do
    let newBufferSize ← growLoop Packet.kPacketHeaderSize newLen s.maxLen
    match heap.realloc s.block (newBufferSize + Packet.kPacketHeaderSize).toNat with
    | none => throw .check
    | some block =>
      return (true, { s with
        block := some block
        offset := Packet.kPacketHeaderSize.toNat
        maxLen := newBufferSize - Packet.kPacketHeaderSize })
  else .ok (s.block.isSome, s)

/-- `OutPacketStream(cmd_type)`. -/
def new (heap : Heap) (cmdType : UInt16) : Except StreamFault OutPacketStream := do
  let (_, s) ← alloc heap ByteStream.new Packet.kPacketHeaderSize
  return ⟨s, false, cmdType⟩

/-- `OutPacketStream(cmd_type, data_len)`. -/
def newWithLen (heap : Heap) (cmdType : UInt16) (dataLen : UInt32) : Except StreamFault OutPacketStream := do
  let (_, s) ← alloc heap ByteStream.new dataLen
  return ⟨s, false, cmdType⟩

/-- `operator <<`. -/
def insert (out : OutPacketStream) (heap : Heap) (v : ByteStream.Value) : Except StreamFault OutPacketStream := do
  let s ← out.toByteStream.insert (alloc heap) v
  return { out with toByteStream := s }

/-- `GetPacket()`. -/
def getPacket (out : OutPacketStream) : Except StreamFault (Packet × OutPacketStream) := do
  if out.isTransfered then throw .check
  let p ← Packet.ofData out.cmdType out.block out.tell
  return (p, { out with isTransfered := true, isNew := false })

end OutPacketStream

/-- `InPacketStream(packet)`. -/
def InPacketStream.new (packet : Packet) : ByteStream :=
  .ofBuffer (some packet.data) Packet.kPacketHeaderSize.toNat packet.getBodyLength

end Zutils.Net
