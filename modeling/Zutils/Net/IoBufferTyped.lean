import Zutils.Base.SysByteorder
import Zutils.Net.IoBuffer

/-!
# The typed accessors of the byte buffer (`net/base/io_buffer.h`)

The members that write, peek, read and prepend an integer of a width and in a byte order, on a host of either order.
The members of a family are one of the functions below at their own width and conversion. They are written out one by
one, as the source has them, because three of them are not like their neighbours: every `Write…Uint…` takes its
argument as a signed integer, `ReadLittleEndianInt16` retrieves after `ReadLittleEndianUint16` has done so, and
`PrependLittleEndianInt16` calls `PrependBigEndianUint16`.
-/

namespace Zutils.Net.IOBuffer.OnHost

open Lib

variable (host : Host) (b : IOBuffer)

/-! ### The families -/

/-- `Write(&x, sizeof(x))`. -/
def writeWord {W : Type} [Word W] (x : W) : Except Fault IOBuffer := b.write (host.store x)

/-- `Prepend(&x, sizeof x)`. -/
def prependWord {W : Type} [Word W] (x : W) : Except Fault IOBuffer := b.prepend (host.store x)

/-- `DCHECK(ReadableBytes() >= sizeof(x)); ::memcpy(&x, Peek(), sizeof(x))`. -/
def peekWord (W : Type) [Word W] : Except Fault W := do
  dcheck (Word.size W ≤ b.readableBytes)
  return host.load (b.peek (Word.size W))

/-- The value is peeked, or read, and then `retrieve` is called. -/
def readBy {α : Type} (value : Except Fault (α × IOBuffer)) (retrieve : IOBuffer → Except Fault IOBuffer) :
    Except Fault (α × IOBuffer) := do
  let (result, b') ← value
  return (result, ← retrieve b')

/-- Peeking leaves the buffer as it is. -/
def peeked {α : Type} (value : Except Fault α) : Except Fault (α × IOBuffer) := do
  return (← value, b)

def retrieveInt64 : Except Fault IOBuffer := b.retrieve 8
def retrieveInt32 : Except Fault IOBuffer := b.retrieve 4
def retrieveInt16 : Except Fault IOBuffer := b.retrieve 2
def retrieveInt8 : Except Fault IOBuffer := b.retrieve 1

/-! ### `Write…` -/

def writeBigEndianUint64 (x : Int64) : Except Fault IOBuffer := writeWord host b (hostToNet64 host x.toUInt64)
def writeBigEndianInt64 (x : Int64) : Except Fault IOBuffer := writeBigEndianUint64 host b x
def writeLittleEndianUint64 (x : Int64) : Except Fault IOBuffer := writeWord host b (byteSwapToLE64 host x.toUInt64)
def writeLittleEndianInt64 (x : Int64) : Except Fault IOBuffer := writeLittleEndianUint64 host b x

def writeBigEndianUint32 (x : Int32) : Except Fault IOBuffer := writeWord host b (hostToNet32 host x.toUInt32)
def writeBigEndianInt32 (x : Int32) : Except Fault IOBuffer := writeBigEndianUint32 host b x
def writeLittleEndianUint32 (x : Int32) : Except Fault IOBuffer := writeWord host b (byteSwapToLE32 host x.toUInt32)
def writeLittleEndianInt32 (x : Int32) : Except Fault IOBuffer := writeLittleEndianUint32 host b x

def writeBigEndianUint16 (x : Int16) : Except Fault IOBuffer := writeWord host b (hostToNet16 host x.toUInt16)
def writeBigEndianInt16 (x : Int16) : Except Fault IOBuffer := writeBigEndianUint16 host b x
def writeLittleEndianUint16 (x : Int16) : Except Fault IOBuffer := writeWord host b (byteSwapToLE16 host x.toUInt16)
def writeLittleEndianInt16 (x : Int16) : Except Fault IOBuffer := writeLittleEndianUint16 host b x

def writeInt8 (x : Int8) : Except Fault IOBuffer := writeWord host b x.toUInt8
def writeUint8 (x : Int8) : Except Fault IOBuffer := writeWord host b x.toUInt8

/-! ### `Peek…` -/

def peekBigEndianUint64 : Except Fault UInt64 := do return netToHost64 host (← peekWord host b UInt64)
def peekBigEndianInt64 : Except Fault Int64 := do return (← peekBigEndianUint64 host b).toInt64
def peekLittleEndianUint64 : Except Fault UInt64 := do return byteSwapToLE64 host (← peekWord host b UInt64)
def peekLittleEndianInt64 : Except Fault Int64 := do return (← peekLittleEndianUint64 host b).toInt64

def peekBigEndianUint32 : Except Fault UInt32 := do return netToHost32 host (← peekWord host b UInt32)
def peekBigEndianInt32 : Except Fault Int32 := do return (← peekBigEndianUint32 host b).toInt32
def peekLittleEndianUint32 : Except Fault UInt32 := do return byteSwapToLE32 host (← peekWord host b UInt32)
def peekLittleEndianInt32 : Except Fault Int32 := do return (← peekLittleEndianUint32 host b).toInt32

def peekBigEndianUint16 : Except Fault UInt16 := do return netToHost16 host (← peekWord host b UInt16)
def peekBigEndianInt16 : Except Fault Int16 := do return (← peekBigEndianUint16 host b).toInt16
def peekLittleEndianUint16 : Except Fault UInt16 := do return byteSwapToLE16 host (← peekWord host b UInt16)
def peekLittleEndianInt16 : Except Fault Int16 := do return (← peekLittleEndianUint16 host b).toInt16

def peekInt8 : Except Fault Int8 := do return (← peekWord host b UInt8).toInt8
def peekUint8 : Except Fault UInt8 := peekWord host b UInt8

/-! ### `Read…` -/

def readBigEndianInt64 : Except Fault (Int64 × IOBuffer) :=
  readBy (peeked b (peekBigEndianInt64 host b)) retrieveInt64
def readBigEndianUint64 : Except Fault (UInt64 × IOBuffer) :=
  readBy (peeked b (peekBigEndianUint64 host b)) retrieveInt64
def readLittleEndianInt64 : Except Fault (Int64 × IOBuffer) :=
  readBy (peeked b (peekLittleEndianInt64 host b)) retrieveInt64
def readLittleEndianUint64 : Except Fault (UInt64 × IOBuffer) :=
  readBy (peeked b (peekLittleEndianUint64 host b)) retrieveInt64

def readBigEndianInt32 : Except Fault (Int32 × IOBuffer) :=
  readBy (peeked b (peekBigEndianInt32 host b)) retrieveInt32
def readBigEndianUint32 : Except Fault (UInt32 × IOBuffer) :=
  readBy (peeked b (peekBigEndianUint32 host b)) retrieveInt32
def readLittleEndianInt32 : Except Fault (Int32 × IOBuffer) :=
  readBy (peeked b (peekLittleEndianInt32 host b)) retrieveInt32
def readLittleEndianUint32 : Except Fault (UInt32 × IOBuffer) :=
  readBy (peeked b (peekLittleEndianUint32 host b)) retrieveInt32

def readBigEndianInt16 : Except Fault (Int16 × IOBuffer) :=
  readBy (peeked b (peekBigEndianInt16 host b)) retrieveInt16
def readBigEndianUint16 : Except Fault (UInt16 × IOBuffer) :=
  readBy (peeked b (peekBigEndianUint16 host b)) retrieveInt16
def readLittleEndianUint16 : Except Fault (UInt16 × IOBuffer) :=
  readBy (peeked b (peekLittleEndianUint16 host b)) retrieveInt16

/-- The value is read, not peeked, before `RetrieveInt16()`. -/
def readLittleEndianInt16 : Except Fault (Int16 × IOBuffer) := do
  let (result, b') ← readBy (readLittleEndianUint16 host b) retrieveInt16
  return (result.toInt16, b')

def readInt8 : Except Fault (Int8 × IOBuffer) := readBy (peeked b (peekInt8 host b)) retrieveInt8
def readUint8 : Except Fault (UInt8 × IOBuffer) := readBy (peeked b (peekUint8 host b)) retrieveInt8

/-! ### `Prepend…` -/

def prependBigEndianUint64 (x : UInt64) : Except Fault IOBuffer := prependWord host b (hostToNet64 host x)
def prependBigEndianInt64 (x : Int64) : Except Fault IOBuffer := prependBigEndianUint64 host b x.toUInt64
def prependLittleEndianUint64 (x : UInt64) : Except Fault IOBuffer := prependWord host b (byteSwapToLE64 host x)
def prependLittleEndianInt64 (x : Int64) : Except Fault IOBuffer := prependLittleEndianUint64 host b x.toUInt64

def prependBigEndianUint32 (x : UInt32) : Except Fault IOBuffer := prependWord host b (hostToNet32 host x)
def prependBigEndianInt32 (x : Int32) : Except Fault IOBuffer := prependBigEndianUint32 host b x.toUInt32
def prependLittleEndianUint32 (x : UInt32) : Except Fault IOBuffer := prependWord host b (byteSwapToLE32 host x)
def prependLittleEndianInt32 (x : Int32) : Except Fault IOBuffer := prependLittleEndianUint32 host b x.toUInt32

/-- The source keeps the converted value in an `int16`. -/
def prependBigEndianUint16 (x : UInt16) : Except Fault IOBuffer :=
  prependWord host b (hostToNet16 host x).toInt16.toUInt16
def prependBigEndianInt16 (x : Int16) : Except Fault IOBuffer := prependBigEndianUint16 host b x.toUInt16
def prependLittleEndianUint16 (x : UInt16) : Except Fault IOBuffer :=
  prependWord host b (byteSwapToLE16 host x).toInt16.toUInt16
def prependLittleEndianInt16 (x : Int16) : Except Fault IOBuffer := prependBigEndianUint16 host b x.toUInt16

def prependInt8 (x : Int8) : Except Fault IOBuffer := prependWord host b x.toUInt8
def prependUint8 (x : UInt8) : Except Fault IOBuffer := prependWord host b x

/-! ### An integer type and its members -/

/-- The suffix in the name of an accessor. -/
inductive IntType where
  | bigEndianInt64 | bigEndianUint64 | littleEndianInt64 | littleEndianUint64
  | bigEndianInt32 | bigEndianUint32 | littleEndianInt32 | littleEndianUint32
  | bigEndianInt16 | bigEndianUint16 | littleEndianInt16 | littleEndianUint16
  | int8 | uint8
  deriving DecidableEq, Repr

/-- The values of the type. -/
def IntType.Val : IntType → Type
  | .bigEndianInt64 | .littleEndianInt64 => Int64
  | .bigEndianUint64 | .littleEndianUint64 => UInt64
  | .bigEndianInt32 | .littleEndianInt32 => Int32
  | .bigEndianUint32 | .littleEndianUint32 => UInt32
  | .bigEndianInt16 | .littleEndianInt16 => Int16
  | .bigEndianUint16 | .littleEndianUint16 => UInt16
  | .int8 => Int8
  | .uint8 => UInt8

/-- An integer of one of the types. -/
abbrev TypedInt := (t : IntType) × t.Val

/-- The `Write` member. An unsigned value becomes the signed argument of the same bits. -/
def write : TypedInt → Except Fault IOBuffer
  | ⟨.bigEndianInt64, x⟩ => writeBigEndianInt64 host b x
  | ⟨.bigEndianUint64, x⟩ => writeBigEndianUint64 host b (UInt64.toInt64 x)
  | ⟨.littleEndianInt64, x⟩ => writeLittleEndianInt64 host b x
  | ⟨.littleEndianUint64, x⟩ => writeLittleEndianUint64 host b (UInt64.toInt64 x)
  | ⟨.bigEndianInt32, x⟩ => writeBigEndianInt32 host b x
  | ⟨.bigEndianUint32, x⟩ => writeBigEndianUint32 host b (UInt32.toInt32 x)
  | ⟨.littleEndianInt32, x⟩ => writeLittleEndianInt32 host b x
  | ⟨.littleEndianUint32, x⟩ => writeLittleEndianUint32 host b (UInt32.toInt32 x)
  | ⟨.bigEndianInt16, x⟩ => writeBigEndianInt16 host b x
  | ⟨.bigEndianUint16, x⟩ => writeBigEndianUint16 host b (UInt16.toInt16 x)
  | ⟨.littleEndianInt16, x⟩ => writeLittleEndianInt16 host b x
  | ⟨.littleEndianUint16, x⟩ => writeLittleEndianUint16 host b (UInt16.toInt16 x)
  | ⟨.int8, x⟩ => writeInt8 host b x
  | ⟨.uint8, x⟩ => writeUint8 host b (UInt8.toInt8 x)

/-- The `Peek` member. -/
def peek : (t : IntType) → Except Fault t.Val
  | .bigEndianInt64 => peekBigEndianInt64 host b
  | .bigEndianUint64 => peekBigEndianUint64 host b
  | .littleEndianInt64 => peekLittleEndianInt64 host b
  | .littleEndianUint64 => peekLittleEndianUint64 host b
  | .bigEndianInt32 => peekBigEndianInt32 host b
  | .bigEndianUint32 => peekBigEndianUint32 host b
  | .littleEndianInt32 => peekLittleEndianInt32 host b
  | .littleEndianUint32 => peekLittleEndianUint32 host b
  | .bigEndianInt16 => peekBigEndianInt16 host b
  | .bigEndianUint16 => peekBigEndianUint16 host b
  | .littleEndianInt16 => peekLittleEndianInt16 host b
  | .littleEndianUint16 => peekLittleEndianUint16 host b
  | .int8 => peekInt8 host b
  | .uint8 => peekUint8 host b

/-- A value that was read, with its type. -/
def typed (t : IntType) (read : Except Fault (t.Val × IOBuffer)) : Except Fault (TypedInt × IOBuffer) := do
  let (result, b') ← read
  return (⟨t, result⟩, b')

/-- The `Read` member. -/
def read : IntType → Except Fault (TypedInt × IOBuffer)
  | .bigEndianInt64 => typed .bigEndianInt64 (readBigEndianInt64 host b)
  | .bigEndianUint64 => typed .bigEndianUint64 (readBigEndianUint64 host b)
  | .littleEndianInt64 => typed .littleEndianInt64 (readLittleEndianInt64 host b)
  | .littleEndianUint64 => typed .littleEndianUint64 (readLittleEndianUint64 host b)
  | .bigEndianInt32 => typed .bigEndianInt32 (readBigEndianInt32 host b)
  | .bigEndianUint32 => typed .bigEndianUint32 (readBigEndianUint32 host b)
  | .littleEndianInt32 => typed .littleEndianInt32 (readLittleEndianInt32 host b)
  | .littleEndianUint32 => typed .littleEndianUint32 (readLittleEndianUint32 host b)
  | .bigEndianInt16 => typed .bigEndianInt16 (readBigEndianInt16 host b)
  | .bigEndianUint16 => typed .bigEndianUint16 (readBigEndianUint16 host b)
  | .littleEndianInt16 => typed .littleEndianInt16 (readLittleEndianInt16 host b)
  | .littleEndianUint16 => typed .littleEndianUint16 (readLittleEndianUint16 host b)
  | .int8 => typed .int8 (readInt8 host b)
  | .uint8 => typed .uint8 (readUint8 host b)

/-- The `Prepend` member. -/
def prepend : TypedInt → Except Fault IOBuffer
  | ⟨.bigEndianInt64, x⟩ => prependBigEndianInt64 host b x
  | ⟨.bigEndianUint64, x⟩ => prependBigEndianUint64 host b x
  | ⟨.littleEndianInt64, x⟩ => prependLittleEndianInt64 host b x
  | ⟨.littleEndianUint64, x⟩ => prependLittleEndianUint64 host b x
  | ⟨.bigEndianInt32, x⟩ => prependBigEndianInt32 host b x
  | ⟨.bigEndianUint32, x⟩ => prependBigEndianUint32 host b x
  | ⟨.littleEndianInt32, x⟩ => prependLittleEndianInt32 host b x
  | ⟨.littleEndianUint32, x⟩ => prependLittleEndianUint32 host b x
  | ⟨.bigEndianInt16, x⟩ => prependBigEndianInt16 host b x
  | ⟨.bigEndianUint16, x⟩ => prependBigEndianUint16 host b x
  | ⟨.littleEndianInt16, x⟩ => prependLittleEndianInt16 host b x
  | ⟨.littleEndianUint16, x⟩ => prependLittleEndianUint16 host b x
  | ⟨.int8, x⟩ => prependInt8 host b x
  | ⟨.uint8, x⟩ => prependUint8 host b x

end Zutils.Net.IOBuffer.OnHost
