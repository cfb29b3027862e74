import Zutils.Base.ByteOrder
import Zutils.Base.Checked

/-!
# The byte buffer (`net/base/io_buffer.h`, `io_buffer.cc`)

A vector with two indices: the bytes before `readerIndex` are free for `prepend`, those from `readerIndex` to
`writerIndex` are the content, those behind are free for writing.

`size_t` is `ℕ`: the sums the buffer forms are taken to fit. The one conversion that loses a value,
`static_cast<int>` in `ToStringPiece`, is written out. A pointer argument with its length is the list of the bytes
it points to, an `end` pointer is its index in the vector, and the answer of the kernel to `readv` is an argument
of `readFd`.
-/

namespace Zutils.Net

/-- `class IOBuffer`. -/
structure IOBuffer where
  buffer : List UInt8
  readerIndex : ℕ
  writerIndex : ℕ
  deriving DecidableEq, Repr

/-- The answer of the kernel to a read: an error, or the bytes it hands over (none at the end of the stream). -/
inductive ReadResult where
  | error
  | bytes (data : List UInt8)
  deriving DecidableEq, Repr

namespace IOBuffer

def kCheapPrepend : ℕ := 8
def kInitialSize : ℕ := 1024

/-- `sizeof extrabuf` in `ReadFd`. -/
def kExtraBuf : ℕ := 65536

/-- `IOBuffer(size_t initial_size)`. -/
def new (initialSize : ℕ) : IOBuffer where
  buffer := List.replicate (kCheapPrepend + initialSize) 0
  readerIndex := kCheapPrepend
  writerIndex := kCheapPrepend

/-! ### Sizes and content -/

section Reading

variable (b : IOBuffer)

def readableBytes : ℕ := b.writerIndex - b.readerIndex
def writableBytes : ℕ := b.buffer.length - b.writerIndex
def prependableBytes : ℕ := b.readerIndex

/-- The `n` bytes at `Peek()`. -/
def peek (n : ℕ) : List UInt8 := (b.buffer.drop b.readerIndex).take n

/-- The content: the bytes from `reader_index_` to `writer_index_`. -/
def readable : List UInt8 := b.peek b.readableBytes

/-- `static_cast<int>(ReadableBytes())`, as the `size_t` it is then converted to. -/
def pieceLength : ℕ := (((b.readableBytes : ℤ).bmod (2 ^ 32)) % 2 ^ 64).toNat

def toStringPiece : Except Fault (List UInt8) :=
  if b.readerIndex + b.pieceLength ≤ b.buffer.length then .ok (b.peek b.pieceLength)
  else .error .outOfRange

/-- `PeekBigEndianUint32()`: `NetToHost32` of the first four bytes. -/
def peekBigEndianUint32 : Except Fault UInt32 := do
  dcheck (4 ≤ b.readableBytes)
  return get32 (b.peek 4) 0

/-- `PeekBigEndianInt32()`: the same bits as an `int32`. -/
def peekBigEndianInt32 : Except Fault ℤ := do
  return ((← b.peekBigEndianUint32).toNat : ℤ).bmod (2 ^ 32)

end Reading

/-! ### Taking bytes out -/

section Retrieving

variable (b : IOBuffer)

def retrieveAll : IOBuffer := { b with readerIndex := kCheapPrepend, writerIndex := kCheapPrepend }

def retrieve (len : ℕ) : Except Fault IOBuffer := do
  dcheck (len ≤ b.readableBytes)
  if len < b.readableBytes then
    return { b with readerIndex := b.readerIndex + len }
  else
    return b.retrieveAll

/-- `RetrieveUntil(end)`, with `end` as an index of the vector. -/
def retrieveUntil (last : ℕ) : Except Fault IOBuffer := do
  dcheck (b.readerIndex ≤ last)
  dcheck (last ≤ b.writerIndex)
  b.retrieve (last - b.readerIndex)

def retrieveAsString (len : ℕ) : Except Fault (List UInt8 × IOBuffer) := do
  dcheck (len ≤ b.readableBytes)
  let b' ← b.retrieve len
  return (b.peek len, b')

def retrieveAllAsString : Except Fault (List UInt8 × IOBuffer) := b.retrieveAsString b.readableBytes

end Retrieving

/-! ### Putting bytes in -/

section Writing

variable (b : IOBuffer)

/-- `MakeSpace(len)`: grows the vector, or moves the content to the front of it. -/
def makeSpace (len : ℕ) : Except Fault IOBuffer := do
  if b.writableBytes + b.prependableBytes < len + kCheapPrepend then
    return { b with buffer := resize b.buffer (b.writerIndex + len) }
  else
    dcheck (kCheapPrepend < b.readerIndex)
    let moved ← copyAt b.buffer kCheapPrepend b.readable
    let b' := { b with
      buffer := moved, readerIndex := kCheapPrepend, writerIndex := kCheapPrepend + b.readableBytes }
    dcheck (b.readableBytes = b'.readableBytes)
    return b'

def ensureWritableBytes (len : ℕ) : Except Fault IOBuffer := do
  let b' ← if b.writableBytes < len then b.makeSpace len else pure b
  dcheck (len ≤ b'.writableBytes)
  return b'

def hasWritten (len : ℕ) : Except Fault IOBuffer := do
  dcheck (len ≤ b.writableBytes)
  return { b with writerIndex := b.writerIndex + len }

/-- The caller stores `data` at `BeginWrite()`. -/
def fill (data : List UInt8) : Except Fault IOBuffer := do
  return { b with buffer := ← copyAt b.buffer b.writerIndex data }

def write (data : List UInt8) : Except Fault IOBuffer := do
  let b' ← b.ensureWritableBytes data.length
  let b'' ← b'.fill data
  b''.hasWritten data.length

def unwrite (len : ℕ) : Except Fault IOBuffer := do
  dcheck (len ≤ b.readableBytes)
  return { b with writerIndex := b.writerIndex - len }

def prepend (data : List UInt8) : Except Fault IOBuffer := do
  dcheck (data.length ≤ b.prependableBytes)
  let buffer ← copyAt b.buffer (b.readerIndex - data.length) data
  return { b with buffer, readerIndex := b.readerIndex - data.length }

/-- `Swap(rhs)`: what becomes of `*this` and of `rhs`. -/
def swap (rhs : IOBuffer) : IOBuffer × IOBuffer :=
  ({ buffer := rhs.buffer, readerIndex := rhs.readerIndex, writerIndex := rhs.writerIndex },
   { buffer := b.buffer, readerIndex := b.readerIndex, writerIndex := b.writerIndex })

def shrink (reserve : ℕ) : Except Fault IOBuffer := do
  let other ← (new kInitialSize).ensureWritableBytes (b.readableBytes + reserve)
  let other ← other.write (← b.toStringPiece)
  return (b.swap other).1

/-- The total length of the iovecs `ReadFd` offers: the writable bytes, and the stack buffer when they are few. -/
def offered : ℕ := b.writableBytes + if b.writableBytes < kExtraBuf then kExtraBuf else 0

/-- `ReadFd(fd, &saved_errno)` on POSIX. The kernel fills the writable bytes first and the stack buffer next; the
`ssize_t` it returns is returned as an `int`. -/
def readFd : ReadResult → Except Fault (ℤ × IOBuffer)
  | .error => return (-1, b)
  | .bytes data => do
    if b.offered < data.length then .error .outOfRange
    let b' ← b.fill (data.take b.writableBytes)
    if data.length ≤ b.writableBytes then
      return ((data.length : ℤ).bmod (2 ^ 32), { b' with writerIndex := b.writerIndex + data.length })
    else
      let b'' ← { b' with writerIndex := b'.buffer.length }.write (data.drop b.writableBytes)
      return ((data.length : ℤ).bmod (2 ^ 32), b'')

/-- `sizeof buf` in `ReadFd` on Windows. -/
def kRecvBuf : ℕ := 65536

/-- `ReadFd(fd, &saved_errno)` on Windows: `n`, and what is in `saved_errno` then. A full `buf` is logged as
"impossible!!!!", and the bytes in it are not written. -/
def readFdWin (savedErrno : ℤ) : ReadResult → Except Fault (ℤ × ℤ × IOBuffer)
  | .error => return (-1, -1, b)
  | .bytes data => do
    if kRecvBuf < data.length then .error .outOfRange
    let n : ℤ := data.length
    if 0 < n then
      if n = 65536 then
        return (n, savedErrno, b)
      else
        return (n, savedErrno, ← b.write data)
    else
      return (n, n, b)

end Writing

end IOBuffer

end Zutils.Net
