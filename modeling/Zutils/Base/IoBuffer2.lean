import Zutils.Base.Checked
import Mathlib.Algebra.Group.Nat.Defs
import Mathlib.Algebra.Group.Int.Defs
import Mathlib.Data.Int.Notation

/-!
# The buffer with two cursors (`base2/io_buffer2.cc`, `base2/io_buffer2.h`)

`IOBuffer2` has a block of memory, its own or somebody else's, and cursors for reading and writing. Positions and sizes
are `int`s; a sum that is none is a fault, and so is an access outside the block or outside the object that is read
into. Where a size is compared with `readable_size()`, this is done in 64 bits.

Fresh memory has arbitrary contents. That an allocation fails ends the process (`CHECK`) and is left out. Integers are
stored in the byte order of the host, which is little-endian.
-/

namespace Zutils

/-- Why an operation does not return. -/
inductive BufferFault where
  /-- An access outside the block or the destination. -/
  | outOfBlock
  /-- A sum that is no `int`. -/
  | overflow
  deriving DecidableEq, Repr

/-- A value of the type `int`. -/
def int (x : ℤ) : Except BufferFault ℤ := if -2 ^ 31 ≤ x ∧ x < 2 ^ 31 then .ok x else .error .overflow

/-- Conversion to `int`. -/
def toInt32 (x : ℤ) : ℤ := x.bmod (2 ^ 32)

/-- Conversion to `size_t`. -/
def toSizeT (x : ℤ) : ℤ := x % 2 ^ 64

/-- `memcpy(dst + i, src + j, n)`. -/
def memcpy (dst : List UInt8) (i : ℤ) (src : List UInt8) (j n : ℤ) : Except BufferFault (List UInt8) :=
  if 0 ≤ n ∧ 0 ≤ i ∧ i + n ≤ dst.length ∧ 0 ≤ j ∧ j + n ≤ src.length then
    .ok (dst.take i.toNat ++ (src.drop j.toNat).take n.toNat ++ dst.drop (i + n).toNat)
  else .error .outOfBlock

/-- The `k` bytes of an integer, the least significant one first. -/
def hostBytes (k n : ℕ) : List UInt8 := (List.range k).map fun i => UInt8.ofNat (n / 256 ^ i)

/-- The integer with these bytes. -/
def hostNat : List UInt8 → ℕ
  | [] => 0
  | b :: bs => b.toNat + 256 * hostNat bs

/-- `class IOBuffer2`. -/
structure IOBuffer2 where
  data : List UInt8
  size : ℤ
  readPos : ℤ
  writePos : ℤ
  isNew : Bool
  deriving DecidableEq, Repr

namespace IOBuffer2

def kDefaultIOBufferSize : ℕ := 4096

/-- What a fresh block of `n` bytes holds. -/
def fresh (mem : ℕ → UInt8) (n : ℕ) : List UInt8 := (List.range n).map mem

/-- `IOBuffer2()`. -/
def new (mem : ℕ → UInt8) : IOBuffer2 := ⟨fresh mem kDefaultIOBufferSize, kDefaultIOBufferSize, 0, 0, true⟩

/-- `IOBuffer2(size)`. -/
def ofSize (mem : ℕ → UInt8) (size : ℕ) : IOBuffer2 := ⟨fresh mem size, size, 0, 0, true⟩

/-- `IOBuffer2(data, size)`. -/
def ofData (data : List UInt8) (size : ℕ) : IOBuffer2 := ⟨data, size, 0, 0, false⟩

section

variable (b : IOBuffer2)

def readableSize : ℤ := b.size - b.readPos

def skipReadPos (size : ℤ) : Except BufferFault (Bool × IOBuffer2) := do
  let readPos ← int (size + b.readPos)
  if readPos < 0 ∨ readPos ≥ b.size then return (false, b) else return (true, { b with readPos })

/-- The check is of `size_`, not of `size`. -/
def seekReadPos (size : ℤ) : Bool × IOBuffer2 :=
  if b.size < 0 ∨ size ≥ b.size then (false, b) else (true, { b with readPos := size })

def skipWritePos (size : ℤ) : Except BufferFault (Bool × IOBuffer2) := do
  let writePos ← int (size + b.writePos)
  if writePos < 0 ∨ writePos ≥ b.size then return (false, b) else return (true, { b with writePos })

def seekWritePos (size : ℤ) : Bool × IOBuffer2 :=
  if b.size < 0 ∨ size ≥ b.size then (false, b) else (true, { b with writePos := size })

/-- A block of another size with what is in this one: `realloc`, or a new block if this one is not the buffer's own.
`isNew` is the flag after that. -/
def move (mem : ℕ → UInt8) (newSize : ℤ) (isNew : Bool) : Except BufferFault IOBuffer2 :=
  if b.isNew then
    .ok { b with
      data := b.data.take newSize.toNat ++ (fresh mem newSize.toNat).drop b.data.length
      size := newSize }
  else do
    let data ← memcpy (fresh mem newSize.toNat) 0 b.data 0 b.size
    return { b with data, size := newSize, isNew }

/-- `Resize`. -/
def resize (mem : ℕ → UInt8) (size : ℤ) : Except BufferFault IOBuffer2 :=
  if b.size < size then b.move mem size true else .ok b

/-! ### Reading -/

/-- `ReadRaw`, with the object that is read into. -/
def readRaw (buf : List UInt8) (bufLen : ℤ) (isPeek : Bool) : Except BufferFault (List UInt8 × IOBuffer2) := do
  let buf ← memcpy buf 0 b.data b.readPos bufLen
  if isPeek then return (buf, b)
  else do
    let readPos ← int (b.readPos + bufLen)
    return (buf, { b with readPos })

/-- `ReadOffsetRaw`. -/
def readOffsetRaw (buf : List UInt8) (offset bufLen : ℤ) : Except BufferFault (List UInt8) :=
  memcpy buf 0 b.data (b.readPos + offset) bufLen

/-- What `ReadUint8` and the like have in common, for a type of `k` bytes. `val` may be null. -/
def readUint (k : ℕ) (isPeek : Bool) (val : Option (List UInt8)) :
    Except BufferFault (Bool × Option (List UInt8) × IOBuffer2) :=
  match val with
  | none => .ok (false, none, b)
  | some buf =>
    if k > toSizeT b.readableSize then .ok (false, some buf, b)
    else do
      let (buf, b) ← b.readRaw buf k isPeek
      return (true, some buf, b)

def readUint8 := b.readUint 1 false

def readUint16 := b.readUint 2 false

def readUint32 := b.readUint 4 false

def readUint64 := b.readUint 8 false

def readPeekUint8 := b.readUint 1 true

def readPeekUint16 := b.readUint 2 true

def readPeekUint32 := b.readUint 4 true

def readPeekUint64 := b.readUint 8 true

/-- What `ReadOffsetUint8` and the like have in common. The arguments of `ReadOffsetRaw` are its offset and its length. -/
def readOffsetUint (k : ℕ) (val : Option (List UInt8)) (offset : ℤ) :
    Except BufferFault (Bool × Option (List UInt8)) :=
  match val with
  | none => .ok (false, none)
  | some buf =>
    if toSizeT (offset + k) > toSizeT b.readableSize then .ok (false, some buf)
    else do
      let buf ← b.readOffsetRaw buf k offset
      return (true, some buf)

def readOffsetUint8 := b.readOffsetUint 1

def readOffsetUint16 := b.readOffsetUint 2

def readOffsetUint32 := b.readOffsetUint 4

def readOffsetUint64 := b.readOffsetUint 8

/-- `string_size` after `ReadPeekUint32(&string_size)`. -/
def peekStringSize : Except BufferFault ℕ := do
  let (_, val, _) ← b.readPeekUint32 (some (hostBytes 4 0))
  return hostNat (val.getD [])

/-- `ReadPeekString`. -/
def readPeekString (val : Option (List UInt8)) : Except BufferFault (Bool × Option (List UInt8)) :=
  match val with
  | none => .ok (false, none)
  | some val =>
    if 4 > toSizeT b.readableSize then .ok (false, some val)
    else do
      let stringSize ← b.peekStringSize
      if toSizeT (stringSize + 4) > toSizeT b.readableSize then return (false, some val)
      else do
        let val ← b.readOffsetRaw (Zutils.resize val stringSize) 4 (toInt32 stringSize)
        return (true, some val)

/-- `ReadString`, which passes over the string by `skip_read_pos`. -/
def readString (val : Option (List UInt8)) : Except BufferFault (Bool × Option (List UInt8) × IOBuffer2) :=
  match val with
  | none => .ok (false, none, b)
  | some val =>
    if 4 > toSizeT b.readableSize then .ok (false, some val, b)
    else do
      let stringSize ← b.peekStringSize
      if toSizeT (stringSize + 4) > toSizeT b.readableSize then return (false, some val, b)
      else do
        let val ← b.readOffsetRaw (Zutils.resize val stringSize) 4 (toInt32 stringSize)
        let (_, b) ← b.skipReadPos (toInt32 (toSizeT (stringSize + 4)))
        return (true, some val, b)

/-- `ReadOffsetString`. The length is read at the cursor. -/
def readOffsetString (val : Option (List UInt8)) (offset : ℤ) : Except BufferFault (Bool × Option (List UInt8)) :=
  match val with
  | none => .ok (false, none)
  | some val =>
    if toSizeT (4 + offset) > toSizeT b.readableSize then .ok (false, some val)
    else do
      let stringSize ← b.peekStringSize
      if toSizeT (stringSize + 4 + offset) > toSizeT b.readableSize then return (false, some val)
      else do
        let val ← b.readOffsetRaw (Zutils.resize val stringSize) (toInt32 (toSizeT (4 + offset))) (toInt32 stringSize)
        return (true, some val)

/-! ### Writing -/

/-- `WriteRaw` makes room. -/
def makeRoom (mem : ℕ → UInt8) (bufLen : ℤ) : Except BufferFault IOBuffer2 := do
  let room ← int (b.size - b.writePos)
  if room < bufLen then do
    let newSize ← int (room + bufLen)
    b.move mem newSize true
  else .ok b

/-- `WriteRaw`. -/
def writeRaw (mem : ℕ → UInt8) (buf : List UInt8) (bufLen : ℤ) : Except BufferFault IOBuffer2 := do
  let b ← b.makeRoom mem bufLen
  let data ← memcpy b.data b.writePos buf 0 bufLen
  let writePos ← int (b.writePos + bufLen)
  return { b with data, writePos }

/-- `WriteOffsetRaw` makes room. -/
def makeOffsetRoom (mem : ℕ → UInt8) (bufLen offset : ℤ) : Except BufferFault IOBuffer2 := do
  let room ← int (b.size - b.writePos)
  let need ← int (bufLen + offset)
  if room < need then do
    let newSize ← int (room + bufLen)
    let newSize ← int (newSize + offset)
    b.move mem newSize false
  else .ok b

/-- `WriteOffsetRaw`. -/
def writeOffsetRaw (mem : ℕ → UInt8) (buf : List UInt8) (bufLen offset : ℤ) : Except BufferFault IOBuffer2 := do
  let b ← b.makeOffsetRoom mem bufLen offset
  let data ← memcpy b.data (b.writePos + offset) buf 0 bufLen
  return { b with data }

variable (mem : ℕ → UInt8)

def writeUint8 (val : UInt8) := b.writeRaw mem (hostBytes 1 val.toNat) 1

def writeUint16 (val : UInt16) := b.writeRaw mem (hostBytes 2 val.toNat) 2

def writeUint32 (val : UInt32) := b.writeRaw mem (hostBytes 4 val.toNat) 4

def writeUint64 (val : UInt64) := b.writeRaw mem (hostBytes 8 val.toNat) 8

/-- The length of a string and its NUL, as a `uint32`. -/
def stringSize (val : List UInt8) : UInt32 := UInt32.ofNat (val.length + 1)

/-- Both overloads of `WriteString`, with the bytes in front of the NUL. -/
def writeString (val : List UInt8) : Except BufferFault IOBuffer2 := do
  let b ← b.writeUint32 mem (stringSize val)
  b.writeRaw mem (val ++ [0]) (toInt32 (stringSize val).toNat)

def writeOffsetUint8 (val : UInt8) (offset : ℤ) := b.writeOffsetRaw mem (hostBytes 1 val.toNat) 1 offset

def writeOffsetUint16 (val : UInt16) (offset : ℤ) := b.writeOffsetRaw mem (hostBytes 2 val.toNat) 2 offset

def writeOffsetUint32 (val : UInt32) (offset : ℤ) := b.writeOffsetRaw mem (hostBytes 4 val.toNat) 4 offset

def writeOffsetUint64 (val : UInt64) (offset : ℤ) := b.writeOffsetRaw mem (hostBytes 8 val.toNat) 8 offset

/-- Both overloads of `WriteOffsetString`. -/
def writeOffsetString (val : List UInt8) (offset : ℤ) : Except BufferFault IOBuffer2 := do
  let b ← b.writeOffsetUint32 mem (stringSize val) offset
  b.writeOffsetRaw mem (val ++ [0]) (toInt32 (stringSize val).toNat) (toInt32 (toSizeT (offset + 4)))

end

end IOBuffer2

end Zutils
